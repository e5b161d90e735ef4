/-
What happens when a refresh token is presented that has been exchanged already.

The route revokes the user's sessions when it finds the token's session revoked.  But
an exchange writes the new token's hash over the old one's, so an exchanged token has
no session any more: it is turned away like any unknown string, and nothing is
revoked.
-/
import GovCrawler.Auth.Tokens

namespace GovCrawler

open Relational Transition

/-- Every session of the user is revoked. -/
def AllRevoked (db : AuthDb) (userId : Nat) : Prop :=
  ∀ k s, db.session? k = some s → s.userId = userId → s.revokedAt.isSome = true

/-- The request was rejected, and left the user without a live session. -/
def ReuseDetected (r : Except HttpError TokenResponse × AuthState) (userId : Nat) : Prop :=
  (∃ e, r.1 = .error e) ∧ AllRevoked r.2.db userId

/-- An exchanged token is unknown. -/
theorem refresh_exchanged {settings : AuthSettings} {tokens : Set String} {w : AuthWorld}
    (hinv : TokensInv settings tokens w)
    (hhash : Set.InjOn settings.lib.hashRefreshToken tokens) {token : String} {userId : Nat}
    (hrotated : .rotated token userId ∈ w.log) {refreshToken : Option String}
    {ctx : RequestContext} (hpresented : presentedToken refreshToken ctx = some token)
    (now : Time) (fresh : String) :
    refresh settings w.state refreshToken ctx now fresh = (.error invalidRefreshToken, w.state) := by
  obtain ⟨s, hissued⟩ := hinv.refresh.exchanged token userId hrotated
  have hin : token ∈ tokens := hinv.refresh.known token s userId hissued
  have hnone : w.state.db.getSessionByHash (settings.lib.hashRefreshToken token) = none := by
    refine AuthDb.getSessionByHash_eq_none fun k row hrow heq => ?_
    -- a session with this hash would have the exchanged token for its current one
    exact (hinv.refresh.current_of_hash hhash hrow hin heq).kept userId hrotated
  unfold refresh
  rw [hpresented]
  dsimp only
  rw [hnone]

/--
**When reuse is detected.**  In every history, presenting an exchanged token leaves the
user without a live session exactly if the user had none before.
-/
theorem reuse_detected_iff (settings : AuthSettings) (db : AuthDb) (tokens : Set String)
    (hhash : Set.InjOn settings.lib.hashRefreshToken tokens) (as : List AuthAction)
    (hin : ∀ a ∈ as, ∀ t ∈ a.tokens, t ∈ tokens) (w : AuthWorld)
    (hrun : run (AuthWorld.step settings) (.init db) as = some w) (token : String) (userId : Nat)
    (hrotated : .rotated token userId ∈ w.log) (refreshToken : Option String)
    (ctx : RequestContext) (hpresented : presentedToken refreshToken ctx = some token)
    (now : Time) (fresh : String) :
    ReuseDetected (refresh settings w.state refreshToken ctx now fresh) userId ↔
      AllRevoked w.state.db userId := by
  have hinv : TokensInv settings tokens w := (TokensInv.init db).run hhash hin hrun
  rw [refresh_exchanged hinv hhash hrotated hpresented now fresh]
  exact ⟨fun h => h.2, fun h => ⟨⟨_, rfl⟩, h⟩⟩

/-! ### One user, one exchange -/

/-- Libraries that behave as the real ones do on what is used below: the hashes differ,
and the one password is right. -/
def plainLib : AuthLib where
  normalizeEmail := id
  hashPassword := fun p => "argon2:" ++ p
  verifyPassword := fun hash p => hash == "argon2:" ++ p
  hashRefreshToken := fun t => "sha256:" ++ t

theorem plainLib_injOn (tokens : Set String) : Set.InjOn plainLib.hashRefreshToken tokens :=
  fun _ _ _ _ hab => (String.append_right_inj _).mp hab

/-- The one token that is signed below decodes until it expires. -/
def plainJwt : Jwt where
  encode := fun payload _ => if payload = ⟨1, 0, "access", 0, 900⟩ then "eyJ" else ""
  decode := fun token key now =>
    if token = "eyJ" ∧ key = "secret" ∧ now < seconds 900 then
      some ⟨1, 0, "access", 0, 900⟩
    else none

def plainAuth : AuthSettings where
  config := { jwtSecret := "secret", accessTtlMinutes := 15, refreshTtlDays := 14,
              lockoutThreshold := 5, lockoutMinutes := 15 }
  lib := plainLib
  jwt := plainJwt

def oneUser : AuthDb where
  roles := Table.empty
  rolePermissions := Table.empty
  users := Table.empty.insertNew fun id =>
    { id, email := "clerk@x.org", passwordHash := "argon2:correct horse" }
  userPermissions := Table.empty
  userSessions := Table.empty

def clerkLogin (fresh : String) : AuthAction :=
  .login ⟨"clerk@x.org", "correct horse"⟩ {} ⟨0, 0⟩ fresh

/-- A login, whose token `r0` is exchanged for `r1`. -/
def exchangeHistory : List AuthAction := [clerkLogin "r0", .refresh (some "r0") {} 0 "r1"]

/-- The stolen `r0` is turned away, and the session stays live. -/
theorem reuse_not_detected :
    ∃ w, run (AuthWorld.step plainAuth) (.init oneUser) exchangeHistory = some w ∧
      .rotated "r0" 1 ∈ w.log ∧
        ¬ ReuseDetected (refresh plainAuth w.state (some "r0") {} 0 "r2") 1 := by
  refine ⟨_, rfl, by decide, fun h => ?_⟩
  have hlive := h.2 1 _ rfl rfl
  revert hlive
  decide

/-- After a logout there is nothing left to revoke. -/
theorem reuse_after_logout :
    ∃ w, run (AuthWorld.step plainAuth) (.init oneUser)
        (exchangeHistory ++ [.logout (some "r1") {} 0]) = some w ∧
      (ReuseDetected (refresh plainAuth w.state (some "r0") {} 0 "r2") 1 ↔
        AllRevoked w.state.db 1) := by
  refine ⟨_, rfl, reuse_detected_iff plainAuth oneUser {t | t ∈ ["r0", "r1"]} (plainLib_injOn _)
    (exchangeHistory ++ [.logout (some "r1") {} 0]) (by decide) _ rfl "r0" 1 (by decide)
    (some "r0") {} rfl 0 "r2"⟩

end GovCrawler
