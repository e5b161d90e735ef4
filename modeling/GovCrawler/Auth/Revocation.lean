/-
Revocation is complete: what setting a password or deactivating a user takes back, no
later request brings back, and a session that a request has ended stays ended.

An access token dies by its version and a refresh token by its session; `Tokens` has
it that every effect moves the two together.  What is left is to read the routes
backwards, from an accepted token to the rows that made them accept it, and forwards,
from a request that is to end sessions to the rows of those (`revoked_of_ends`).
`Ends` says which sessions these are by the log, not by the rows.
-/
import GovCrawler.Auth.Reuse

namespace GovCrawler

open Relational Transition

/-! ### What an accepted token says about the database -/

section Accepted

variable {settings : AuthSettings} {db : AuthDb}

theorem decodeTokenWithRotation_eq_some {token : String} {now : Time} {payload : JwtPayload}
    (h : decodeTokenWithRotation settings token now = some payload) :
    ∃ key, settings.jwt.decode token key now = some payload := by
  unfold decodeTokenWithRotation at h
  cases hfirst : settings.jwt.decode token settings.config.jwtSecret now with
  | some q =>
      rw [hfirst] at h
      exact ⟨_, hfirst.trans h⟩
  | none =>
      rw [hfirst] at h
      obtain ⟨prev, -, hprev⟩ := Option.bind_eq_some_iff.mp h
      exact ⟨prev, hprev⟩

theorem userOfToken_eq_ok {token : String} {now : Time} {user : CurrentUser}
    (h : userOfToken settings db token now = .ok user) :
    ∃ payload row key, settings.jwt.decode token key now = some payload ∧
      db.getUserById payload.sub = some row ∧ row.isActive = true ∧
        payload.tv = row.tokenVersion ∧ user.id = row.id := by
  unfold userOfToken at h
  cases hd : decodeTokenWithRotation settings token now with
  | none =>
      rw [hd] at h
      cases h
  | some payload =>
      obtain ⟨key, hkey⟩ := decodeTokenWithRotation_eq_some hd
      rw [hd] at h
      dsimp only at h
      by_cases htype : payload.type ≠ "access"
      · rw [if_pos htype] at h
        cases h
      rw [if_neg htype] at h
      cases hrow : db.getUserById payload.sub with
      | none =>
          rw [hrow] at h
          cases h
      | some row =>
          rw [hrow] at h
          dsimp only at h
          by_cases hactive : row.isActive = false
          · rw [if_pos hactive] at h
            cases h
          rw [if_neg hactive] at h
          by_cases hversion : payload.tv ≠ row.tokenVersion
          · rw [if_pos hversion] at h
            cases h
          rw [if_neg hversion] at h
          obtain rfl := Except.ok.inj h
          exact ⟨payload, row, key, hkey, hrow, by simpa using hactive,
            not_not.mp hversion, rfl⟩

theorem refresh_eq_ok {s : AuthState} {refreshToken : Option String} {ctx : RequestContext}
    {now : Time} {fresh token : String} {response : TokenResponse}
    (h : (refresh settings s refreshToken ctx now fresh).1 = .ok response)
    (hpresented : presentedToken refreshToken ctx = some token) :
    ∃ session, session.refreshTokenHash = settings.lib.hashRefreshToken token ∧
      s.db.session? session.id = some session ∧ session.revokedAt = none ∧
        response.user.id = session.userId := by
  unfold refresh at h
  rw [hpresented] at h
  dsimp only at h
  cases hsession : s.db.getSessionByHash (settings.lib.hashRefreshToken token) with
  | none =>
      rw [hsession] at h
      cases h
  | some session =>
      rw [hsession] at h
      dsimp only at h
      obtain ⟨hhash, hrow⟩ := AuthDb.getSessionByHash_spec hsession
      unfold refreshSession at h
      by_cases hrevoked : session.revokedAt.isSome = true
      · rw [if_pos hrevoked] at h
        cases h
      rw [if_neg hrevoked] at h
      by_cases hexpired : session.expiresAt < now
      · rw [if_pos hexpired] at h
        cases h
      rw [if_neg hexpired] at h
      cases huser : s.db.getUserById session.userId with
      | none =>
          rw [huser] at h
          cases h
      | some user =>
          rw [huser] at h
          dsimp only at h
          by_cases hactive : user.isActive = false
          · rw [if_pos hactive] at h
            cases h
          rw [if_neg hactive] at h
          obtain rfl := Except.ok.inj h
          exact ⟨session, hhash, hrow, by simpa using hrevoked, Table.get?_key huser⟩

end Accepted

/-! ### A revoked session stays revoked -/

def Revoked (db : AuthDb) (sessionId : Nat) : Prop :=
  ∃ row, db.session? sessionId = some row ∧ row.revokedAt.isSome = true

section Revoked

variable {settings : AuthSettings} {tokens : Set String} {w w' : AuthWorld}

theorem Revoked.update {db : AuthDb} {sessionId : Nat} (h : Revoked db sessionId)
    (p : UserSession → Bool) (f : UserSession → UserSession) (hf : ∀ s, (f s).id = s.id)
    (hkeep : ∀ s, s.revokedAt.isSome = true → (f s).revokedAt.isSome = true) :
    Revoked (db.updateSessions p f hf) sessionId := by
  obtain ⟨row, hrow, hrevoked⟩ := h
  refine ⟨if p row then f row else row, ?_, ?_⟩
  · rw [AuthDb.session?_updateSessions, hrow, Option.map_some]
  · split
    · exact hkeep row hrevoked
    · exact hrevoked

theorem Revoked.effect {sessionId : Nat} (h : Revoked w.state.db sessionId)
    (heffect : Effect settings tokens w w') : Revoked w'.state.db sessionId := by
  cases heffect with
  | attempts s hs =>
      show Revoked s.db sessionId
      rw [hs]
      exact h
  | account userId f hid hversion => exact h
  | enrol email password fullName isAdmin roleName => exact h
  | grant user row now hrow hversion => exact h
  | opening userId fresh expires userAgent ip hfresh hin =>
      obtain ⟨row, hrow, hrevoked⟩ := h
      have hne : sessionId ≠ w.state.db.userSessions.nextKey :=
        Nat.ne_of_lt (Table.lt_nextKey_of_get? hrow)
      exact ⟨row, (AuthDb.session?_createSession ..).trans ((if_neg hne).trans hrow), hrevoked⟩
  | exchange session token fresh expires now hrow hlive htoken hknown hfresh hin =>
      exact h.update _ _ (by intro _; rfl) (by intro _ hs; exact hs)
  | revoke p now => exact h.update _ _ (by intro _; rfl) (by intro _ _; rfl)
  | void userId f hid hversion now =>
      have h : Revoked (w.state.db.updateUser userId f hid) sessionId := h
      exact h.update _ _ (by intro _; rfl) (by intro _ _; rfl)

theorem Revoked.run {sessionId : Nat} (h : Revoked w.state.db sessionId) {as : List AuthAction}
    (hin : ∀ a ∈ as, ∀ t ∈ a.tokens, t ∈ tokens)
    (hrun : run (AuthWorld.step settings) w as = some w') : Revoked w'.state.db sessionId := by
  have hstep : ∀ u a u', Revoked u.state.db sessionId → (∀ t ∈ AuthAction.tokens a, t ∈ tokens) →
      AuthWorld.step settings u a = some u' → Revoked u'.state.db sessionId := by
    intro u a u' hi hok hs
    have heffects := step_effects hok hs
    clear hs
    induction heffects with
    | refl => exact hi
    | tail _ heffect ih => exact ih.effect heffect
  exact run_invariant hstep h (Meets.of_actions (fun a ha _ => hin a ha) w) hrun

end Revoked

/-! ### Requests that end sessions -/

/-- No two tokens of a session are still to be exchanged. -/
def OneOpen (log : Log) : Prop :=
  ∀ token token' s u u', Entry.refresh token s u ∈ log → Entry.refresh token' s u' ∈ log →
    (∀ v, Entry.rotated token v ∉ log) → (∀ v, Entry.rotated token' v ∉ log) → token = token'

theorem OneOpen.cons {log : Log} (h : OneOpen log) {e : Entry}
    (he : ∀ token s u, e ≠ .refresh token s u) : OneOpen (e :: log) := by
  have hold : ∀ {token s u}, Entry.refresh token s u ∈ e :: log →
      Entry.refresh token s u ∈ log := by
    intro token s u hmem
    rcases List.mem_cons.mp hmem with heq | hmem
    · exact absurd heq.symm (he token s u)
    · exact hmem
  intro token token' s u u' hissued hissued' hkept hkept'
  exact h token token' s u u' (hold hissued) (hold hissued')
    (fun v hv => hkept v (List.mem_cons_of_mem _ hv))
    fun v hv => hkept' v (List.mem_cons_of_mem _ hv)

/-- A token is issued to a session whose other tokens have been exchanged. -/
theorem OneOpen.issue {log : Log} (h : OneOpen log) {fresh : String} {s u : Nat}
    (hothers : ∀ token v, Entry.refresh token s v ∈ log → ∃ v, Entry.rotated token v ∈ log) :
    OneOpen (.refresh fresh s u :: log) := by
  have hclosed : ∀ token v, Entry.refresh token s v ∈ log →
      ¬ ∀ v, Entry.rotated token v ∉ Entry.refresh fresh s u :: log := by
    intro token v hissued hkept
    obtain ⟨v, hv⟩ := hothers token v hissued
    exact hkept v (List.mem_cons_of_mem _ hv)
  intro token token' s' a b hissued hissued' hkept hkept'
  rcases List.mem_cons.mp hissued with heq | hold
  · obtain ⟨rfl, rfl, rfl⟩ := Entry.refresh.inj heq
    rcases List.mem_cons.mp hissued' with heq' | hold'
    · exact (Entry.refresh.inj heq').1.symm
    · exact absurd hkept' (hclosed token' b hold')
  · rcases List.mem_cons.mp hissued' with heq' | hold'
    · obtain ⟨rfl, rfl, rfl⟩ := Entry.refresh.inj heq'
      exact absurd hkept (hclosed token a hold)
    · exact h token token' s' a b hold hold' (fun v hv => hkept v (List.mem_cons_of_mem _ hv))
        fun v hv => hkept' v (List.mem_cons_of_mem _ hv)

section OneOpen

variable {settings : AuthSettings} {tokens : Set String} {w w' : AuthWorld}

theorem OneOpen.effect (h : OneOpen w.log) (hinv : RefreshInv settings tokens w)
    (hhash : Set.InjOn settings.lib.hashRefreshToken tokens)
    (heffect : Effect settings tokens w w') : OneOpen w'.log := by
  cases heffect with
  | attempts s hs => exact h
  | account userId f hid hversion => exact h
  | enrol email password fullName isAdmin roleName => exact h
  | grant user row now hrow hversion => exact h.cons (fun _ _ _ he => nomatch he)
  | opening userId fresh expires userAgent ip hfresh hin =>
      refine h.issue fun token v hissued => ?_
      -- the key of the new session was not taken
      obtain ⟨row, hrow, -⟩ := hinv.owned token _ v hissued
      exact absurd (Table.lt_nextKey_of_get? hrow) (Nat.lt_irrefl _)
  | exchange session token fresh expires now hrow hlive htoken hknown hfresh hin =>
      have hcurrent := hinv.current_of_hash hhash hrow hknown htoken
      have hrotated : OneOpen (.rotated token session.userId :: w.log) :=
        h.cons fun _ _ _ he => nomatch he
      refine hrotated.issue fun token' v hissued => ?_
      have hissued : .refresh token' session.id v ∈ w.log := by simpa using hissued
      by_cases heq : token' = token
      · exact ⟨session.userId, heq ▸ List.mem_cons_self⟩
      · by_contra hkept
        refine heq (h token' token session.id v session.userId hissued hcurrent.issued
          (fun v hv => hkept ⟨v, List.mem_cons_of_mem _ hv⟩) hcurrent.kept)
  | revoke p now => exact h
  | void userId f hid hversion now => exact h.cons (fun _ _ _ he => nomatch he)

theorem OneOpen.run (h : OneOpen w.log) (hinv : TokensInv settings tokens w)
    (hhash : Set.InjOn settings.lib.hashRefreshToken tokens) {as : List AuthAction}
    (hin : ∀ a ∈ as, ∀ t ∈ a.tokens, t ∈ tokens)
    (hrun : run (AuthWorld.step settings) w as = some w') : OneOpen w'.log := by
  have hstep : ∀ u a u', TokensInv settings tokens u ∧ OneOpen u.log →
      (∀ t ∈ AuthAction.tokens a, t ∈ tokens) → AuthWorld.step settings u a = some u' →
        TokensInv settings tokens u' ∧ OneOpen u'.log := by
    intro u a u' hi hok hs
    have heffects := step_effects hok hs
    clear hs
    induction heffects with
    | refl => exact hi
    | tail _ heffect ih =>
        exact ⟨ih.1.effect hhash heffect, ih.2.effect ih.1.refresh hhash heffect⟩
  have hrun := run_invariant hstep ⟨hinv, h⟩ (Meets.of_actions (fun a ha _ => hin a ha) w) hrun
  exact hrun.2

/-- A token of a session that has not been exchanged is the one whose hash its row has. -/
theorem hash_of_open (hinv : RefreshInv settings tokens w) (hopen : OneOpen w.log) {token : String}
    {s u : Nat} (hissued : .refresh token s u ∈ w.log) (hkept : ∀ v, .rotated token v ∉ w.log)
    {row : UserSession} (hrow : w.state.db.session? s = some row) :
    row.refreshTokenHash = settings.lib.hashRefreshToken token := by
  obtain ⟨current, hcurrent⟩ := hinv.current s row hrow
  have hid : row.id = s := AuthDb.session?_id hrow
  obtain rfl : current = token := hopen current token s row.userId u (hid ▸ hcurrent.issued) hissued
    hcurrent.kept hkept
  exact hcurrent.hash_eq

/-- The row that is found by the hash of such a token is the session's. -/
theorem getSessionByHash_of_open (hinv : RefreshInv settings tokens w) (hopen : OneOpen w.log)
    (hhash : Set.InjOn settings.lib.hashRefreshToken tokens) {token : String} {s u : Nat}
    (hissued : .refresh token s u ∈ w.log) (hkept : ∀ v, .rotated token v ∉ w.log) :
    ∃ row, w.state.db.getSessionByHash (settings.lib.hashRefreshToken token) = some row ∧
      w.state.db.session? s = some row ∧ row.userId = u := by
  obtain ⟨row, hrow, huser⟩ := hinv.owned token s u hissued
  cases hfound : w.state.db.getSessionByHash (settings.lib.hashRefreshToken token) with
  | none =>
      have hnone := (Table.first?_eq_none_iff.mp hfound) row (Table.get?_mem hrow)
      rw [hash_of_open hinv hopen hissued hkept hrow, beq_self_eq_true] at hnone
      cases hnone
  | some found =>
      obtain ⟨heq, hget⟩ := AuthDb.getSessionByHash_spec hfound
      have hcurrent := hinv.current_of_hash hhash hget (hinv.known token s u hissued) heq
      obtain rfl := hinv.once token _ _ _ _ hcurrent.issued hissued
      rw [hget] at hrow
      exact ⟨found, rfl, hget, Option.some.inj hrow ▸ huser⟩

/-- The request, made in `w`, is to end the session. -/
inductive Ends (settings : AuthSettings) (tokens : Set String) (w : AuthWorld) (sessionId : Nat) :
    AuthAction → Prop
  /-- It logs out with the session's last token. -/
  | logout {refreshToken : Option String} {ctx : RequestContext} {now : Time} {token : String}
      {userId : Nat} (hpresented : presentedToken refreshToken ctx = some token)
      (hissued : .refresh token sessionId userId ∈ w.log)
      (hkept : ∀ u, .rotated token u ∉ w.log) :
      Ends settings tokens w sessionId (.logout refreshToken ctx now)
  /-- The user is told that the session has been revoked. -/
  | revokeSession {ctx : RequestContext} {now : Time} {message : String}
      (hok : (revokeSessionRoute settings w.state sessionId ctx now).1 = .ok message) :
      Ends settings tokens w sessionId (.revokeSession sessionId ctx now)
  /-- The user is told that the others have been, and comes with the last token of another. -/
  | revokeOthers {ctx : RequestContext} {now : Time} {message token : String} {user : CurrentUser}
      (hok : (revokeOtherSessions settings w.state ctx now).1 = .ok message)
      (huser : getCurrentUser settings w.state.db ctx now = .ok user)
      (hissued : .refresh token sessionId user.id ∈ w.log)
      (hother : ∀ cookie, given ctx.refreshCookie = some cookie → cookie ∈ tokens ∧
        ∀ u, .refresh cookie sessionId u ∈ w.log → ∃ v, .rotated cookie v ∈ w.log) :
      Ends settings tokens w sessionId (.revokeOthers ctx now)
  /-- The password of its user is set. -/
  | setPassword {userId : Nat} {password token : String} {now : Time}
      (hok : (w.state.db.setPassword settings.lib userId password now).1 = true)
      (hissued : .refresh token sessionId userId ∈ w.log) :
      Ends settings tokens w sessionId (.setPassword userId password now)
  /-- Its user is deactivated. -/
  | deactivate {userId : Nat} {token : String} {now : Time}
      (hok : (w.state.db.setUserActive userId false now).1 = true)
      (hissued : .refresh token sessionId userId ∈ w.log) :
      Ends settings tokens w sessionId (.setUserActive userId false now)
  /-- The last token of a revoked session of its user is presented. -/
  | reuse {refreshToken : Option String} {ctx : RequestContext} {now : Time}
      {fresh presented token : String} {revokedId userId : Nat}
      (hpresented : presentedToken refreshToken ctx = some presented)
      (hstolen : .refresh presented revokedId userId ∈ w.log)
      (hkept : ∀ u, .rotated presented u ∉ w.log) (hrevoked : Revoked w.state.db revokedId)
      (hissued : .refresh token sessionId userId ∈ w.log) :
      Ends settings tokens w sessionId (.refresh refreshToken ctx now fresh)

theorem revoked_revokeWhere {db : AuthDb} {p : UserSession → Bool} {now : Time} {sessionId : Nat}
    {row : UserSession} (hrow : db.session? sessionId = some row)
    (hp : p row = true ∨ row.revokedAt.isSome = true) :
    Revoked (db.revokeWhere p now) sessionId := by
  refine ⟨_, (db.session?_revokeWhere p now sessionId).trans (congrArg _ hrow), ?_⟩
  dsimp only
  split
  · rfl
  · rename_i hnot
    exact hp.resolve_left hnot

/-- No session of the user but the one that is kept stays live. -/
theorem revoked_except {db : AuthDb} {userId : Nat} {keep : Option Nat} {now : Time}
    {sessionId : Nat} {row : UserSession} (hrow : db.session? sessionId = some row)
    (huser : row.userId = userId)
    (hkeep : keep ≠ some sessionId) :
    Revoked (db.revokeSessionsExcept userId keep now).2 sessionId := by
  refine revoked_revokeWhere hrow ?_
  have hid : row.id = sessionId := AuthDb.session?_id hrow
  cases hrevoked : row.revokedAt with
  | some t => exact Or.inr rfl
  | none =>
      left
      unfold AuthDb.liveExcept
      rw [huser, hrevoked, hid, beq_self_eq_true]
      cases keep with
      | none => rfl
      | some k => exact bne_iff_ne.mpr fun heq => hkeep (congrArg some heq.symm)

/-- **The request ends it.** -/
theorem revoked_of_ends (hinv : TokensInv settings tokens w) (hopen : OneOpen w.log)
    (hhash : Set.InjOn settings.lib.hashRefreshToken tokens) {sessionId : Nat} {a : AuthAction}
    (hends : Ends settings tokens w sessionId a) (hs : w.step settings a = some w') :
    Revoked w'.state.db sessionId := by
  cases hends with
  | logout hpresented hissued hkept =>
      obtain ⟨row, hfound, hrow, -⟩ :=
        getSessionByHash_of_open hinv.refresh hopen hhash hissued hkept
      obtain rfl := Option.some.inj hs
      unfold logout
      rw [hpresented]
      dsimp only
      rw [hfound]
      exact revoked_revokeWhere hrow (Or.inl (beq_iff_eq.mpr rfl))
  | revokeSession hok =>
      obtain rfl := Option.some.inj hs
      unfold revokeSessionRoute at hok ⊢
      split at hok
      · cases hok
      · cases hok
      · split at hok
        · cases hok
        · rename_i session hsession
          split at hok
          · cases hok
          · rename_i hsame
            rw [if_neg hsame]
            exact revoked_revokeWhere hsession
              (Or.inl (beq_iff_eq.mpr (AuthDb.session?_id hsession)))
  | revokeOthers hok huser hissued hother =>
      rename_i ctx now message token user
      obtain rfl := Option.some.inj hs
      obtain ⟨row, hrow, howner⟩ := hinv.refresh.owned _ _ _ hissued
      have hkeep : currentSessionId settings w.state.db ctx ≠ some sessionId := by
        intro hcurrent
        obtain ⟨cookie, hcookie, hmap⟩ := Option.bind_eq_some_iff.mp hcurrent
        obtain ⟨found, hfound, hid⟩ := Option.map_eq_some_iff.mp hmap
        obtain ⟨hin, hexchanged⟩ := hother cookie hcookie
        obtain ⟨heq, hget⟩ := AuthDb.getSessionByHash_spec hfound
        have hcurrent := hinv.refresh.current_of_hash hhash hget hin heq
        obtain ⟨v, hv⟩ := hexchanged found.userId (hid ▸ hcurrent.issued)
        exact hcurrent.kept v hv
      unfold revokeOtherSessions at hok ⊢
      rw [huser] at hok ⊢
      split at hok
      · cases hok
      · cases hok
      · rename_i hcurrent
        obtain rfl := Except.ok.inj hcurrent
        exact revoked_except hrow howner hkeep
  | setPassword hok hissued =>
      obtain rfl := Option.some.inj hs
      obtain ⟨row, hrow, howner⟩ := hinv.refresh.owned _ _ _ hissued
      unfold AuthDb.setPassword at hok ⊢
      split at hok
      · cases hok
      · exact revoked_except hrow howner nofun
  | deactivate hok hissued =>
      obtain rfl := Option.some.inj hs
      obtain ⟨row, hrow, howner⟩ := hinv.refresh.owned _ _ _ hissued
      unfold AuthDb.setUserActive at hok ⊢
      split at hok
      · cases hok
      · exact revoked_except hrow howner nofun
  | reuse hpresented hstolen hkept hrevoked hissued =>
      obtain ⟨found, hfound, hget, hthief⟩ :=
        getSessionByHash_of_open hinv.refresh hopen hhash hstolen hkept
      obtain ⟨row, hrow, howner⟩ := hinv.refresh.owned _ _ _ hissued
      obtain ⟨revoked, hrow', hsome⟩ := hrevoked
      rw [hget] at hrow'
      obtain rfl := Option.some.inj hrow'
      simp only [AuthWorld.step] at hs
      split at hs
      · cases hs
      · obtain rfl := Option.some.inj hs
        unfold refresh
        rw [hpresented]
        dsimp only
        rw [hfound]
        dsimp only
        unfold refreshSession
        rw [if_pos hsome]
        exact revoked_except hrow (howner.trans hthief.symm) nofun

end OneOpen

/-! ### Completeness -/

/-- An issued access token that is accepted was issued to this user, and nothing was
voided for the user since. -/
def AccessSound (settings : AuthSettings) (w : AuthWorld) : Prop :=
  ∀ ctx now user token userId, getCurrentUser settings w.state.db ctx now = .ok user →
    given (extractToken ctx) = some token → .access token userId ∈ w.log →
      userId = user.id ∧ SinceVoided w.log (.access token userId) user.id

/-- A refresh token that is accepted was issued to this user, and nothing was voided for
the user since. -/
def RefreshSound (settings : AuthSettings) (tokens : Set String) (w : AuthWorld) : Prop :=
  ∀ refreshToken ctx now fresh response token,
    (refresh settings w.state refreshToken ctx now fresh).1 = .ok response →
      presentedToken refreshToken ctx = some token → token ∈ tokens →
        ∃ sessionId, .refresh token sessionId response.user.id ∈ w.log ∧
          SinceVoided w.log (.refresh token sessionId response.user.id) response.user.id

/-- No token that was ever issued to the session is accepted. -/
def RefusedForGood (settings : AuthSettings) (w : AuthWorld) (sessionId : Nat) : Prop :=
  ∀ token userId, .refresh token sessionId userId ∈ w.log →
    ∀ refreshToken ctx now fresh response, presentedToken refreshToken ctx = some token →
      (refresh settings w.state refreshToken ctx now fresh).1 ≠ .ok response

section Completeness

variable {settings : AuthSettings} {tokens : Set String} {w : AuthWorld}

theorem TokensInv.accessSound (hinv : TokensInv settings tokens w)
    (hjwt : settings.jwt.Faithful) : AccessSound settings w := by
  intro ctx now user token userId hok htoken hissued
  unfold getCurrentUser at hok
  rw [htoken] at hok
  obtain ⟨payload, row, key, hdecode, hrow, -, hversion, hid⟩ := userOfToken_eq_ok hok
  have haccount : ∀ newer older, w.log = newer ++ .access token userId :: older →
      userId = user.id ∧ newer.count (.voided userId) = 0 := by
    intro newer older hsplit
    obtain ⟨signed, key', row', rfl, hsub, hrow', htv⟩ :=
      hinv.access newer older token userId hsplit
    obtain rfl := hjwt signed key' key now payload hdecode
    rw [hsub, hrow'] at hrow
    obtain rfl := Option.some.inj hrow
    have hkey : row'.id = userId := Table.get?_key hrow'
    exact ⟨by rw [hid, hkey], by omega⟩
  obtain ⟨newer, older, hsplit⟩ := List.append_of_mem hissued
  obtain ⟨rfl, -⟩ := haccount newer older hsplit
  exact ⟨rfl, fun newer older hsplit => List.count_eq_zero.mp (haccount newer older hsplit).2⟩

theorem TokensInv.refreshSound (hinv : TokensInv settings tokens w)
    (hhash : Set.InjOn settings.lib.hashRefreshToken tokens) : RefreshSound settings tokens w := by
  intro refreshToken ctx now fresh response token hok hpresented hin
  obtain ⟨session, heq, hrow, hlive, hid⟩ := refresh_eq_ok hok hpresented
  have hcurrent := hinv.refresh.current_of_hash hhash hrow hin heq
  rw [hid]
  exact ⟨session.id, hcurrent.issued, hcurrent.since hlive⟩

theorem refusedForGood_of_revoked (hinv : TokensInv settings tokens w)
    (hhash : Set.InjOn settings.lib.hashRefreshToken tokens) {sessionId : Nat}
    (hrevoked : Revoked w.state.db sessionId) : RefusedForGood settings w sessionId := by
  intro token userId hissued refreshToken ctx now fresh response hpresented hok
  obtain ⟨session, heq, hrow, hlive, -⟩ := refresh_eq_ok hok hpresented
  have hcurrent := hinv.refresh.current_of_hash hhash hrow
    (hinv.refresh.known token _ _ hissued) heq
  -- the token was issued to one session only, and that one is revoked
  obtain rfl := hinv.refresh.once token _ _ _ _ hcurrent.issued hissued
  obtain ⟨row, hrow', hsome⟩ := hrevoked
  rw [hrow] at hrow'
  obtain rfl := Option.some.inj hrow'
  rw [hlive] at hsome
  cases hsome

end Completeness

/--
**Revocation is complete.**  In every history, an accepted token was issued after the
last time its user's password was set or the user deactivated; no token of a session that
has been revoked is accepted from then on; and a session has been revoked once a request
was served that was to end it, by a logout, alone or with others, or with its user.
-/
theorem revocation_complete (settings : AuthSettings) (db : AuthDb) (tokens : Set String)
    (hjwt : settings.jwt.Faithful)
    (hhash : Set.InjOn settings.lib.hashRefreshToken tokens) (as bs : List AuthAction)
    (hin : ∀ a ∈ as ++ bs, ∀ t ∈ a.tokens, t ∈ tokens) (w w' : AuthWorld)
    (hrun : run (AuthWorld.step settings) (.init db) as = some w)
    (hlater : run (AuthWorld.step settings) w bs = some w') :
    AccessSound settings w ∧ RefreshSound settings tokens w ∧
      (∀ sessionId, Revoked w.state.db sessionId → RefusedForGood settings w' sessionId) ∧
        ∀ a cs, bs = a :: cs → ∀ sessionId, Ends settings tokens w sessionId a →
          RefusedForGood settings w' sessionId := by
  have has : ∀ a ∈ as, ∀ t ∈ a.tokens, t ∈ tokens :=
    fun a ha => hin a (List.mem_append_left _ ha)
  have hbs : ∀ a ∈ bs, ∀ t ∈ a.tokens, t ∈ tokens :=
    fun a ha => hin a (List.mem_append_right _ ha)
  have hinv : TokensInv settings tokens w := (TokensInv.init db).run hhash has hrun
  have hopen : OneOpen w.log := OneOpen.run (fun _ _ _ _ _ h => absurd h List.not_mem_nil)
    (TokensInv.init db) hhash has hrun
  have hinv' : TokensInv settings tokens w' := hinv.run hhash hbs hlater
  refine ⟨hinv.accessSound hjwt, hinv.refreshSound hhash, fun sessionId hrevoked => ?_, ?_⟩
  · exact refusedForGood_of_revoked hinv' hhash (hrevoked.run hbs hlater)
  · rintro a cs rfl sessionId hends
    obtain ⟨v, hs, hcs⟩ := run_cons_eq_some.mp hlater
    have hrevoked : Revoked v.state.db sessionId := revoked_of_ends hinv hopen hhash hends hs
    exact refusedForGood_of_revoked hinv' hhash
      (hrevoked.run (fun a ha => hbs a (List.mem_cons_of_mem _ ha)) hcs)

/-- The two access tokens that are signed below decode until they expire. -/
def clerkJwt : Jwt where
  encode := fun payload _ =>
    if payload = ⟨1, 0, "access", 0, 900⟩ then "eyJ"
    else if payload = ⟨1, 1, "access", 0, 900⟩ then "eyK" else ""
  decode := fun token key now =>
    if key = "secret" ∧ now < seconds 900 then
      if token = "eyJ" then some ⟨1, 0, "access", 0, 900⟩
      else if token = "eyK" then some ⟨1, 1, "access", 0, 900⟩ else none
    else none

theorem clerkJwt_faithful : clerkJwt.Faithful := by
  intro payload key key' now q h
  unfold clerkJwt at h
  dsimp only at h
  split at h
  · split at h
    · rename_i hpayload
      rw [if_pos rfl] at h
      exact (Option.some.inj h).symm.trans hpayload.symm
    · split at h
      · rename_i hpayload
        rw [if_neg (by decide), if_pos rfl] at h
        exact (Option.some.inj h).symm.trans hpayload.symm
      · cases h
  · cases h

def clerkAuth : AuthSettings := { plainAuth with jwt := clerkJwt }

/-- The clerk logs out, gets a new password, and logs in on two devices. -/
def clerkHistory : List AuthAction :=
  [clerkLogin "r0", .logout (some "r0") {} 0, .setPassword 1 "correct horse" 0, clerkLogin "r1",
    clerkLogin "r2"]

/-- From the second, the first is ended. -/
def clerkRevokesOthers : AuthAction :=
  .revokeOthers { authorization := "Bearer eyK", refreshCookie := some "r2" } 0

/-- The tokens of after the new password are accepted; those of the session that was logged out of
are not any more, nor are those of the session that is ended. -/
theorem clerk_revokes_others :
    ∃ w w' user, run (AuthWorld.step clerkAuth) (.init oneUser) clerkHistory = some w ∧
      run (AuthWorld.step clerkAuth) w [clerkRevokesOthers, .refresh (some "r2") {} 0 "r3"] =
        some w' ∧
      .voided 1 ∈ w.log ∧ Revoked w.state.db 1 ∧
      getCurrentUser clerkAuth w.state.db { authorization := "Bearer eyK" } 0 = .ok user ∧
        AccessSound clerkAuth w ∧ RefreshSound clerkAuth {t | t ∈ ["r0", "r1", "r2", "r3"]} w ∧
          RefusedForGood clerkAuth w' 1 ∧ RefusedForGood clerkAuth w' 2 ∧
            .refresh "r0" 1 1 ∈ w'.log ∧ .refresh "r1" 2 1 ∈ w'.log := by
  refine ⟨_, _, _, rfl, rfl, by decide, ⟨_, rfl, rfl⟩, rfl, ?_⟩
  obtain ⟨haccess, hrefresh, hrevoked, hended⟩ := revocation_complete clerkAuth oneUser
    {t | t ∈ ["r0", "r1", "r2", "r3"]} clerkJwt_faithful (plainLib_injOn _) clerkHistory
    [clerkRevokesOthers, .refresh (some "r2") {} 0 "r3"] (by decide) _ _ rfl rfl
  refine ⟨haccess, hrefresh, hrevoked 1 ⟨_, rfl, rfl⟩, hended clerkRevokesOthers _ rfl 2 ?_,
    by decide, by decide⟩
  refine .revokeOthers rfl rfl (show Entry.refresh "r1" 2 _ ∈ _ by decide) fun cookie hcookie => ?_
  obtain rfl : "r2" = cookie := Option.some.inj hcookie
  have hlog : ∀ u, Entry.refresh "r2" 2 u ∉ [Entry.refresh "r2" 3 1, .access "eyK" 1,
      .refresh "r1" 2 1, .access "eyK" 1, .voided 1, .refresh "r0" 1 1, .access "eyJ" 1] := by
    simp
  exact ⟨by decide, fun u hissued => absurd hissued (hlog u)⟩

end GovCrawler
