/-
Which requests the CSRF check covers, `verify_csrf` and `_extract_token` of `cloud/api/deps.py`.

Both decide by the `Authorization` header whether a browser has sent the credentials by itself.
`_extract_token` goes on to the cookie unless the header is a `Bearer` one; `verify_csrf` lets pass
whatever has a header at all.  Between them are the requests with a header of another kind: the
cookie says who is asking, and nothing is checked.
-/
import GovCrawler.Auth.Reuse

namespace GovCrawler

open Relational

/-- `_SAFE_METHODS`. -/
def SAFE_METHODS : List String := ["GET", "HEAD", "OPTIONS"]

/-- `verify_csrf`, of a request with any method. -/
def verifyCsrfOf (method : String) (ctx : RequestContext) : Except HttpError Unit :=
  if SAFE_METHODS.contains method then .ok () else verifyCsrf ctx

/-- The two dependencies of a route. -/
def passGuards (settings : AuthSettings) (db : AuthDb) (method : String) (ctx : RequestContext)
    (now : Time) : Except HttpError CurrentUser :=
  match getCurrentUser settings db ctx now with
  | .error e => .error e
  | .ok user => (verifyCsrfOf method ctx).map fun _ => user

/-- The header is one that `_extract_token` takes the token from. -/
def HasBearer (ctx : RequestContext) : Prop :=
  bearerPrefix.isPrefixOf ctx.authorization.toList = true

/-- The cookie and the header are there, and they are the same. -/
def CsrfMatches (ctx : RequestContext) : Prop :=
  ∃ token, token ≠ "" ∧ ctx.csrfCookie = some token ∧ ctx.csrfHeader = some token

/-- A mutating request with the token of a cookie passes only if the two match. -/
def CsrfCovers (settings : AuthSettings) (db : AuthDb) (method : String) (ctx : RequestContext)
    (now : Time) : Prop :=
  ∀ user, passGuards settings db method ctx now = .ok user → SAFE_METHODS.contains method = false →
    ¬ HasBearer ctx → CsrfMatches ctx

/-- The access cookie is of a user. -/
def CookieAuthenticates (settings : AuthSettings) (db : AuthDb) (ctx : RequestContext)
    (now : Time) : Prop :=
  ∃ token user, ctx.accessCookie = some token ∧ token ≠ "" ∧
    userOfToken settings db token now = .ok user

section Guards

variable {settings : AuthSettings} {db : AuthDb} {method : String} {ctx : RequestContext}
  {now : Time}

theorem given_eq_some_iff {s : Option String} {token : String} :
    given s = some token ↔ s = some token ∧ token ≠ "" := by
  unfold given
  rw [Option.filter_eq_some_iff, decide_eq_true_eq]

theorem verifyCsrf_eq_ok_iff :
    verifyCsrf ctx = .ok () ↔ ctx.authorization ≠ "" ∨ CsrfMatches ctx := by
  unfold verifyCsrf
  by_cases hheader : ctx.authorization ≠ ""
  · rw [if_pos hheader]
    exact iff_of_true rfl (Or.inl hheader)
  · rw [if_neg hheader, or_iff_right hheader]
    have hmatches : ((given ctx.csrfCookie).isSome ∧ given ctx.csrfCookie = given ctx.csrfHeader) ↔
        CsrfMatches ctx := by
      constructor
      · rintro ⟨hsome, heq⟩
        obtain ⟨token, htoken⟩ := Option.isSome_iff_exists.mp hsome
        obtain ⟨hcookie, hne⟩ := given_eq_some_iff.mp htoken
        exact ⟨token, hne, hcookie, (given_eq_some_iff.mp (heq ▸ htoken)).1⟩
      · rintro ⟨token, hne, hcookie, hheader⟩
        rw [given_eq_some_iff.mpr ⟨hcookie, hne⟩, given_eq_some_iff.mpr ⟨hheader, hne⟩]
        exact ⟨rfl, rfl⟩
    split
    · rename_i h
      exact iff_of_true rfl (hmatches.mp h)
    · rename_i h
      exact iff_of_false nofun fun hc => h (hmatches.mpr hc)

theorem verifyCsrfOf_mutating (h : SAFE_METHODS.contains method = false) :
    verifyCsrfOf method ctx = verifyCsrf ctx := by
  unfold verifyCsrfOf
  rw [h]
  rfl

theorem passGuards_eq_ok_iff {user : CurrentUser} :
    passGuards settings db method ctx now = .ok user ↔
      getCurrentUser settings db ctx now = .ok user ∧ verifyCsrfOf method ctx = .ok () := by
  unfold passGuards
  cases getCurrentUser settings db ctx now with
  | error e => exact ⟨nofun, fun h => nomatch h.1⟩
  | ok u =>
      dsimp only
      cases verifyCsrfOf method ctx with
      | error e => exact ⟨nofun, fun h => nomatch h.2⟩
      | ok x => exact ⟨fun h => ⟨h, rfl⟩, fun h => h.1⟩

/-- Without a `Bearer` header, it is the cookie that says who is asking. -/
theorem getCurrentUser_of_cookie (hbearer : ¬ HasBearer ctx) :
    (∃ user, getCurrentUser settings db ctx now = .ok user) ↔
      CookieAuthenticates settings db ctx now := by
  have hextract : extractToken ctx = ctx.accessCookie := if_neg hbearer
  unfold getCurrentUser
  rw [hextract]
  constructor
  · rintro ⟨user, h⟩
    cases hgiven : given ctx.accessCookie with
    | none =>
        rw [hgiven] at h
        cases h
    | some token =>
        rw [hgiven] at h
        obtain ⟨hcookie, hne⟩ := given_eq_some_iff.mp hgiven
        exact ⟨token, user, hcookie, hne, h⟩
  · rintro ⟨token, user, hcookie, hne, h⟩
    rw [given_eq_some_iff.mpr ⟨hcookie, hne⟩]
    exact ⟨user, h⟩

end Guards

/--
**The CSRF check covers a request** exactly if it is safe, has no `Authorization` header or a
`Bearer` one, carries the token twice as it should, or has no cookie that authenticates.
-/
theorem csrf_covers_iff (settings : AuthSettings) (db : AuthDb) (method : String)
    (ctx : RequestContext) (now : Time) :
    CsrfCovers settings db method ctx now ↔
      SAFE_METHODS.contains method = true ∨ ctx.authorization = "" ∨ HasBearer ctx ∨
        CsrfMatches ctx ∨ ¬ CookieAuthenticates settings db ctx now := by
  constructor
  · intro h
    by_contra hnone
    simp only [not_or, not_not, Bool.not_eq_true] at hnone
    obtain ⟨hmethod, hheader, hbearer, hmatches, hcookie⟩ := hnone
    obtain ⟨user, huser⟩ := (getCurrentUser_of_cookie hbearer).mpr hcookie
    have hverify : verifyCsrfOf method ctx = .ok () :=
      (verifyCsrfOf_mutating hmethod).trans (verifyCsrf_eq_ok_iff.mpr (Or.inl hheader))
    exact hmatches (h user (passGuards_eq_ok_iff.mpr ⟨huser, hverify⟩) hmethod hbearer)
  · intro h user hpass hmethod hbearer
    obtain ⟨huser, hverify⟩ := passGuards_eq_ok_iff.mp hpass
    rcases h with hsafe | hheader | hhas | hmatches | hcookie
    · rw [hmethod] at hsafe
      cases hsafe
    · rw [verifyCsrfOf_mutating hmethod] at hverify
      exact (verifyCsrf_eq_ok_iff.mp hverify).resolve_left (not_not.mpr hheader)
    · exact absurd hhas hbearer
    · exact hmatches
    · exact absurd ((getCurrentUser_of_cookie hbearer).mp ⟨user, huser⟩) hcookie

/-- A request of the clerk's browser, with a header that a proxy has asked for. -/
def behindProxy : RequestContext :=
  { authorization := "Basic Y2xlcms6cHJveHk=", accessCookie := some "eyJ" }

/-- Nothing is checked of it. -/
theorem behind_proxy_unchecked : ¬ CsrfCovers plainAuth oneUser "POST" behindProxy 0 := by
  intro h
  obtain ⟨token, -, hcookie, -⟩ := h ⟨1, "clerk@x.org", false, []⟩ rfl (by decide)
    (by unfold HasBearer; decide)
  cases hcookie

end GovCrawler
