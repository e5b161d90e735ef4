/-
What every effect keeps, and so every history.

`RefreshInv` is about refresh tokens: each session has exactly one current token, the
last one issued to it, which was never exchanged; and as long as the session is not
revoked, nothing was voided for its user since that token was issued.  `AccessInv` is
about access tokens: the version in a token plus the number of times its user was
voided since is the user's version now.

Together they say that the two mechanisms of revocation move in step.
-/
import GovCrawler.Auth.Ledger

namespace GovCrawler

open Relational Transition

/-! ### Refresh tokens -/

/-- `token` is the session's current refresh token. -/
structure Current (hash : String → String) (log : Log) (row : UserSession) (token : String) :
    Prop where
  issued : Entry.refresh token row.id row.userId ∈ log
  hash_eq : row.refreshTokenHash = hash token
  kept : ∀ u, Entry.rotated token u ∉ log
  since : row.revokedAt = none →
    SinceVoided log (.refresh token row.id row.userId) row.userId

/-- No token was issued to two sessions. -/
def OnceEach (log : Log) : Prop :=
  ∀ token s u s' u', Entry.refresh token s u ∈ log → Entry.refresh token s' u' ∈ log → s = s'

structure RefreshInv (settings : AuthSettings) (tokens : Set String) (w : AuthWorld) : Prop where
  known : ∀ token s u, Entry.refresh token s u ∈ w.log → token ∈ tokens
  once : OnceEach w.log
  owned : ∀ token s u, Entry.refresh token s u ∈ w.log →
    ∃ row, w.state.db.session? s = some row ∧ row.userId = u
  current : ∀ s row, w.state.db.session? s = some row →
    ∃ token, Current settings.lib.hashRefreshToken w.log row token
  exchanged : ∀ token u, Entry.rotated token u ∈ w.log → ∃ s, Entry.refresh token s u ∈ w.log

theorem Current.cons {hash : String → String} {log : Log} {row : UserSession} {token : String}
    (h : Current hash log row token) {e : Entry} (hrotated : ∀ u, e ≠ .rotated token u)
    (hvoided : row.revokedAt = none → e ≠ .voided row.userId) : Current hash (e :: log) row token where
  issued := List.mem_cons_of_mem _ h.issued
  hash_eq := h.hash_eq
  kept := by
    intro u hu
    rcases List.mem_cons.mp hu with heq | hold
    · exact hrotated u heq.symm
    · exact h.kept u hold
  since := fun hlive => (h.since hlive).cons (hvoided hlive)

/-- A token that has just been drawn is current for the session it is issued to. -/
theorem Current.new {hash : String → String} {log : Log} {row : UserSession} {token : String}
    {s u : Nat} (hfresh : GovCrawler.issued log token = false) (hs : row.id = s)
    (hu : row.userId = u) (hhash : row.refreshTokenHash = hash token)
    (hexchanged : ∀ t u, Entry.rotated t u ∈ log → ∃ s, Entry.refresh t s u ∈ log) :
    Current hash (.refresh token s u :: log) row token where
  issued := by
    rw [hs, hu]
    exact List.mem_cons_self ..
  hash_eq := hhash
  kept := by
    intro u hu
    rcases List.mem_cons.mp hu with heq | hold
    · cases heq
    · obtain ⟨s, hs⟩ := hexchanged token u hold
      rw [issued_of_mem hs] at hfresh
      cases hfresh
  since := by
    intro _
    rw [hs, hu]
    refine SinceVoided.new fun hmem => ?_
    rw [issued_of_mem hmem] at hfresh
    cases hfresh

theorem OnceEach.cons {log : Log} {token : String} (h : OnceEach log)
    (hfresh : issued log token = false) (s u : Nat) : OnceEach (.refresh token s u :: log) := by
  have hnot : ∀ s' u', Entry.refresh token s' u' ∉ log := by
    intro s' u' hmem
    rw [issued_of_mem hmem] at hfresh
    cases hfresh
  intro t a x b y ha hb
  rcases List.mem_cons.mp ha with heqa | holda
  · obtain ⟨rfl, rfl, rfl⟩ := Entry.refresh.inj heqa
    rcases List.mem_cons.mp hb with heqb | holdb
    · exact (Entry.refresh.inj heqb).2.1.symm
    · exact absurd holdb (hnot b y)
  · rcases List.mem_cons.mp hb with heqb | holdb
    · obtain ⟨rfl, rfl, rfl⟩ := Entry.refresh.inj heqb
      exact absurd holda (hnot a x)
    · exact h t a x b y holda holdb

section RefreshInv

variable {settings : AuthSettings} {tokens : Set String} {w w' : AuthWorld}

/-- A token that fits a session's hash is the session's current one. -/
theorem RefreshInv.current_of_hash (hinv : RefreshInv settings tokens w)
    (hhash : Set.InjOn settings.lib.hashRefreshToken tokens) {s : Nat} {row : UserSession}
    (hrow : w.state.db.session? s = some row) {token : String} (hin : token ∈ tokens)
    (heq : row.refreshTokenHash = settings.lib.hashRefreshToken token) :
    Current settings.lib.hashRefreshToken w.log row token := by
  obtain ⟨t, ht⟩ := hinv.current s row hrow
  have hsame : t = token :=
    hhash (hinv.known t _ _ ht.issued) hin (ht.hash_eq.symm.trans heq)
  rw [← hsame]
  exact ht

/-- The sessions are as before, and nothing was logged but access tokens. -/
theorem RefreshInv.keep (hinv : RefreshInv settings tokens w)
    (hsessions : ∀ k, w'.state.db.session? k = w.state.db.session? k)
    (hlog : w'.log = w.log ∨ ∃ t u, w'.log = .access t u :: w.log) :
    RefreshInv settings tokens w' := by
  have hrefresh : ∀ t s u, Entry.refresh t s u ∈ w'.log ↔ Entry.refresh t s u ∈ w.log := by
    intro t s u
    rcases hlog with h | ⟨t', u', h⟩ <;> simp [h]
  have hrotated : ∀ t u, Entry.rotated t u ∈ w'.log ↔ Entry.rotated t u ∈ w.log := by
    intro t u
    rcases hlog with h | ⟨t', u', h⟩ <;> simp [h]
  refine ⟨fun t s u h => hinv.known t s u ((hrefresh t s u).mp h), fun t a x b y ha hb => ?_,
    fun t s u h => ?_, fun s row hrow => ?_, fun t u h => ?_⟩
  · exact hinv.once t a x b y ((hrefresh t a x).mp ha) ((hrefresh t b y).mp hb)
  · rw [hsessions]
    exact hinv.owned t s u ((hrefresh t s u).mp h)
  · rw [hsessions] at hrow
    obtain ⟨token, hc⟩ := hinv.current s row hrow
    refine ⟨token, ?_⟩
    rcases hlog with h | ⟨t', u', h⟩
    · rw [h]
      exact hc
    · rw [h]
      exact hc.cons (fun _ he => nomatch he) fun _ he => nomatch he
  · obtain ⟨s, hs⟩ := hinv.exchanged t u ((hrotated t u).mp h)
    exact ⟨s, (hrefresh t s u).mpr hs⟩

theorem RefreshInv.opening (hinv : RefreshInv settings tokens w) {userId : Nat} {fresh : String}
    (expires : Time) (userAgent ip : Option String) (hfresh : issued w.log fresh = false)
    (hin : fresh ∈ tokens) :
    RefreshInv settings tokens
      { w.setDb (w.state.db.createSession userId (settings.lib.hashRefreshToken fresh) expires
          userAgent ip) with
        log := .refresh fresh w.state.db.userSessions.nextKey userId :: w.log } := by
  have hsession := w.state.db.session?_createSession userId
    (settings.lib.hashRefreshToken fresh) expires userAgent ip
  refine ⟨fun t s u h => ?_, hinv.once.cons hfresh _ _, fun t s u h => ?_, fun s row hrow => ?_,
    fun t u h => ?_⟩
  · rcases List.mem_cons.mp h with heq | hold
    · obtain ⟨rfl, -, -⟩ := Entry.refresh.inj heq
      exact hin
    · exact hinv.known t s u hold
  · rcases List.mem_cons.mp h with heq | hold
    · obtain ⟨rfl, rfl, rfl⟩ := Entry.refresh.inj heq
      exact ⟨_, (hsession _).trans (if_pos rfl), rfl⟩
    · obtain ⟨row, hrow, hu⟩ := hinv.owned t s u hold
      have hne : s ≠ w.state.db.userSessions.nextKey :=
        Nat.ne_of_lt (Table.lt_nextKey_of_get? hrow)
      exact ⟨row, (hsession s).trans ((if_neg hne).trans hrow), hu⟩
  · have hrow : (if s = w.state.db.userSessions.nextKey then _ else w.state.db.session? s) =
        some row := (hsession s).symm.trans hrow
    by_cases hs : s = w.state.db.userSessions.nextKey
    · rw [if_pos hs] at hrow
      obtain rfl := Option.some.inj hrow
      subst hs
      exact ⟨fresh, Current.new hfresh rfl rfl rfl hinv.exchanged⟩
    · rw [if_neg hs] at hrow
      obtain ⟨token, hc⟩ := hinv.current s row hrow
      exact ⟨token, hc.cons (fun _ he => nomatch he) fun _ he => nomatch he⟩
  · rcases List.mem_cons.mp h with heq | hold
    · cases heq
    · obtain ⟨s, hs⟩ := hinv.exchanged t u hold
      exact ⟨s, List.mem_cons_of_mem _ hs⟩

/-- Other sessions' tokens are not the one that is exchanged, since no token is
issued twice. -/
theorem RefreshInv.exchange (hinv : RefreshInv settings tokens w)
    (hhash : Set.InjOn settings.lib.hashRefreshToken tokens) {session : UserSession}
    {token fresh : String} (expires now : Time)
    (hrow : w.state.db.session? session.id = some session)
    (htoken : session.refreshTokenHash = settings.lib.hashRefreshToken token)
    (hknown : token ∈ tokens) (hfresh : issued w.log fresh = false) (hin : fresh ∈ tokens) :
    RefreshInv settings tokens
      { w.setDb (w.state.db.rotateSession session.id (settings.lib.hashRefreshToken fresh)
          expires now) with
        log := .refresh fresh session.id session.userId :: .rotated token session.userId ::
          w.log } := by
  have hcurrent := hinv.current_of_hash hhash hrow hknown htoken
  have hsession := w.state.db.session?_rotateSession session.id
    (settings.lib.hashRefreshToken fresh) expires now
  have hold : ∀ {t s u}, Entry.refresh t s u ∈ Entry.refresh fresh session.id session.userId ::
      .rotated token session.userId :: w.log → t = fresh ∧ s = session.id ∧ u = session.userId ∨
        Entry.refresh t s u ∈ w.log := by
    intro t s u h
    rcases List.mem_cons.mp h with heq | h
    · exact Or.inl (Entry.refresh.inj heq)
    · rcases List.mem_cons.mp h with heq | h
      · cases heq
      · exact Or.inr h
  have hexchanged : ∀ t u, Entry.rotated t u ∈ .rotated token session.userId :: w.log →
      ∃ s, Entry.refresh t s u ∈ .rotated token session.userId :: w.log := by
    intro t u h
    rcases List.mem_cons.mp h with heq | h
    · obtain ⟨rfl, rfl⟩ := Entry.rotated.inj heq
      exact ⟨_, List.mem_cons_of_mem _ hcurrent.issued⟩
    · obtain ⟨s, hs⟩ := hinv.exchanged t u h
      exact ⟨s, List.mem_cons_of_mem _ hs⟩
  refine ⟨fun t s u h => ?_, ?_, fun t s u h => ?_, fun s row hs => ?_, fun t u h => ?_⟩
  · rcases hold h with ⟨rfl, -, -⟩ | h
    · exact hin
    · exact hinv.known t s u h
  · refine OnceEach.cons (fun t a x b y ha hb => ?_) (by simpa [issued] using hfresh) _ _
    exact hinv.once t a x b y (by simpa using ha) (by simpa using hb)
  · have hkeep : ∃ row, w.state.db.session? s = some row ∧ row.userId = u := by
      rcases hold h with ⟨-, rfl, rfl⟩ | h
      · exact ⟨session, hrow, rfl⟩
      · exact hinv.owned t s u h
    obtain ⟨row, hs, hu⟩ := hkeep
    refine ⟨_, (hsession s).trans (congrArg _ hs), ?_⟩
    dsimp only
    split <;> exact hu
  · obtain ⟨old, holdrow, rfl⟩ := Option.map_eq_some_iff.mp ((hsession s).symm.trans hs)
    by_cases hsame : old.id = session.id
    · refine ⟨fresh, ?_⟩
      obtain rfl : old = session := by
        rw [AuthDb.session?_id holdrow] at hsame
        rw [hsame, hrow] at holdrow
        exact (Option.some.inj holdrow).symm
      rw [if_pos (beq_self_eq_true _)]
      exact Current.new (by simpa [issued] using hfresh) rfl rfl rfl hexchanged
    · rw [if_neg (by simpa using hsame)]
      obtain ⟨t, hc⟩ := hinv.current s old holdrow
      have hrotated : Current settings.lib.hashRefreshToken
          (.rotated token session.userId :: w.log) old t := by
        refine hc.cons (fun u he => ?_) fun _ he => nomatch he
        obtain ⟨rfl, -⟩ := Entry.rotated.inj he
        exact hsame (hinv.once _ _ _ _ _ hc.issued hcurrent.issued)
      exact ⟨t, hrotated.cons (fun _ he => nomatch he) fun _ he => nomatch he⟩
  · obtain ⟨s, hs⟩ := hexchanged t u (by simpa using h)
    exact ⟨s, List.mem_cons_of_mem _ hs⟩

/-- Revoking takes nothing back: a revoked session has nothing left to promise. -/
theorem RefreshInv.revoke (hinv : RefreshInv settings tokens w) (p : UserSession → Bool)
    (now : Time) : RefreshInv settings tokens (w.setDb (w.state.db.revokeWhere p now)) := by
  have hsession := w.state.db.session?_revokeWhere p now
  refine ⟨hinv.known, hinv.once, fun t s u h => ?_, fun s row hs => ?_, hinv.exchanged⟩
  · obtain ⟨row, hrow, hu⟩ := hinv.owned t s u h
    refine ⟨_, (hsession s).trans (congrArg _ hrow), ?_⟩
    dsimp only
    split <;> exact hu
  · obtain ⟨old, hold, rfl⟩ := Option.map_eq_some_iff.mp ((hsession s).symm.trans hs)
    obtain ⟨t, hc⟩ := hinv.current s old hold
    refine ⟨t, ?_⟩
    by_cases hp : p old = true
    · rw [if_pos hp]
      exact ⟨hc.issued, hc.hash_eq, hc.kept, fun h => nomatch h⟩
    · rw [if_neg hp]
      exact hc

/-- Voiding a user leaves no session of the user live. -/
theorem RefreshInv.void (hinv : RefreshInv settings tokens w) (userId : Nat) (f : User → User)
    (hid : ∀ u, (f u).id = u.id) (now : Time) :
    RefreshInv settings tokens
      { w.setDb ((w.state.db.updateUser userId f hid).revokeSessionFamily userId now) with
        log := .voided userId :: w.log } := by
  have hrevoked := hinv.revoke (AuthDb.liveExcept userId none) now
  have hsession := w.state.db.session?_revokeWhere (AuthDb.liveExcept userId none) now
  have hold : ∀ {t s u}, Entry.refresh t s u ∈ Entry.voided userId :: w.log →
      Entry.refresh t s u ∈ w.log := by
    intro t s u h
    simpa using h
  refine ⟨fun t s u h => hinv.known t s u (hold h), fun t a x b y ha hb => ?_,
    fun t s u h => hrevoked.owned t s u (hold h), fun s row hs => ?_, fun t u h => ?_⟩
  · exact hinv.once t a x b y (hold ha) (hold hb)
  · obtain ⟨t, hc⟩ := hrevoked.current s row hs
    refine ⟨t, hc.cons (fun _ he => nomatch he) fun hlive he => ?_⟩
    -- a live row of the voided user would have been revoked
    obtain ⟨old, -, rfl⟩ := Option.map_eq_some_iff.mp ((hsession s).symm.trans hs)
    by_cases hp : AuthDb.liveExcept userId none old = true
    · rw [if_pos hp] at hlive
      cases hlive
    · rw [if_neg hp] at hlive he
      refine hp ?_
      simp [AuthDb.liveExcept, hlive, (Entry.voided.inj he).symm]
  · obtain ⟨s, hs⟩ := hinv.exchanged t u (by simpa using h)
    exact ⟨s, List.mem_cons_of_mem _ hs⟩

end RefreshInv

/-! ### Access tokens -/

/-- Wherever an access token was issued, its version and the voidings of its user since
add up to the user's version. -/
def AccessInv (settings : AuthSettings) (w : AuthWorld) : Prop :=
  ∀ newer older token u, w.log = newer ++ .access token u :: older →
    ∃ payload key row, token = settings.jwt.encode payload key ∧ payload.sub = u ∧
      w.state.db.getUserById u = some row ∧
        payload.tv + newer.count (.voided u) = row.tokenVersion

section AccessInv

variable {settings : AuthSettings} {w w' : AuthWorld}

/-- No user is gone, and no version has changed. -/
theorem AccessInv.keep (hinv : AccessInv settings w) (hlog : w'.log = w.log)
    (husers : ∀ u row, w.state.db.getUserById u = some row →
      ∃ row', w'.state.db.getUserById u = some row' ∧ row'.tokenVersion = row.tokenVersion) :
    AccessInv settings w' := by
  intro newer older token u hsplit
  obtain ⟨payload, key, row, htoken, hsub, hrow, htv⟩ :=
    hinv newer older token u (hlog.symm.trans hsplit)
  obtain ⟨row', hrow', hversion⟩ := husers u row hrow
  exact ⟨payload, key, row', htoken, hsub, hrow', htv.trans hversion.symm⟩

/-- Something was logged that is neither an access token nor a voiding. -/
theorem AccessInv.cons (hinv : AccessInv settings w) {e : Entry} (hlog : w'.log = e :: w.log)
    (husers : w'.state.db.users = w.state.db.users) (haccess : ∀ t u, e ≠ .access t u)
    (hvoided : ∀ u, e ≠ .voided u) : AccessInv settings w' := by
  intro newer older token u hsplit
  rw [hlog] at hsplit
  rcases List.cons_eq_append_iff.mp hsplit with ⟨-, heq⟩ | ⟨newer', rfl, hold⟩
  · exact absurd (List.cons.inj heq).1.symm (haccess token u)
  · obtain ⟨payload, key, row, htoken, hsub, hrow, htv⟩ := hinv newer' older token u hold
    refine ⟨payload, key, row, htoken, hsub, ?_, ?_⟩
    · unfold AuthDb.getUserById
      rw [husers]
      exact hrow
    · rw [List.count_cons_of_ne (hvoided u)]
      exact htv

theorem AccessInv.grant (hinv : AccessInv settings w) {user row : User} (now : Time)
    (hrow : w.state.db.getUserById user.id = some row)
    (hversion : user.tokenVersion = row.tokenVersion) :
    AccessInv settings
      { w with log := .access (createAccessToken settings user now) user.id :: w.log } := by
  intro newer older token u hsplit
  rcases List.cons_eq_append_iff.mp hsplit with ⟨rfl, heq⟩ | ⟨newer', rfl, hold⟩
  · obtain ⟨rfl, rfl⟩ := Entry.access.inj (List.cons.inj heq).1
    exact ⟨accessPayload settings.config user now, settings.config.jwtSecret, row, rfl, rfl, hrow,
      hversion⟩
  · obtain ⟨payload, key, row', htoken, hsub, hrow', htv⟩ := hinv newer' older token u hold
    refine ⟨payload, key, row', htoken, hsub, hrow', ?_⟩
    rw [List.count_cons_of_ne (by simp)]
    exact htv

/-- The version goes up with every voiding. -/
theorem AccessInv.void (hinv : AccessInv settings w) (userId : Nat) (f : User → User)
    (hid : ∀ u, (f u).id = u.id) (hversion : ∀ u, (f u).tokenVersion = u.tokenVersion + 1)
    (now : Time) :
    AccessInv settings
      { w.setDb ((w.state.db.updateUser userId f hid).revokeSessionFamily userId now) with
        log := .voided userId :: w.log } := by
  intro newer older token u hsplit
  rcases List.cons_eq_append_iff.mp hsplit with ⟨-, heq⟩ | ⟨newer', rfl, hold⟩
  · cases (List.cons.inj heq).1
  · obtain ⟨payload, key, row, htoken, hsub, hrow, htv⟩ := hinv newer' older token u hold
    have hrow' : (w.state.db.updateUser userId f hid).getUserById u =
        some (if row.id == userId then f row else row) := by
      rw [AuthDb.getUserById_updateUser, hrow, Option.map_some]
    refine ⟨payload, key, _, htoken, hsub, hrow', ?_⟩
    have hkey : row.id = u := Table.get?_key hrow
    by_cases hu : userId = u
    · subst hu
      rw [List.count_cons_self, if_pos (by simpa using hkey), hversion]
      omega
    · have hne : row.id ≠ userId := fun h => hu (h.symm.trans hkey)
      rw [List.count_cons_of_ne (by simpa using hu), if_neg (by simpa using hne)]
      exact htv

end AccessInv

/-! ### Every effect, every history -/

structure TokensInv (settings : AuthSettings) (tokens : Set String) (w : AuthWorld) : Prop where
  refresh : RefreshInv settings tokens w
  access : AccessInv settings w

section TokensInv

variable {settings : AuthSettings} {tokens : Set String} {w w' : AuthWorld}

theorem TokensInv.effect (hinv : TokensInv settings tokens w)
    (hhash : Set.InjOn settings.lib.hashRefreshToken tokens)
    (h : Effect settings tokens w w') : TokensInv settings tokens w' := by
  cases h with
  | attempts s hs =>
      refine ⟨hinv.refresh.keep (fun k => ?_) (Or.inl rfl),
        hinv.access.keep rfl fun u row hrow => ⟨row, ?_, rfl⟩⟩
      · show s.db.session? k = _
        rw [hs]
      · show s.db.getUserById u = _
        rw [hs]
        exact hrow
  | account userId f hid hversion =>
      refine ⟨hinv.refresh.keep (fun _ => rfl) (Or.inl rfl),
        hinv.access.keep rfl fun u row hrow => ⟨if row.id == userId then f row else row, ?_, ?_⟩⟩
      · show (w.state.db.updateUser userId f hid).getUserById u = _
        rw [AuthDb.getUserById_updateUser, hrow, Option.map_some]
      · split
        · exact hversion row
        · rfl
  | enrol email password fullName isAdmin roleName =>
      refine ⟨hinv.refresh.keep (fun _ => rfl) (Or.inl rfl),
        hinv.access.keep rfl fun u row hrow => ⟨row, ?_, rfl⟩⟩
      have hne : u ≠ w.state.db.users.nextKey := Nat.ne_of_lt (Table.lt_nextKey_of_get? hrow)
      exact (Table.get?_insertNew w.state.db.users _ _ u).trans ((if_neg hne).trans hrow)
  | grant user row now hrow hversion =>
      exact ⟨hinv.refresh.keep (fun _ => rfl) (Or.inr ⟨_, _, rfl⟩),
        hinv.access.grant now hrow hversion⟩
  | opening userId fresh expires userAgent ip hfresh hin =>
      exact ⟨hinv.refresh.opening expires userAgent ip hfresh hin,
        hinv.access.cons rfl rfl (fun _ _ he => nomatch he) fun _ he => nomatch he⟩
  | exchange session token fresh expires now hrow hlive htoken hknown hfresh hin =>
      refine ⟨hinv.refresh.exchange hhash expires now hrow htoken hknown hfresh hin, ?_⟩
      have hrotated : AccessInv settings
          { w with log := .rotated token session.userId :: w.log } :=
        hinv.access.cons rfl rfl (fun _ _ he => nomatch he) fun _ he => nomatch he
      exact hrotated.cons rfl rfl (fun _ _ he => nomatch he) fun _ he => nomatch he
  | revoke p now =>
      exact ⟨hinv.refresh.revoke p now, hinv.access.keep rfl fun u row hrow => ⟨row, hrow, rfl⟩⟩
  | void userId f hid hversion now =>
      exact ⟨hinv.refresh.void userId f hid now, hinv.access.void userId f hid hversion now⟩

theorem TokensInv.init (db : AuthDb) : TokensInv settings tokens (.init db) := by
  refine ⟨⟨fun _ _ _ h => (nomatch h), fun _ _ _ _ _ h => (nomatch h), fun _ _ _ h => (nomatch h),
    fun s row h => ?_, fun _ _ h => (nomatch h)⟩, fun newer older t u h => ?_⟩
  · cases h
  · have h : [] = newer ++ Entry.access t u :: older := h
    cases newer <;> cases h

theorem TokensInv.step (hinv : TokensInv settings tokens w)
    (hhash : Set.InjOn settings.lib.hashRefreshToken tokens) {a : AuthAction}
    (hin : ∀ t ∈ a.tokens, t ∈ tokens) (hs : w.step settings a = some w') :
    TokensInv settings tokens w' := by
  have heffects := step_effects hin hs
  clear hs
  induction heffects with
  | refl => exact hinv
  | tail _ heffect ih => exact ih.effect hhash heffect

/-- **Every history keeps it.**  The tokens that occur have different hashes. -/
theorem TokensInv.run (hinv : TokensInv settings tokens w)
    (hhash : Set.InjOn settings.lib.hashRefreshToken tokens) {as : List AuthAction}
    (hin : ∀ a ∈ as, ∀ t ∈ a.tokens, t ∈ tokens)
    (hrun : run (AuthWorld.step settings) w as = some w') : TokensInv settings tokens w' :=
  run_invariant (fun _ _ _ hi hok hs => TokensInv.step hi hhash hok hs) hinv
    (Meets.of_actions (fun a ha _ => hin a ha) w) hrun

end TokensInv

end GovCrawler
