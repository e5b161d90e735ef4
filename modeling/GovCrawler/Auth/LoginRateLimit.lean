/-
How many login attempts an address may fail, `_check_login_rate_limit` and
`_record_login_failure_for_rate_limit` of `cloud/api/auth.py`.

An attempt is checked when it comes in.  If it fails, that is recorded after the password has been
verified, which takes its time; no other attempt comes between, since `login` awaits nothing.  So an
attempt has two times, and what is recorded was checked for before.
-/
import GovCrawler.Auth.Routes
import GovCrawler.Lib.SlidingWindow
import Mathlib.Data.Finset.Dedup
import Mathlib.Data.Finset.Order

namespace GovCrawler

open SlidingWindow

/-! ### Attempts -/

/-- A login attempt, as far as the limit is concerned.  `failedAt` is when its failure is recorded,
if it gets past the check and fails. -/
structure LoginAttempt where
  ip : Option String
  checkedAt : Time
  failedAt : Option Time
  deriving DecidableEq, Repr

/-- The failures that have been recorded, with their addresses. -/
abbrev FailureLog : Type := List (String × Time)

structure WatchedLogins where
  state : AuthState
  log : FailureLog := []

def windowOf (config : AuthConfig) : Time := minutes config.loginRateLimitWindowMinutes

/-- What an attempt does to the memory, and what it adds to the log. -/
def WatchedLogins.attempt (config : AuthConfig) (w : WatchedLogins) (a : LoginAttempt) :
    WatchedLogins :=
  match checkLoginRateLimit config w.state a.ip a.checkedAt, a.failedAt with
  | (.error _, s), _ => ⟨s, w.log⟩
  | (.ok _, s), none => ⟨s, w.log⟩
  | (.ok _, s), some t =>
      ⟨recordLoginFailureForRateLimit s a.ip t, w.log ++ ((given a.ip).map (·, t)).toList⟩

def WatchedLogins.attempts (config : AuthConfig) (w : WatchedLogins) (as : List LoginAttempt) :
    WatchedLogins :=
  as.foldl (WatchedLogins.attempt config) w

/-- The attempt is answered 429. -/
def WatchedLogins.Refuses (config : AuthConfig) (w : WatchedLogins) (a : LoginAttempt) : Prop :=
  ∃ e s, checkLoginRateLimit config w.state a.ip a.checkedAt = (.error e, s) ∧ e.statusCode = 429

/-- The failures of an address. -/
def failuresOf (ip : String) (log : FailureLog) : List Time :=
  log.filterMap fun entry => if entry.1 = ip then some entry.2 else none

def LoginAttempt.times (a : LoginAttempt) : List Time := a.checkedAt :: a.failedAt.toList

/-- The clock does not go back, within an attempt or from one to the next. -/
def InTime (as : List LoginAttempt) : Prop := (as.flatMap LoginAttempt.times).Pairwise (· ≤ ·)

/-! ### `login` is an attempt -/

/-- `login`, with the second reading of the clock. -/
def loginAt (settings : AuthSettings) (s : AuthState) (req : LoginRequest) (ctx : RequestContext)
    (clock : Clock) (failedAt : Time) (fresh : String) : Except HttpError TokenResponse × AuthState :=
  match checkLoginRateLimit settings.config s ctx.ip clock.monotonic with
  | (.error e, s) => (.error e, s)
  | (.ok _, s) =>
      match s.db.getUserByEmail settings.lib req.email with
      | none => (.error invalidLogin, recordLoginFailureForRateLimit s ctx.ip failedAt)
      | some user =>
          loginUser settings s user req.password ctx { clock with monotonic := failedAt } fresh

theorem loginAt_self (settings : AuthSettings) (s : AuthState) (req : LoginRequest)
    (ctx : RequestContext) (clock : Clock) (fresh : String) :
    loginAt settings s req ctx clock clock.monotonic fresh = login settings s req ctx clock fresh :=
  rfl

theorem failedLoginAttempts_record (s : AuthState) (db : AuthDb) (ip : Option String) (now : Time) :
    (recordLoginFailureForRateLimit { s with db := db } ip now).failedLoginAttempts =
      (recordLoginFailureForRateLimit s ip now).failedLoginAttempts := by
  unfold recordLoginFailureForRateLimit
  cases given ip <;> rfl

/-- Whatever comes of it, a login is an attempt that fails or that does not. -/
theorem loginAt_attempt (settings : AuthSettings) (s : AuthState) (req : LoginRequest)
    (ctx : RequestContext) (clock : Clock) (failedAt : Time) (fresh : String) :
    ∃ failed ∈ [none, some failedAt],
      (loginAt settings s req ctx clock failedAt fresh).2.failedLoginAttempts =
        (WatchedLogins.attempt settings.config ⟨s, []⟩
          ⟨ctx.ip, clock.monotonic, failed⟩).state.failedLoginAttempts := by
  unfold loginAt WatchedLogins.attempt
  dsimp only
  rcases checkLoginRateLimit settings.config s ctx.ip clock.monotonic with ⟨_ | _, s'⟩
  · exact ⟨none, List.mem_cons_self, rfl⟩
  · dsimp only
    cases s'.db.getUserByEmail settings.lib req.email with
    | none => exact ⟨some failedAt, by simp, rfl⟩
    | some user =>
        dsimp only
        unfold loginUser
        split
        · exact ⟨none, List.mem_cons_self, rfl⟩
        split
        · exact ⟨none, List.mem_cons_self, rfl⟩
        split
        · exact ⟨some failedAt, by simp, failedLoginAttempts_record s' _ ctx.ip failedAt⟩
        · exact ⟨none, List.mem_cons_self, rfl⟩

/-! ### One attempt -/

section Attempt

variable {config : AuthConfig} {w : WatchedLogins} {a : LoginAttempt} {ip : String}

theorem failuresOf_append (ip : String) (log log' : FailureLog) :
    failuresOf ip (log ++ log') = failuresOf ip log ++ failuresOf ip log' :=
  List.filterMap_append

/-- What the check finds for an address, and what it remembers from then on. -/
theorem checkLoginRateLimit_own (config : AuthConfig) (s : AuthState) (now : Time) (hne : ip ≠ "") :
    ((checkLoginRateLimit config s (some ip) now).2.failedLoginAttempts ip =
        prune (windowOf config) now (s.failedLoginAttempts ip)) ∧
      ((config.loginRateLimitAttempts ≤
          (prune (windowOf config) now (s.failedLoginAttempts ip)).length ∧
          ∃ e, (checkLoginRateLimit config s (some ip) now).1 = .error e ∧ e.statusCode = 429) ∨
        ((prune (windowOf config) now (s.failedLoginAttempts ip)).length <
          config.loginRateLimitAttempts ∧
          (checkLoginRateLimit config s (some ip) now).1 = .ok ())) := by
  have hgiven : given (some ip) = some ip := by simp [given, hne]
  unfold checkLoginRateLimit
  rw [hgiven]
  dsimp only
  split
  · rename_i hfull
    exact ⟨if_pos rfl, Or.inl ⟨hfull, _, rfl, rfl⟩⟩
  · rename_i hroom
    exact ⟨if_pos rfl, Or.inr ⟨Nat.lt_of_not_le hroom, rfl⟩⟩

/-- An attempt from somewhere else. -/
theorem attempt_other (h : a.ip ≠ some ip) :
    (w.attempt config a).state.failedLoginAttempts ip = w.state.failedLoginAttempts ip ∧
      failuresOf ip (w.attempt config a).log = failuresOf ip w.log := by
  have hcheck : (checkLoginRateLimit config w.state a.ip a.checkedAt).2.failedLoginAttempts ip =
      w.state.failedLoginAttempts ip := by
    unfold checkLoginRateLimit
    cases hgiven : given a.ip with
    | none => rfl
    | some k =>
        have hk : ip ≠ k := by
          rintro rfl
          exact h (Option.filter_eq_some_iff.mp hgiven).1
        dsimp only
        split
        · exact if_neg hk
        · exact if_neg hk
  unfold WatchedLogins.attempt
  rcases hchecked : checkLoginRateLimit config w.state a.ip a.checkedAt with ⟨_ | _, s⟩
  · rw [hchecked] at hcheck
    exact ⟨hcheck, rfl⟩
  · rw [hchecked] at hcheck
    cases a.failedAt with
    | none => exact ⟨hcheck, rfl⟩
    | some t =>
        dsimp only
        unfold recordLoginFailureForRateLimit
        cases hgiven : given a.ip with
        | none => exact ⟨hcheck, by simp⟩
        | some k =>
            have hk : ip ≠ k := by
              rintro rfl
              exact h (Option.filter_eq_some_iff.mp hgiven).1
            refine ⟨(if_neg hk).trans hcheck, ?_⟩
            rw [failuresOf_append]
            simp [failuresOf, Ne.symm hk]

/-- An attempt from the address is refused, or it is let past and may fail. -/
theorem attempt_own (hne : ip ≠ "") (h : a.ip = some ip) :
    (config.loginRateLimitAttempts ≤
        (prune (windowOf config) a.checkedAt (w.state.failedLoginAttempts ip)).length ∧
      w.Refuses config a ∧
      (w.attempt config a).state.failedLoginAttempts ip =
        prune (windowOf config) a.checkedAt (w.state.failedLoginAttempts ip) ∧
      failuresOf ip (w.attempt config a).log = failuresOf ip w.log) ∨
    ((prune (windowOf config) a.checkedAt (w.state.failedLoginAttempts ip)).length <
        config.loginRateLimitAttempts ∧
      ¬ w.Refuses config a ∧
      (w.attempt config a).state.failedLoginAttempts ip =
        prune (windowOf config) a.checkedAt (w.state.failedLoginAttempts ip) ++
          a.failedAt.toList ∧
      failuresOf ip (w.attempt config a).log = failuresOf ip w.log ++ a.failedAt.toList) := by
  have hgiven : given (some ip) = some ip := by simp [given, hne]
  unfold WatchedLogins.attempt WatchedLogins.Refuses
  rw [h]
  obtain ⟨hmemory, ⟨hfull, e, herror, hcode⟩ | ⟨hroom, hok⟩⟩ :=
    checkLoginRateLimit_own config w.state a.checkedAt hne
  · rcases hchecked : checkLoginRateLimit config w.state (some ip) a.checkedAt with ⟨r, s⟩
    rw [hchecked] at hmemory herror
    obtain rfl : r = .error e := herror
    exact Or.inl ⟨hfull, ⟨e, s, rfl, hcode⟩, hmemory, rfl⟩
  · rcases hchecked : checkLoginRateLimit config w.state (some ip) a.checkedAt with ⟨r, s⟩
    rw [hchecked] at hmemory hok
    obtain rfl : r = .ok () := hok
    have hlet : ¬ ∃ e s', ((.ok (), s) : Except HttpError Unit × AuthState) = (.error e, s') ∧
        e.statusCode = 429 := by
      rintro ⟨e, s', heq, -⟩
      cases heq
    refine Or.inr ⟨hroom, hlet, ?_⟩
    cases a.failedAt with
    | none => exact ⟨by rw [Option.toList_none, List.append_nil, ← hmemory], by simp⟩
    | some t =>
        dsimp only
        unfold recordLoginFailureForRateLimit
        rw [hgiven]
        refine ⟨?_, ?_⟩
        · rw [Option.toList_some, ← hmemory]
          exact if_pos rfl
        · rw [failuresOf_append]
          simp [failuresOf]

end Attempt

/-! ### Runs -/

/-- What the limit keeps to, of an address and up to a moment. -/
structure Limited (config : AuthConfig) (ip : String) (now : Time) (w : WatchedLogins) : Prop where
  paced : Paced config.loginRateLimitAttempts (windowOf config) (failuresOf ip w.log)
  remembers : Remembers (windowOf config) now (w.state.failedLoginAttempts ip)
    (failuresOf ip w.log)
  past : ∀ t ∈ failuresOf ip w.log, t ≤ now
  room : (w.state.failedLoginAttempts ip).length ≤ config.loginRateLimitAttempts

section Runs

variable {config : AuthConfig} {w : WatchedLogins} {a : LoginAttempt} {ip : String} {now : Time}

theorem Limited.mono (h : Limited config ip now w) {later : Time} (hle : now ≤ later) :
    Limited config ip later w where
  paced := h.paced
  remembers := h.remembers.mono hle
  past := fun t ht => Nat.le_trans (h.past t ht) hle
  room := h.room

/-- When an attempt is over. -/
def LoginAttempt.endsAt (a : LoginAttempt) : Time := a.failedAt.getD a.checkedAt

theorem Limited.attempt (h : Limited config ip now w) (hne : ip ≠ "") (hafter : now ≤ a.checkedAt)
    (hfailed : ∀ t ∈ a.failedAt, a.checkedAt ≤ t) :
    Limited config ip a.endsAt (w.attempt config a) := by
  have hends : a.checkedAt ≤ a.endsAt := by
    unfold LoginAttempt.endsAt
    cases hf : a.failedAt with
    | none => exact Nat.le_refl _
    | some t => exact hfailed t hf
  have hlater := Nat.le_trans hafter hends
  by_cases hip : a.ip = some ip
  · have hkept := (h.remembers.prune hafter).mono hends
    have hcount := h.remembers.length_prune hafter
    rcases @attempt_own config w a ip hne hip with
      ⟨-, -, hmemory, hlog⟩ | ⟨hroom, -, hmemory, hlog⟩
    · constructor
      · rw [hlog]
        exact h.paced
      · rw [hmemory, hlog]
        exact hkept
      · rw [hlog]
        exact fun t ht => Nat.le_trans (h.past t ht) hlater
      · rw [hmemory]
        exact Nat.le_trans (List.length_filter_le _ _) h.room
    · cases hf : a.failedAt with
      | none =>
          rw [hf, Option.toList_none, List.append_nil] at hmemory hlog
          constructor
          · rw [hlog]
            exact h.paced
          · rw [hmemory, hlog]
            exact hkept
          · rw [hlog]
            exact fun t ht => Nat.le_trans (h.past t ht) hlater
          · rw [hmemory]
            exact Nat.le_of_lt hroom
      | some t =>
          have hend : a.endsAt = t := by
            unfold LoginAttempt.endsAt
            rw [hf]
            rfl
          rw [hf, Option.toList_some] at hmemory hlog
          constructor
          · rw [hlog]
            exact h.paced.snoc (hfailed t hf) (hcount ▸ hroom)
          · rw [hmemory, hlog]
            exact hkept.snoc t
          · rw [hlog, hend]
            intro s hs
            rcases List.mem_append.mp hs with hs | hs
            · exact hend ▸ Nat.le_trans (h.past s hs) hlater
            · exact Nat.le_of_eq (List.mem_singleton.mp hs)
          · rw [hmemory, List.length_append]
            exact hroom
  · obtain ⟨hmemory, hlog⟩ := @attempt_other config w a ip hip
    have hold := h.mono hlater
    constructor
    · rw [hlog]
      exact hold.paced
    · rw [hmemory, hlog]
      exact hold.remembers
    · rw [hlog]
      exact hold.past
    · rw [hmemory]
      exact hold.room

theorem InTime.cons {as : List LoginAttempt} (h : InTime (a :: as)) :
    (∀ t ∈ a.failedAt, a.checkedAt ≤ t) ∧ InTime as ∧
      ∀ t ∈ as.flatMap LoginAttempt.times, a.endsAt ≤ t := by
  unfold InTime at h ⊢
  rw [List.flatMap_cons] at h
  obtain ⟨hown, hrest, hacross⟩ := List.pairwise_append.mp h
  refine ⟨fun t ht => ?_, hrest, fun t ht => hacross a.endsAt ?_ t ht⟩
  · exact (List.pairwise_cons.mp hown).1 t (Option.mem_toList.mpr ht)
  · unfold LoginAttempt.endsAt LoginAttempt.times
    cases a.failedAt with
    | none => exact List.mem_cons_self
    | some t => simp

/-- The limit is kept to along a run. -/
theorem Limited.attempts (hne : ip ≠ "") (as : List LoginAttempt) (h : Limited config ip now w)
    (horder : InTime as) (hafter : ∀ t ∈ as.flatMap LoginAttempt.times, now ≤ t) {later : Time}
    (hlater : ∀ t ∈ now :: as.flatMap LoginAttempt.times, t ≤ later) :
    Limited config ip later (w.attempts config as) := by
  induction as generalizing now w with
  | nil => exact h.mono (hlater now List.mem_cons_self)
  | cons a as ih =>
      obtain ⟨hfailed, hrest, hends⟩ := horder.cons
      have hchecked : now ≤ a.checkedAt :=
        hafter a.checkedAt (List.mem_append_left _ List.mem_cons_self)
      refine ih (h.attempt hne hchecked hfailed) hrest hends fun t ht => ?_
      rcases List.mem_cons.mp ht with rfl | ht
      · refine hlater _ (List.mem_cons_of_mem _ (List.mem_append_left _ ?_))
        unfold LoginAttempt.endsAt LoginAttempt.times
        cases a.failedAt with
        | none => exact List.mem_cons_self
        | some t => simp
      · exact hlater t (List.mem_cons_of_mem _ (List.mem_append_right _ ht))

end Runs

/-- **The login limit is a sliding window.**  No window of time has more recorded failures of an
address than the limit, an attempt is refused exactly when the window that ends with it has as many,
and no more are remembered. -/
theorem login_rate_limited (config : AuthConfig) (s : AuthState)
    (hs : ∀ ip, s.failedLoginAttempts ip = []) (as : List LoginAttempt) (horder : InTime as)
    (ip : String) (hne : ip ≠ "") :
    (∀ start, (failuresOf ip (WatchedLogins.attempts config ⟨s, []⟩ as).log).countP
          (fun t => decide (start ≤ t ∧ t < start + windowOf config)) ≤
            config.loginRateLimitAttempts ∧
        (failuresOf ip (WatchedLogins.attempts config ⟨s, []⟩ as).log).countP
          (fun t => decide (start < t ∧ t ≤ start + windowOf config)) ≤
            config.loginRateLimitAttempts) ∧
      (∀ before a after, as = before ++ a :: after → a.ip = some ip →
        ((WatchedLogins.attempts config ⟨s, []⟩ before).Refuses config a ↔
          config.loginRateLimitAttempts ≤
            (failuresOf ip (WatchedLogins.attempts config ⟨s, []⟩ before).log).countP
              fun t => decide (t ≤ a.checkedAt ∧ a.checkedAt < t + windowOf config))) ∧
      ∀ before after, as = before ++ after →
        ((WatchedLogins.attempts config ⟨s, []⟩ before).state.failedLoginAttempts ip).length ≤
          config.loginRateLimitAttempts := by
  have hinit : Limited config ip 0 ⟨s, []⟩ := by
    constructor
    · exact Paced.nil
    · show Remembers _ _ (s.failedLoginAttempts ip) []
      rw [hs]
      exact Remembers.refl _ _
    · exact fun t ht => absurd ht List.not_mem_nil
    · show (s.failedLoginAttempts ip).length ≤ _
      rw [hs]
      exact Nat.zero_le _
  -- what holds after the attempts before a moment
  have hlimited : ∀ before after, as = before ++ after → ∀ later,
      (∀ t ∈ before.flatMap LoginAttempt.times, t ≤ later) →
        Limited config ip later (WatchedLogins.attempts config ⟨s, []⟩ before) := by
    intro before after heq later hlater
    have hbefore : InTime before := by
      unfold InTime at horder ⊢
      rw [heq, List.flatMap_append] at horder
      exact (List.pairwise_append.mp horder).1
    refine hinit.attempts hne before hbefore (fun t _ => Nat.zero_le t) fun t ht => ?_
    rcases List.mem_cons.mp ht with rfl | ht
    · exact Nat.zero_le _
    · exact hlater t ht
  have hsome : ∀ before after, as = before ++ after → ∃ later,
      Limited config ip later (WatchedLogins.attempts config ⟨s, []⟩ before) := by
    intro before after heq
    obtain ⟨later, hlater⟩ := (before.flatMap LoginAttempt.times).toFinset.exists_le
    exact ⟨later, hlimited before after heq later fun t ht => hlater t (List.mem_toFinset.mpr ht)⟩
  refine ⟨fun start => ?_, fun before a after heq hip => ?_, fun before after heq => ?_⟩
  · obtain ⟨later, h⟩ := hsome as [] (List.append_nil as).symm
    constructor
    · refine h.paced.countP_le fun s t hs ht => ?_
      exact Nat.lt_of_lt_of_le (of_decide_eq_true ht).2
        (Nat.add_le_add_right (of_decide_eq_true hs).1 _)
    · refine h.paced.countP_le fun s t hs ht => ?_
      exact Nat.lt_of_le_of_lt (of_decide_eq_true ht).2
        (Nat.add_lt_add_right (of_decide_eq_true hs).1 _)
  · have hbefore : ∀ t ∈ before.flatMap LoginAttempt.times, t ≤ a.checkedAt := by
      unfold InTime at horder
      rw [heq, List.flatMap_append, List.flatMap_cons] at horder
      exact fun t ht => (List.pairwise_append.mp horder).2.2 t ht a.checkedAt
        (List.mem_append_left _ List.mem_cons_self)
    have h := hlimited before (a :: after) heq a.checkedAt hbefore
    have hcount : (failuresOf ip (WatchedLogins.attempts config ⟨s, []⟩ before).log).countP
        (fun t => decide (t ≤ a.checkedAt ∧ a.checkedAt < t + windowOf config)) =
        (failuresOf ip (WatchedLogins.attempts config ⟨s, []⟩ before).log).countP
          (live (windowOf config) a.checkedAt) := by
      refine List.countP_congr fun t ht => ?_
      unfold live
      rw [decide_eq_true_eq, decide_eq_true_eq, and_iff_right (h.past t ht)]
    rw [hcount, ← h.remembers.length_prune (Nat.le_refl _)]
    rcases @attempt_own config (WatchedLogins.attempts config ⟨s, []⟩ before) a ip hne hip with
      ⟨hfull, hrefuses, -⟩ | ⟨hroom, hlet, -⟩
    · exact iff_of_true hrefuses hfull
    · exact iff_of_false hlet (Nat.not_le_of_lt hroom)
  · obtain ⟨later, h⟩ := hsome before after heq
    exact h.room

/-! Two failures are let past, the third attempt is refused, and the window moves on. -/

def twoInAMinute : AuthConfig :=
  { jwtSecret := "secret", accessTtlMinutes := 15, refreshTtlDays := 14, lockoutThreshold := 5,
    lockoutMinutes := 15, loginRateLimitAttempts := 2, loginRateLimitWindowMinutes := 1 }

def noLogins : AuthState := ⟨⟨.empty, .empty, .empty, .empty, .empty⟩, fun _ => []⟩

def fourAttempts : List LoginAttempt :=
  [⟨some "10.0.0.1", seconds 10, some (seconds 11)⟩, ⟨some "10.0.0.1", seconds 30, some (seconds 31)⟩,
    ⟨some "10.0.0.1", seconds 50, some (seconds 51)⟩, ⟨some "10.0.0.1", seconds 71, some (seconds 72)⟩]

theorem third_attempt_refused :
    (WatchedLogins.attempts twoInAMinute ⟨noLogins, []⟩ fourAttempts).log =
        [("10.0.0.1", seconds 11), ("10.0.0.1", seconds 31), ("10.0.0.1", seconds 72)] ∧
      (WatchedLogins.attempts twoInAMinute ⟨noLogins, []⟩ (fourAttempts.take 2)).Refuses
        twoInAMinute ⟨some "10.0.0.1", seconds 50, some (seconds 51)⟩ := by
  have hlimit := login_rate_limited twoInAMinute noLogins (fun _ => rfl) fourAttempts
    (by unfold InTime; decide) "10.0.0.1" (by decide)
  exact ⟨by decide +kernel, (hlimit.2.1 (fourAttempts.take 2) _ (fourAttempts.drop 3) rfl rfl).mpr
    (by decide +kernel)⟩

end GovCrawler
