/-
When a credential is disabled, and whether its stored refresh token stays good.

The providers here hand out a new refresh token with every refresh and refuse the
old one from then on.  A task works with the copy of the credential it took before
it queued for its slot, so another task's refresh may have made that copy stale;
and whatever goes wrong at the token endpoint reaches the dispatcher as the same
`OAuthTokenError`.

`credentials_sound` says under which steps a credential is disabled for a genuine
rejection only, an unreachable token endpoint costs no credential, and the stored
refresh token is the one the provider accepts.  `disabled_without_rejection` is a
single task that meets a dead token endpoint, and two tasks of which the second
presents the token of a copy the first has outdated.
-/
import GovCrawler.Outreach.DispatchSystem
import GovCrawler.Outreach.Secrets

namespace GovCrawler

open Relational StoreProgram Prog DispatchM Transition

/-! ### What is asked -/

/-- The credential whose refresh the task has under way. -/
def Pc.refreshing? : Pc → Option Nat
  | .requesting job _ | .responding job _ _ => some job.cred.id
  | _ => none

/-- The mail server rejected the password, or the provider the refresh token, that the
row stored at that moment. -/
def Genuine (h : Handled) : Prop :=
  ∃ row, h.row = some row ∧
    (h.cause = .passwordRejected row.secrets.password ∨
      ∃ token, h.cause = .refreshTokenRejected token ∧ row.secrets.refreshToken = some token)

/-- A failure of the token endpoint cools the credential down and requeues the email. -/
def CooledDown (h : Handled) : Prop :=
  (∃ u, Write.cooldown h.credentialId u ∈ h.writes) ∧ (∃ e, Write.email e .queued ∈ h.writes) ∧
    ∀ c, Write.disable c ∉ h.writes

/-- The provider accepts no refresh token of this credential but the stored one.  While
the reply to a refresh is on its way the new token is not stored yet. -/
def StoredIsCurrent (w : World) : Prop :=
  ∀ c s, w.db.secrets c = some s → s.provider ≠ "basic" →
    (∀ t ∈ w.tasks, t.pc.refreshing? ≠ some c) →
    ∀ token, w.provider c = some token → s.refreshToken = some token

structure CredentialsSound (w : World) : Prop where
  genuine : ∀ h ∈ w.handled, ∀ c, Write.disable c ∈ h.writes → c = h.credentialId ∧ Genuine h
  network : ∀ h ∈ w.handled, h.cause = .tokenEndpointDown → CooledDown h
  current : StoredIsCurrent w

/-! ### The condition -/

/-- What `get_valid_access_token` may come to, once the task has connected: a live
access token, or the refresh token that is stored, with no other refresh of the
credential under way, or an exception that does not disable. -/
def AccessToken.Presents (w : World) (job : Job) : AccessToken → Prop
  | .live _ => True
  | .refresh token =>
      (w.db.secrets job.cred.id).map Secrets.refreshToken = some (some token) ∧
        ∀ t ∈ w.tasks, t.pc.refreshing? ≠ some job.cred.id
  | .raises e => ¬ Rejects e

instance (w : World) (job : Job) : DecidablePred (AccessToken.Presents w job)
  | .live _ => .isTrue trivial
  | .refresh _ => inferInstanceAs (Decidable (_ ∧ _))
  | .raises e => inferInstanceAs (Decidable ¬ Rejects e)

def PresentsStored (settings : DispatchSettings) (w : World) (job : Job) : Prop :=
  job.cred.provider = "basic" ∨
    (getValidAccessToken job.cred settings.oauth w.now).Presents w job

instance (settings : DispatchSettings) (w : World) (job : Job) :
    Decidable (PresentsStored settings w job) :=
  inferInstanceAs (Decidable (_ ∨ _))

/-- The token request or its reply is lost, or a mail server rejects an access token. -/
def tokenTrouble : Pc → Event → Bool
  | .requesting _ _, .unreachable _ => true
  | .responding _ _ _, .unreachable _ => true
  | .authenticating _ (some _), .smtp (.error e) => decide (Rejects e)
  | _, _ => false

/-- The job of a task that has just connected. -/
def connected? : Pc → Event → Option Job
  | .connecting job, .smtp (.ok _) => some job
  | _, _ => none

/-- The condition on a move of a task at this point. -/
def OAuthHolds (settings : DispatchSettings) (w : World) (pc : Pc) (event : Event) : Prop :=
  tokenTrouble pc event = false ∧ ∀ job ∈ connected? pc event, PresentsStored settings w job

def OAuthHoldsFor (settings : DispatchSettings) (w : World) : Action → Prop
  | .move i event => ∀ t ∈ w.tasks[i]?, OAuthHolds settings w t.pc event
  | _ => True

instance (settings : DispatchSettings) (w : World) :
    DecidablePred (OAuthHoldsFor settings w)
  | .move i event =>
      inferInstanceAs (Decidable (∀ t ∈ w.tasks[i]?, tokenTrouble t.pc event = false ∧
        ∀ job ∈ connected? t.pc event, PresentsStored settings w job))
  | .tick _ | .request _ _ | .poll _ | .sweep | .revoke _ => .isTrue trivial

/-! ### The invariant -/

/-- What is known of a refresh under way: the stored token was presented, and the
provider accepts it, or has accepted it, or has lost consent. -/
def FlightOk (w : World) : Pc → Prop
  | .requesting job token =>
      (∃ s, w.db.secrets job.cred.id = some s ∧ s.refreshToken = some token) ∧
        (w.provider job.cred.id = some token ∨ w.provider job.cred.id = none)
  | .responding job token reply =>
      (∃ s, w.db.secrets job.cred.id = some s ∧ s.refreshToken = some token) ∧
        match reply with
        | .tokens _ fresh _ => ∃ f, fresh = some f ∧ f ≠ "" ∧
            (w.provider job.cred.id = some f ∨ w.provider job.cred.id = none)
        | .rejected _ => w.provider job.cred.id = none
        | .networkError _ => False
  | _ => True

structure CredInv (w : World) : Prop where
  copied : ∀ (i : Nat) (t : DispatchTask) (job : Job), w.tasks[i]? = some t →
    t.pc.job? = some job → CopiedFrom w.db job.cred
  flight : ∀ (i : Nat) (t : DispatchTask), w.tasks[i]? = some t → FlightOk w t.pc
  alone : ∀ (i j : Nat) (t u : DispatchTask) (c : Nat), w.tasks[i]? = some t →
    w.tasks[j]? = some u → t.pc.refreshing? = some c → u.pc.refreshing? = some c → i = j
  current : StoredIsCurrent w
  log : ∀ h ∈ w.handled, h.cause ≠ .tokenEndpointDown ∧
    ∀ c, Write.disable c ∈ h.writes → c = h.credentialId ∧ Genuine h

theorem CredInv.sound {w : World} (hinv : CredInv w) : CredentialsSound w where
  genuine := fun h hh => (hinv.log h hh).2
  network := fun h hh hc => absurd hc (hinv.log h hh).1
  current := hinv.current

/-- Somebody else's refresh stays what it was, also when consent is withdrawn. -/
theorem FlightOk.keep {w w' : World} {pc : Pc} (h : FlightOk w pc)
    (hsecrets : ∀ c, pc.refreshing? = some c → w'.db.secrets c = w.db.secrets c)
    (hprovider : ∀ c, pc.refreshing? = some c →
      w'.provider c = w.provider c ∨ w'.provider c = none) : FlightOk w' pc := by
  cases pc with
  | requesting job token =>
      obtain ⟨hstored, hp⟩ := h
      refine ⟨by rw [hsecrets _ rfl]; exact hstored, ?_⟩
      rcases hprovider _ rfl with heq | hnone
      · rw [heq]
        exact hp
      · exact Or.inr hnone
  | responding job token reply =>
      obtain ⟨hstored, hp⟩ := h
      refine ⟨by rw [hsecrets _ rfl]; exact hstored, ?_⟩
      cases reply with
      | tokens access fresh expires =>
          obtain ⟨f, hf, hne, hp⟩ := hp
          refine ⟨f, hf, hne, ?_⟩
          rcases hprovider _ rfl with heq | hnone
          · rw [heq]
            exact hp
          · exact Or.inr hnone
      | rejected text => exact (hprovider _ rfl).elim (fun heq => heq.trans hp) id
      | networkError text => exact hp
  | _ => trivial

/-- What a handler that ran may have noted. -/
def LogOk (h : Handled) : Prop :=
  h.cause ≠ .tokenEndpointDown ∧ ∀ c, Write.disable c ∈ h.writes → c = h.credentialId ∧ Genuine h

/-! ### One task moves -/

section Move

variable {settings : DispatchSettings} {w w' : World} {i : Nat} {t : DispatchTask} {pc : Pc}

/-- **One task moves**, and may change what is stored and accepted for the credential
it was refreshing, but for no other. -/
theorem CredInv.move (hinv : CredInv w) (ht : w.tasks[i]? = some t)
    (htasks : w'.tasks = (w.goto i pc).tasks)
    (hothers : ∀ c, t.pc.refreshing? ≠ some c →
      w'.db.secrets c = w.db.secrets c ∧ w'.provider c = w.provider c)
    (hcopies : ∀ d, CopiedFrom w.db d → CopiedFrom w'.db d)
    (hjob : ∀ job, pc.job? = some job → CopiedFrom w'.db job.cred) (hflight : FlightOk w' pc)
    (halone : ∀ c, pc.refreshing? = some c → t.pc.refreshing? = some c ∨
      ∀ u ∈ w.tasks, u.pc.refreshing? ≠ some c)
    (hdone : ∀ c, t.pc.refreshing? = some c → pc.refreshing? ≠ some c →
      ∀ s, w'.db.secrets c = some s → ∀ token, w'.provider c = some token →
        s.refreshToken = some token)
    (hlog : ∀ h ∈ w'.handled, h ∈ w.handled ∨ LogOk h) : CredInv w' := by
  have hcases : ∀ {j u}, w'.tasks[j]? = some u →
      j = i ∧ u = { t with pc } ∨ j ≠ i ∧ w.tasks[j]? = some u := by
    intro j u hu
    rw [htasks] at hu
    exact task_of_goto ht hu
  have hnew : w'.tasks[i]? = some { t with pc } := by
    rw [htasks, task_goto, ht]
    simp
  have hnot : ∀ {j u c}, j ≠ i → w.tasks[j]? = some u → u.pc.refreshing? = some c →
      t.pc.refreshing? ≠ some c := fun hj hu huc htc => hj (hinv.alone _ _ _ _ _ hu ht huc htc)
  -- a refresh that the moved task has under way is nobody else's
  have hclash : ∀ {j u c}, j ≠ i → w.tasks[j]? = some u → pc.refreshing? = some c →
      u.pc.refreshing? ≠ some c := by
    intro j u c hj hu hc huc
    rcases halone c hc with hold | hnone
    · exact hnot hj hu huc hold
    · exact hnone u (List.mem_of_getElem? hu) huc
  refine ⟨fun j u job hu hj => ?_, fun j u hu => ?_, fun j k u v c hu hv huc hvc => ?_, ?_,
    fun h hh => ?_⟩
  · rcases hcases hu with ⟨-, rfl⟩ | ⟨-, hold⟩
    · exact hjob job hj
    · exact hcopies _ (hinv.copied j u job hold hj)
  · rcases hcases hu with ⟨-, rfl⟩ | ⟨hj, hold⟩
    · exact hflight
    · exact (hinv.flight j u hold).keep (fun c hc => (hothers c (hnot hj hold hc)).1)
        fun c hc => Or.inl (hothers c (hnot hj hold hc)).2
  · rcases hcases hu with ⟨rfl, rfl⟩ | ⟨hj, hu'⟩
    · rcases hcases hv with ⟨rfl, rfl⟩ | ⟨hk, hv'⟩
      · rfl
      · exact absurd hvc (hclash hk hv' huc)
    · rcases hcases hv with ⟨rfl, rfl⟩ | ⟨hk, hv'⟩
      · exact absurd huc (hclash hj hu' hvc)
      · exact hinv.alone j k u v c hu' hv' huc hvc
  · intro c s hs hp hnone token htoken
    by_cases hold : t.pc.refreshing? = some c
    · exact hdone c hold (hnone _ (List.mem_of_getElem? hnew)) s hs token htoken
    · rw [(hothers c hold).1] at hs
      rw [(hothers c hold).2] at htoken
      refine hinv.current c s hs hp (fun u hu => ?_) token htoken
      obtain ⟨j, hj⟩ := List.getElem?_of_mem hu
      by_cases hji : j = i
      · subst hji
        rw [ht] at hj
        obtain rfl := Option.some.inj hj
        exact hold
      · have hu' : w'.tasks[j]? = some u := by
          rw [htasks, task_goto, hj]
          simp [Ne.symm hji]
        exact hnone u (List.mem_of_getElem? hu')
  · exact (hlog h hh).elim (hinv.log h) id

/-- It has no refresh under way, and changes nothing of the kind. -/
theorem CredInv.quiet (hinv : CredInv w) (ht : w.tasks[i]? = some t)
    (htasks : w'.tasks = (w.goto i pc).tasks)
    (hsecrets : ∀ k, w'.db.secrets k = w.db.secrets k) (hprovider : w'.provider = w.provider)
    (hjob : ∀ job, pc.job? = some job → CopiedFrom w.db job.cred)
    (hidle : t.pc.refreshing? = none) (hpc : pc.refreshing? = none)
    (hlog : ∀ h ∈ w'.handled, h ∈ w.handled ∨ LogOk h) : CredInv w' := by
  refine hinv.move ht htasks (fun c _ => ⟨hsecrets c, by rw [hprovider]⟩)
    (fun d hd => hd.congr hsecrets) (fun job hj => (hjob job hj).congr hsecrets) ?_
    (fun c hc => ?_) (fun c hc => ?_) hlog
  · cases pc with
    | requesting job token => cases hpc
    | responding job token reply => cases hpc
    | _ => trivial
  · rw [hpc] at hc
    cases hc
  · rw [hidle] at hc
    cases hc

/-- The task keeps its job and goes on, with no refresh under way. -/
theorem CredInv.stay (hinv : CredInv w) {job : Job} (ht : w.tasks[i]? = some t)
    (hjob : t.pc.job? = some job) (htasks : w'.tasks = (w.goto i pc).tasks) (hdb : w'.db = w.db)
    (hprovider : w'.provider = w.provider) (hhandled : w'.handled = w.handled)
    (hsame : pc.job? = some job) (hidle : t.pc.refreshing? = none) (hpc : pc.refreshing? = none) :
    CredInv w' := by
  refine hinv.quiet ht htasks (fun k => by rw [hdb]) hprovider (fun a ha => ?_) hidle hpc
    (fun h hh => Or.inl (hhandled ▸ hh))
  rw [hsame] at ha
  obtain rfl := Option.some.inj ha
  exact hinv.copied i t job ht hjob

/-- **The send of the task is over.**  If its handler disables, then for a rejection of
what the row stores. -/
theorem CredInv.finish (hinv : CredInv w) {job : Job} (ht : w.tasks[i]? = some t)
    (sent : Except Exc Unit) (cause : Cause)
    (hdone : ∀ c, t.pc.refreshing? = some c → w.provider c = none)
    (hcause : cause ≠ .tokenEndpointDown)
    (hgenuine : ∀ e, sent = .error e → Rejects e → ∃ s, w.db.secrets job.cred.id = some s ∧
      (cause = .passwordRejected s.password ∨
        ∃ token, cause = .refreshTokenRejected token ∧ s.refreshToken = some token)) :
    CredInv (w.finish settings i job sent cause) := by
  have hsecrets : ∀ k, (w.finish settings i job sent cause).db.secrets k = w.db.secrets k :=
    secrets_trySend settings job w.now sent w.db
  have hafter : ∀ r c, (Pc.afterSend job r).refreshing? ≠ some c := by
    intro r c
    cases r <;> exact fun h => nomatch h
  refine hinv.move ht rfl (fun c _ => ⟨hsecrets c, rfl⟩) (fun d hd => hd.congr hsecrets)
    (fun a ha => ?_) ?_ (fun c hc => absurd hc (hafter _ c)) (fun c hc _ s _ token htoken => ?_)
    (fun h hh => ?_)
  · rw [Pc.job?_afterSend] at ha
    cases ha
  · generalize (trySend settings job w.now sent ⟨w.db, []⟩ []).1 = r
    cases r <;> trivial
  · have hnone : w.provider c = some token := htoken
    rw [hdone c hc] at hnone
    cases hnone
  · rcases List.mem_append.mp hh with hold | hnew
    · exact Or.inl hold
    · obtain rfl := List.mem_singleton.mp hnew
      refine Or.inr ⟨hcause, fun c hc => ?_⟩
      obtain ⟨rfl, e, he, hrejects⟩ := disable_of_trySend hc
      obtain ⟨s, hs, hor⟩ := hgenuine e he hrejects
      obtain ⟨row, hrow, rfl⟩ := Option.map_eq_some_iff.mp hs
      exact ⟨rfl, row, hrow, hor⟩

end Move

/-! ### The segments -/

section Segments

variable {settings : DispatchSettings} {w w' : World} {i c : Nat} {job : Job}

theorem not_rejects_of_smtpRaises {e : Exc} (h : smtpRaises false e = true) : ¬ Rejects e := by
  intro he
  cases e with
  | smtpAuthenticationError code message => cases h
  | oauthTokenError text => cases h
  | _ => exact he

theorem credInv_start (hinv : CredInv w) (ht : w.tasks[i]? = some ⟨c, .start⟩) :
    CredInv
      { w.goto i (.afterPrologue (dispatchPrologue settings c w.now ⟨w.db, []⟩ []).1) with
          db := (dispatchPrologue settings c w.now ⟨w.db, []⟩ []).2.1.db } := by
  have hsame : (dispatchPrologue settings c w.now ⟨w.db, []⟩ []).2.1.db.smtpCredentials =
      w.db.smtpCredentials := sameCredentials_prologue settings w.db c w.now ⟨w.db, []⟩ [] rfl
  refine hinv.quiet ht rfl (secrets_congr hsame) rfl (fun job hj => ?_) rfl ?_
    fun h hh => Or.inl hh
  · rw [Pc.job?_afterPrologue] at hj
    cases hj
  · unfold Pc.afterPrologue
    split <;> rfl

/-- What the task will send with is a fresh copy. -/
theorem credInv_head (hinv : CredInv w) {index : Nat} (ht : w.tasks[i]? = some ⟨c, .head index⟩)
    (pc : Pc) (htasks : w'.tasks = (w.goto i pc).tasks)
    (hdb : w'.db = (loopHead settings c index w.now ⟨w.db, []⟩ []).2.1.db)
    (hprovider : w'.provider = w.provider) (hhandled : w'.handled = w.handled)
    (hidle : pc.refreshing? = none) (hpc : ∀ job, pc.job? = some job →
      (loopHead settings c index w.now ⟨w.db, []⟩ []).1 = .ok (.send job)) : CredInv w' := by
  have hsame : w'.db.smtpCredentials = w.db.smtpCredentials := by
    rw [hdb]
    exact sameCredentials_loopHead settings w.db c w.now index ⟨w.db, []⟩ [] rfl
  refine hinv.quiet ht htasks (secrets_congr hsame) hprovider (fun a ha => ?_) rfl hidle
    fun h hh => Or.inl (hhandled ▸ hh)
  exact loopHead_copied settings c w.now index ⟨w.db, []⟩ (hpc a ha)

/-- A task that has to refresh presents the token the provider accepts, if it accepts any. -/
theorem credInv_authenticate (hinv : CredInv w) (ht : w.tasks[i]? = some ⟨c, .connecting job⟩)
    (hok : PresentsStored settings w job) : CredInv (w.authenticate settings i job) := by
  have hcopied := hinv.copied i _ job ht rfl
  unfold World.authenticate
  by_cases hbasic : job.cred.provider = "basic"
  · rw [if_pos hbasic]
    exact hinv.stay ht rfl rfl rfl rfl rfl rfl rfl rfl
  · rw [if_neg hbasic]
    have hok : (getValidAccessToken job.cred settings.oauth w.now).Presents w job :=
      hok.resolve_left hbasic
    cases hcase : getValidAccessToken job.cred settings.oauth w.now with
    | live access => exact hinv.stay ht rfl rfl rfl rfl rfl rfl rfl rfl
    | raises e =>
        rw [hcase] at hok
        refine hinv.finish ht _ _ (fun _ h => nomatch h) (by decide) fun e' he hrejects => ?_
        obtain rfl := Except.error.inj he
        exact absurd hrejects hok
    | refresh token =>
        rw [hcase] at hok
        obtain ⟨hstored, hnone⟩ := hok
        obtain ⟨s, hs, hprovider, -⟩ := hcopied
        have htoken : s.refreshToken = some token := by
          rw [hs] at hstored
          exact Option.some.inj hstored
        refine hinv.move ht rfl (fun _ _ => ⟨rfl, rfl⟩) (fun _ hd => hd)
          (fun a ha => ?_) ⟨⟨s, hs, htoken⟩, ?_⟩ (fun a ha => Or.inr ?_) (fun _ h => nomatch h)
          fun h hh => Or.inl hh
        · obtain rfl := Option.some.inj ha
          exact hinv.copied i _ job ht rfl
        · show w.provider job.cred.id = some token ∨ w.provider job.cred.id = none
          cases hp : w.provider job.cred.id with
          | none => exact Or.inr rfl
          | some accepts =>
              have hcur := hinv.current _ s hs (by rwa [hprovider]) hnone accepts hp
              rw [htoken] at hcur
              exact Or.inl hcur.symm
        · obtain rfl := Option.some.inj ha
          exact hnone

/-- The provider accepts the token and replaces it: the reply carries the new one. -/
theorem credInv_grant (hinv : CredInv w) {token : String}
    (ht : w.tasks[i]? = some ⟨c, .requesting job token⟩) (access fresh : String)
    (expires : Option Time) (hfresh : fresh ≠ "") :
    CredInv
      { w.goto i (.responding job token (.tokens access (some fresh) expires)) with
          provider := fun k => if k = job.cred.id then some fresh else w.provider k } := by
  refine hinv.move ht rfl (fun k hk => ⟨rfl, ?_⟩) (fun _ hd => hd) (fun a ha => ?_)
    ⟨(hinv.flight i _ ht).1, fresh, rfl, hfresh, Or.inl (if_pos rfl)⟩ (fun a ha => Or.inl ha)
    (fun k hk hno => absurd hk hno) fun h hh => Or.inl hh
  · refine if_neg ?_
    rintro rfl
    exact hk rfl
  · obtain rfl := Option.some.inj ha
    exact hinv.copied i _ job ht rfl

/-- The provider rejects it, which it does only after consent was withdrawn. -/
theorem credInv_refuse (hinv : CredInv w) {token : String}
    (ht : w.tasks[i]? = some ⟨c, .requesting job token⟩) (text : String)
    (hrefused : w.provider job.cred.id ≠ some token) :
    CredInv (w.goto i (.responding job token (.rejected text))) := by
  obtain ⟨hstored, hp⟩ := hinv.flight i _ ht
  refine hinv.move ht rfl (fun _ _ => ⟨rfl, rfl⟩) (fun _ hd => hd) (fun a ha => ?_)
    ⟨hstored, hp.resolve_left hrefused⟩ (fun a ha => Or.inl ha)
    (fun k hk hno => absurd hk hno) fun h hh => Or.inl hh
  obtain rfl := Option.some.inj ha
  exact hinv.copied i _ job ht rfl

/-- The reply is in: new tokens are stored, and a rejection was one of the stored token. -/
theorem credInv_receiveTokens (hinv : CredInv w) {token : String} {reply : TokenReply}
    (ht : w.tasks[i]? = some ⟨c, .responding job token reply⟩) :
    CredInv (w.receiveTokens settings i job token reply) := by
  have hrefreshing : ∀ k, (Pc.responding job token reply).refreshing? = some k →
      job.cred.id = k := fun _ hk => Option.some.inj hk
  obtain ⟨⟨s, hs, htoken⟩, hp⟩ := hinv.flight i _ ht
  cases reply with
  | networkError text => exact hp.elim
  | rejected text =>
      refine hinv.finish ht _ _ (fun k hk => ?_) (by intro h; cases h) fun e _ _ => ?_
      · rw [← hrefreshing k hk]
        exact hp
      · exact ⟨s, hs, Or.inr ⟨token, rfl, htoken⟩⟩
  | tokens access fresh expires =>
      obtain ⟨f, rfl, hne, hp⟩ := hp
      have hf : ((some f).filter (· ≠ "")).getD token = f := by
        rw [Option.filter_some, if_pos (by simpa using hne), Option.getD_some]
      simp only [World.receiveTokens, refreshOutcome, hf]
      have hcopies : ∀ d, CopiedFrom w.db d →
          CopiedFrom (w.db.updateCredentialTokens settings.keys job.cred.id access f expires) d := by
        rintro d ⟨sd, hsd, hprovider, hpassword⟩
        by_cases hd : d.id = job.cred.id
        · refine ⟨{ sd with refreshToken := some f }, ?_, hprovider, hpassword⟩
          rw [secrets_updateCredentialTokens, if_pos hd, hsd, Option.map_some]
        · refine ⟨sd, ?_, hprovider, hpassword⟩
          rw [secrets_updateCredentialTokens, if_neg hd, hsd]
      refine hinv.move ht rfl (fun k hk => ⟨?_, rfl⟩) hcopies (fun a ha => ?_) trivial
        (fun _ h => nomatch h) (fun k hk _ s' hs' accepts hacc => ?_) fun h hh => Or.inl hh
      · refine (secrets_updateCredentialTokens ..).trans (if_neg ?_)
        rintro rfl
        exact hk rfl
      · obtain rfl := Option.some.inj ha
        exact hcopies _ (hinv.copied i _ job ht rfl)
      · obtain rfl := hrefreshing k hk
        have hacc : w.provider job.cred.id = some accepts := hacc
        have hstored : s' = { s with refreshToken := some f } := by
          rw [secrets_updateCredentialTokens, if_pos rfl, hs] at hs'
          exact (Option.some.inj hs').symm
        rw [hstored]
        rcases hp with hp | hp
        · exact hp.symm.trans hacc
        · rw [hp] at hacc
          cases hacc

/-- An exchange fails that has nothing to do with a token. -/
theorem CredInv.fail (hinv : CredInv w) {pc : Pc} (ht : w.tasks[i]? = some ⟨c, pc⟩)
    (hidle : pc.refreshing? = none) {e : Exc} (he : ¬ Rejects e) :
    CredInv (w.fail settings i job e .otherFailure) := by
  refine hinv.finish ht _ _ (fun k hk => ?_) (by decide) fun e' he' hrejects => ?_
  · rw [show (DispatchTask.mk c pc).pc.refreshing? = none from hidle] at hk
    cases hk
  · obtain rfl := Except.error.inj he'
    exact absurd hrejects he

/-- The mail server says no to a password, which is the one in the row. -/
theorem credInv_authFailed (hinv : CredInv w) {access : Option String} {e : Exc}
    (ht : w.tasks[i]? = some ⟨c, .authenticating job access⟩)
    (hraises : smtpRaises true e = true)
    (hok : tokenTrouble (.authenticating job access) (.smtp (.error e)) = false) :
    CredInv (w.fail settings i job e (authCause job access e)) := by
  refine hinv.finish ht _ _ (fun _ h => nomatch h) ?_ fun e' he hrejects => ?_
  · unfold authCause
    split
    · split <;> exact fun h => nomatch h
    · exact fun h => nomatch h
  · obtain rfl := Except.error.inj he
    cases access with
    | some token => exact absurd hrejects (of_decide_eq_false hok)
    | none =>
        obtain ⟨s, hs, -, hpassword⟩ := hinv.copied i _ job ht rfl
        refine ⟨s, hs, Or.inl ?_⟩
        cases e with
        | smtpAuthenticationError code message => rw [hpassword]; rfl
        | oauthTokenError text => cases hraises
        | _ => exact hrejects.elim

/-- A segment that meets the condition keeps the invariant. -/
theorem credInv_resume (hinv : CredInv w) {pc : Pc} (ht : w.tasks[i]? = some ⟨c, pc⟩)
    {event : Event} (hok : OAuthHolds settings w pc event)
    (hs : w.resume settings i c pc event = some w') : CredInv w' := by
  cases World.resumes_of_resume hs with
  | start => exact credInv_start hinv ht
  | @send index job hrun =>
      refine credInv_head hinv ht (.waiting job) rfl rfl rfl rfl rfl fun a ha => ?_
      obtain rfl := Option.some.inj ha
      exact hrun
  | stop hrun =>
      exact credInv_head hinv ht .stopped rfl rfl rfl rfl rfl fun a ha => nomatch ha
  | enterSlot => exact hinv.stay ht rfl rfl rfl rfl rfl rfl rfl rfl
  | sleep => exact hinv.stay ht rfl rfl rfl rfl rfl rfl rfl rfl
  | wakeUp => exact hinv.stay ht rfl rfl rfl rfl rfl rfl rfl rfl
  | @connected job => exact credInv_authenticate hinv ht (hok.2 job rfl)
  | notConnected hraises => exact hinv.fail ht rfl (not_rejects_of_smtpRaises hraises)
  | granted haccepts hfresh => exact credInv_grant hinv ht _ _ _ hfresh.2
  | refused hrefuses => exact credInv_refuse hinv ht _ hrefuses
  | requestLost | replyLost => cases hok.1
  | replied => exact credInv_receiveTokens hinv ht
  | authenticated => exact hinv.stay ht rfl rfl rfl rfl rfl rfl rfl rfl
  | notAuthenticated hraises => exact credInv_authFailed hinv ht hraises hok.1
  | accepted => exact hinv.stay ht rfl rfl rfl rfl rfl rfl rfl rfl
  | notAccepted hraises => exact hinv.fail ht rfl (not_rejects_of_smtpRaises hraises)
  | quit => exact hinv.finish ht _ _ (fun _ h => nomatch h) (by decide) fun _ h => nomatch h

end Segments

/-! ### Everything else -/

section Actions

variable {settings : DispatchSettings} {w w' : World}

/-- Whatever leaves the credentials alone and starts no task but fresh ones.  Consent
may be withdrawn. -/
theorem CredInv.spare (hinv : CredInv w) (hsecrets : ∀ k, w'.db.secrets k = w.db.secrets k)
    (hprovider : ∀ k, w'.provider k = w.provider k ∨ w'.provider k = none)
    (htasks : ∃ fresh : List Nat, w'.tasks = w.tasks ++ fresh.map fun c => ⟨c, .start⟩)
    (hhandled : w'.handled = w.handled) : CredInv w' := by
  obtain ⟨fresh, htasks⟩ := htasks
  -- a task with anything in hand was there before
  have hold : ∀ {j : Nat} {u : DispatchTask}, w'.tasks[j]? = some u →
      u.pc = .start ∨ w.tasks[j]? = some u := fun hu => (task_of_started htasks hu).symm
  have hrefreshing : ∀ {j : Nat} {u : DispatchTask} {c}, w'.tasks[j]? = some u →
      u.pc.refreshing? = some c → w.tasks[j]? = some u := by
    intro j u c hu hc
    refine (hold hu).resolve_left fun hstart => ?_
    rw [hstart] at hc
    cases hc
  refine ⟨fun j u job hu hj => ?_, fun j u hu => ?_, fun j k u v c hu hv huc hvc => ?_, ?_, ?_⟩
  · refine CopiedFrom.congr hsecrets (hinv.copied j u job ((hold hu).resolve_left ?_) hj)
    intro hstart
    rw [hstart] at hj
    cases hj
  · rcases hold hu with hstart | hu'
    · rw [hstart]
      trivial
    · exact (hinv.flight j u hu').keep (fun k _ => hsecrets k) fun k _ => hprovider k
  · exact hinv.alone j k u v c (hrefreshing hu huc) (hrefreshing hv hvc) huc hvc
  · intro c s hs hp hnone token htoken
    rw [hsecrets] at hs
    refine hinv.current c s hs hp (fun u hu => ?_) token ?_
    · exact hnone u (htasks ▸ List.mem_append_left _ hu)
    · rcases hprovider c with heq | hnil
      · exact heq.symm.trans htoken
      · rw [hnil] at htoken
        cases htoken
  · intro h hh
    exact hinv.log h (hhandled ▸ hh)

theorem credInv_serve (hinv : CredInv w) (user : CurrentUser) (req : Request) :
    CredInv (w.serve settings user req) := by
  cases req with
  | dispatch c =>
      simp only [World.serve]
      cases hd : dispatchCampaign settings w.db user c w.now with
      | error e => exact hinv
      | ok db =>
          obtain rfl := dispatchCampaign_eq_ok hd
          exact hinv.spare (secrets_congr rfl) (fun _ => Or.inl rfl) ⟨[c], rfl⟩ rfl
  | setStatus c st =>
      simp only [World.serve]
      cases hd : patchCampaignStatus w.db user c st with
      | error e => exact hinv
      | ok db =>
          obtain ⟨newStatus, -, rfl⟩ := patchCampaignStatus_eq_ok hd
          exact hinv.spare (secrets_congr rfl) (fun _ => Or.inl rfl) ⟨[], by simp⟩ rfl
  | email c e r =>
      exact hinv.spare (secrets_congr (smtpCredentials_serveEmailRequest w.db user c e r))
        (fun _ => Or.inl rfl) ⟨[], by simp [World.serve]⟩ rfl
  | selectAll c r =>
      exact hinv.spare (secrets_congr (smtpCredentials_bulkToggle w.db user c r))
        (fun _ => Or.inl rfl) ⟨[], by simp [World.serve]⟩ rfl

/-- Every action that meets the condition keeps the invariant. -/
theorem credInv_step (hinv : CredInv w) {a : Action} (hok : OAuthHoldsFor settings w a)
    (hs : w.step settings a = some w') : CredInv w' := by
  cases a with
  | tick span =>
      simp only [World.step] at hs
      split at hs
      · obtain rfl := Option.some.inj hs
        exact hinv.spare (fun _ => rfl) (fun _ => Or.inl rfl) ⟨[], by simp⟩ rfl
      · cases hs
  | request user req =>
      obtain rfl := Option.some.inj hs
      exact credInv_serve hinv user req
  | poll c =>
      simp only [World.step] at hs
      split at hs
      · obtain rfl := Option.some.inj hs
        exact hinv.spare (fun _ => rfl) (fun _ => Or.inl rfl) ⟨[c], rfl⟩ rfl
      · cases hs
  | sweep =>
      obtain rfl := Option.some.inj hs
      exact hinv.spare (secrets_congr rfl) (fun _ => Or.inl rfl) ⟨[], by simp⟩ rfl
  | revoke c =>
      obtain rfl := Option.some.inj hs
      refine hinv.spare (fun _ => rfl) (fun k => ?_) ⟨[], by simp⟩ rfl
      by_cases hk : k = c
      · exact Or.inr (if_pos hk)
      · exact Or.inl (if_neg hk)
  | move i event =>
      simp only [World.step] at hs
      split at hs
      · cases hs
      · next t ht => exact credInv_resume hinv ht (hok t ht) hs

end Actions

/--
**Credentials stay sound.**  In every run whose token requests reach the endpoint and
present the stored token, one at a time, a credential is disabled only for a
rejection of the secret its row stores, and the stored refresh token is the one the
provider accepts.
-/
theorem credentials_sound (settings : DispatchSettings) (now : Time) (db : OutreachDb)
    (provider : Nat → Option String) (as : List Action) (w : World)
    (hstored : StoredIsCurrent (.init now db provider))
    (hok : Meets (World.step settings) (OAuthHoldsFor settings) (.init now db provider) as)
    (hrun : run (World.step settings) (.init now db provider) as = some w) :
    CredentialsSound w := by
  have hinit : CredInv (.init now db provider) :=
    ⟨fun _ _ _ h => (nomatch h), fun _ _ h => (nomatch h), fun _ _ _ _ _ h => (nomatch h), hstored,
      fun _ h => (nomatch h)⟩
  exact (run_invariant (fun _ _ _ hi hok hs => credInv_step hi hok hs) hinit hok hrun).sound

/-! ### Runs of tasks that share a Google mailbox -/

def googleSettings : DispatchSettings :=
  { plainSettings with oauth := { clientIds := [("google", "client")] } }

def googleMailbox (n : Nat) : OutreachDb :=
  { sharedMailbox n with
    smtpCredentials := Table.empty.insertNew fun id =>
      { id, host := "smtp.gmail.com", port := 587, username := "outreach", provider := "google",
        passwordEncrypted := none, isActive := true, cooldownUntil := some 0,
        dailySendLimit := none, refreshTokenEncrypted := some ⟨"k1", "r0"⟩,
        accessTokenEncrypted := none, tokenExpiresAt := none } }

def googleWorld (n : Nat) : World := .init (seconds 1) (googleMailbox n) fun _ => some "r0"

/-- The refresh request of the task is lost. -/
def networkErrorRun : List Action :=
  dispatchAndClaim 0 0 ++ [.move 0 (.slot (seconds 30)), .move 0 (.smtp (.ok ())),
    .move 0 (.unreachable "timed out"), .move 0 .go]

/-- The task refreshes and sends. -/
def refreshRun : List Action :=
  [.move 0 (.slot (seconds 30)), .move 0 (.smtp (.ok ())),
    .move 0 (.grant "a1" "r1" (some (hours 1))), .move 0 .go]

/-- Two tasks have taken their copies.  The first refreshes, and the second presents the
token its copy still has. -/
def staleCopyRun : List Action :=
  dispatchAndClaim 0 0 ++ dispatchAndClaim 1 1 ++ refreshRun ++
  [.move 1 (.slot (seconds 30)), .tick (seconds 30), .move 1 .go, .move 1 (.smtp (.ok ())),
    .move 1 (.refuse "invalid_grant"), .move 1 .go]

theorem storedIsCurrent_google (n : Nat) : StoredIsCurrent (googleWorld n) := by
  intro c s hs _ _ token htoken
  have hs : (googleMailbox n).secrets c = some s := hs
  obtain rfl : "r0" = token := Option.some.inj htoken
  unfold OutreachDb.secrets OutreachDb.credential? googleMailbox at hs
  dsimp only at hs
  rw [Table.get?_insertNew] at hs
  split at hs
  · obtain rfl := Option.some.inj hs
    rfl
  · rw [Table.get?_empty] at hs
    cases hs

/-- A lost reply disables the credential, and so does the rejection of a token that the
row no longer stores. -/
theorem disabled_without_rejection :
    (∃ w, run (World.step googleSettings) (googleWorld 1) networkErrorRun = some w ∧
        ¬ CredentialsSound w) ∧
      ∃ w, run (World.step googleSettings) (googleWorld 2) staleCopyRun = some w ∧
        ¬ CredentialsSound w := by
  constructor
  · have h : (run (World.step googleSettings) (googleWorld 1) networkErrorRun).map
        (fun w => w.handled.map fun h => (h.cause, h.writes)) =
          some [(.tokenEndpointDown, [.disable 1, .email 1 .queued])] := by decide +kernel
    obtain ⟨w, hw, hhandled⟩ := Option.map_eq_some_iff.mp h
    refine ⟨w, hw, fun hsound => ?_⟩
    obtain ⟨h, hh, heq⟩ := List.mem_map.mp (hhandled ▸ List.mem_singleton_self _)
    obtain ⟨hcause, hwrites⟩ := Prod.mk.inj heq
    refine (hsound.network h hh hcause).2.2 1 ?_
    rw [hwrites]
    decide
  · have h : (run (World.step googleSettings) (googleWorld 2) staleCopyRun).map
        (fun w => w.handled.map fun h =>
          (h.cause, h.row.map fun row => row.secrets.refreshToken, h.writes)) =
          some [(.refreshTokenRejected "r0", some (some "r1"), [.disable 1, .email 2 .queued])] := by
      decide +kernel
    obtain ⟨w, hw, hhandled⟩ := Option.map_eq_some_iff.mp h
    refine ⟨w, hw, fun hsound => ?_⟩
    obtain ⟨h, hh, heq⟩ := List.mem_map.mp (hhandled ▸ List.mem_singleton_self _)
    obtain ⟨hcause, heq⟩ := Prod.mk.inj heq
    obtain ⟨hrow, hwrites⟩ := Prod.mk.inj heq
    have hdisable : Write.disable 1 ∈ h.writes := by
      rw [hwrites]
      decide
    obtain ⟨row, hsome, hgenuine⟩ := (hsound.genuine h hh 1 hdisable).2
    rw [hsome] at hrow
    rw [hcause] at hgenuine
    rcases hgenuine with hpassword | ⟨token, htoken, hstored⟩
    · cases hpassword
    · obtain rfl : "r0" = token := Cause.refreshTokenRejected.inj htoken
      rw [Option.map_some, hstored] at hrow
      revert hrow
      decide

/-- One task refreshes, stores the new token and logs in with it. -/
theorem refreshed_token_stored :
    ∃ w, run (World.step googleSettings) (googleWorld 1) (dispatchAndClaim 0 0 ++ refreshRun) =
      some w ∧ CredentialsSound w := by
  obtain ⟨w, hw⟩ : ∃ w, run (World.step googleSettings) (googleWorld 1)
      (dispatchAndClaim 0 0 ++ refreshRun) = some w :=
    Option.isSome_iff_exists.mp (by decide +kernel)
  exact ⟨w, hw, credentials_sound googleSettings (seconds 1) (googleMailbox 1) (fun _ => some "r0")
    (dispatchAndClaim 0 0 ++ refreshRun) w (storedIsCurrent_google 1) (by decide +kernel) hw⟩

end GovCrawler
