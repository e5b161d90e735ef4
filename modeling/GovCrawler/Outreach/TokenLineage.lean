/-
Whose tokens a credential has.

A refresh token goes back to a consent, and a consent to an address that somebody was given.  In
every run the refresh token of a credential goes back to a consent at an address that was made for
that credential, when a manager started a connect of it: whoever calls the callback, with whatever
code, and however the answers and the sends interleave.  And of each connect that was started, at
most one code is presented.
-/
import GovCrawler.Outreach.ConnectFlow

namespace GovCrawler

open Relational Transition

/-! ### Flows are used once -/

section Flows

variable {settings : ConnectSettings} {w w' : ConnectWorld}

/-- The flow belongs to a connect that has been started. -/
def ConnectWorld.Started (settings : ConnectSettings) (w : ConnectWorld)
    (flow : OAuthPendingFlow) : Prop :=
  ∃ s ∈ w.starts, s.flowId = flow.id ∧ s.credentialId = flow.credentialId ∧
    s.provider = flow.provider ∧ s.codeChallenge = settings.lib.codeChallenge flow.codeVerifier

structure FlowsInv (settings : ConnectSettings) (w : ConnectWorld) : Prop where
  started : ∀ f ∈ w.db.oauthPendingFlows.rows, w.Started settings f
  bounded : ∀ s ∈ w.starts, s.flowId < w.db.oauthPendingFlows.nextKey
  nodup : (w.starts.map ConnectStart.flowId).Nodup
  spent : ∀ k ∈ w.exchanged, k ∈ w.starts.map ConnectStart.flowId ∧
    ∀ f ∈ w.db.oauthPendingFlows.rows, f.id ≠ k
  once : w.exchanged.Nodup

/-- What touches no flow. -/
theorem FlowsInv.congr (h : FlowsInv settings w)
    (hflows : w'.db.oauthPendingFlows = w.db.oauthPendingFlows) (hstarts : w'.starts = w.starts)
    (hexchanged : w'.exchanged = w.exchanged) : FlowsInv settings w' where
  started := by
    unfold ConnectWorld.Started
    rw [hflows, hstarts]
    exact h.started
  bounded := by
    rw [hflows, hstarts]
    exact h.bounded
  nodup := hstarts ▸ h.nodup
  spent := by
    rw [hflows, hstarts, hexchanged]
    exact h.spent
  once := hexchanged ▸ h.once

/-- Flows are dropped. -/
theorem FlowsInv.drop (h : FlowsInv settings w) {p : OAuthPendingFlow → Bool}
    (hflows : w'.db.oauthPendingFlows = w.db.oauthPendingFlows.deleteWhere p)
    (hstarts : w'.starts = w.starts) (hexchanged : w'.exchanged = w.exchanged) :
    FlowsInv settings w' where
  started f hf := by
    rw [hflows] at hf
    have hstarted := h.started f (List.mem_filter.mp hf).1
    unfold ConnectWorld.Started at hstarted ⊢
    rwa [hstarts]
  bounded := by
    rw [hflows, hstarts]
    exact h.bounded
  nodup := hstarts ▸ h.nodup
  spent k hk := by
    rw [hexchanged] at hk
    rw [hflows, hstarts]
    exact ⟨(h.spent k hk).1, Table.forall_deleteWhere (h.spent k hk).2⟩
  once := hexchanged ▸ h.once

/-- A flow is added, for a connect that is started. -/
theorem FlowsInv.start (h : FlowsInv settings w) {flows : Table OAuthPendingFlow}
    {p : OAuthPendingFlow → Bool} (hswept : flows = w.db.oauthPendingFlows.deleteWhere p)
    {mk : Nat → OAuthPendingFlow} {hmk : ∀ n, Keyed.key (mk n) = n} {start : ConnectStart}
    (hflows : w'.db.oauthPendingFlows = flows.insertNew mk hmk)
    (hid : start.flowId = w.db.oauthPendingFlows.nextKey)
    (hstart : ∀ n, start.credentialId = (mk n).credentialId ∧ start.provider = (mk n).provider ∧
      start.codeChallenge = settings.lib.codeChallenge (mk n).codeVerifier)
    (hstarts : w'.starts = w.starts ++ [start]) (hexchanged : w'.exchanged = w.exchanged) :
    FlowsInv settings w' := by
  subst hswept
  have hnew : ∀ s ∈ w.starts, s.flowId ≠ start.flowId := fun s hs =>
    hid ▸ Nat.ne_of_lt (h.bounded s hs)
  exact
    { started := fun f hf => by
        rw [hflows] at hf
        unfold ConnectWorld.Started
        rw [hstarts]
        rcases (Table.mem_insertNew _).mp hf with hf | rfl
        · obtain ⟨s, hs, hrest⟩ := h.started f (List.mem_filter.mp hf).1
          exact ⟨s, List.mem_append_left _ hs, hrest⟩
        · exact ⟨start, by simp, hid.trans (hmk _).symm, hstart _⟩
      bounded := fun s hs => by
        rw [hflows]
        show s.flowId < w.db.oauthPendingFlows.nextKey + 1
        rw [hstarts] at hs
        rcases List.mem_append.mp hs with hs | hs
        · exact Nat.lt_succ_of_lt (h.bounded s hs)
        · rw [List.mem_singleton.mp hs, hid]
          exact Nat.lt_succ_self _
      nodup := by
        rw [hstarts, List.map_append]
        refine h.nodup.append (List.nodup_singleton _) fun k hk hk' => ?_
        obtain ⟨s, hs, rfl⟩ := List.mem_map.mp hk
        exact hnew s hs (List.mem_singleton.mp hk')
      spent := fun k hk => by
        rw [hexchanged] at hk
        obtain ⟨hstarted, hnot⟩ := h.spent k hk
        rw [hstarts, hflows, List.map_append]
        refine ⟨List.mem_append_left _ hstarted,
          Table.forall_insertNew (Table.forall_deleteWhere hnot) fun heq => ?_⟩
        obtain ⟨s, hs, rfl⟩ := List.mem_map.mp hstarted
        exact hnew s hs (heq.symm.trans ((hmk _).trans hid.symm))
      once := hexchanged ▸ h.once }

/-- The code of a flow is presented, which is gone then. -/
theorem FlowsInv.exchange (h : FlowsInv settings w) {flow : OAuthPendingFlow}
    (hflow : flow ∈ w.db.oauthPendingFlows.rows)
    (hflows : w'.db.oauthPendingFlows =
      w.db.oauthPendingFlows.deleteWhere fun f => f.id == flow.id)
    (hstarts : w'.starts = w.starts) (hexchanged : w'.exchanged = w.exchanged ++ [flow.id]) :
    FlowsInv settings w' := by
  have hdrop : FlowsInv settings { w' with exchanged := w.exchanged } := h.drop hflows hstarts rfl
  exact
    { started := hdrop.started
      bounded := hdrop.bounded
      nodup := hdrop.nodup
      spent := fun k hk => by
        rw [hexchanged] at hk
        rcases List.mem_append.mp hk with hk | hk
        · exact hdrop.spent k hk
        · obtain rfl := List.mem_singleton.mp hk
          obtain ⟨s, hs, hid, -⟩ := h.started flow hflow
          rw [hstarts, hflows]
          refine ⟨List.mem_map.mpr ⟨s, hs, hid⟩, fun f hf heq => ?_⟩
          have hne := (List.mem_filter.mp hf).2
          simp [heq] at hne
      once := by
        rw [hexchanged]
        refine h.once.append (List.nodup_singleton _) fun k hk hk' => ?_
        obtain rfl := List.mem_singleton.mp hk'
        exact (h.spent _ hk).2 flow hflow rfl }

theorem flowsInv_move {a : ConnectAction} (h : FlowsInv settings w)
    (hm : ConnectMove settings w w' a) : FlowsInv settings w' := by
  cases hm with
  | quiet hquiet hflows => exact h.congr hflows.flows hflows.starts hflows.exchanged
  | drop hquiet p hflows hexchanged _ => exact h.drop hflows hquiet.starts hexchanged
  | start manager credentialId provider state codeVerifier _ _ hflows hstarts _ _ hexchanged =>
      exact h.start rfl hflows rfl (fun _ => ⟨rfl, rfl, rfl⟩) hstarts hexchanged
  | exchange flow request ip hflow _ _ hflows hexchanged _ _ hstarts =>
      exact h.exchange hflow hflows hstarts hexchanged
  | grant flow request ip refreshToken _ _ _ _ _ hflows =>
      exact h.congr hflows.flows hflows.starts hflows.exchanged
  | refresh cred presented kept test t _ _ _ _ _ _ hflows =>
      exact h.congr hflows.flows hflows.starts hflows.exchanged

end Flows

/-! ### Tokens go back to a connect of their credential -/

section Tokens

variable {settings : ConnectSettings} {w w' : ConnectWorld}

/-- The token goes back to a connect of the credential. -/
def ConnectWorld.FromStart (w : ConnectWorld) (credentialId : Nat) (refreshToken : String) : Prop :=
  ∃ t ∈ w.issued, t.refreshToken = refreshToken ∧ ∃ s ∈ w.starts, s.credentialId = credentialId ∧
    s.provider = t.provider ∧ s.codeChallenge = t.codeChallenge

/-- What a task is about to store, or to present, goes back to a connect of its credential. -/
def CredentialTask.Covered (settings : ConnectSettings) (w : ConnectWorld) : CredentialTask → Prop
  | .callback flow request _ =>
      w.Started settings flow ∧ request.codeVerifier = flow.codeVerifier
  | .holding cred _ => ∀ token, cred.refreshToken = some token → w.FromStart cred.id token
  | .refreshing cred refreshToken _ => w.FromStart cred.id refreshToken
  | .probing _ _ _ => True

structure LineageInv (settings : ConnectSettings) (w : ConnectWorld) : Prop where
  columns : ∀ p ∈ ConnectWorld.tokenColumns w.db.outreach, ∀ blob, p.2 = some blob →
    w.FromStart p.1 blob.plain
  tasks : ∀ t ∈ w.tasks, t.Covered settings w
  consented : ∀ t ∈ w.issued, ∃ code, ⟨t.provider, code, t.codeChallenge⟩ ∈ w.codes
  nodup : (w.issued.map IssuedToken.refreshToken).Nodup

/-- What is known of starts and tokens stays known. -/
structure ConnectWorld.Grows (w w' : ConnectWorld) : Prop where
  starts : w.starts ⊆ w'.starts
  codes : w.codes ⊆ w'.codes
  issued : w.issued ⊆ w'.issued

theorem ConnectWorld.FromStart.mono (hgrows : w.Grows w') {credentialId : Nat} {token : String}
    (h : w.FromStart credentialId token) : w'.FromStart credentialId token := by
  obtain ⟨t, ht, htoken, s, hs, hrest⟩ := h
  exact ⟨t, hgrows.issued ht, htoken, s, hgrows.starts hs, hrest⟩

theorem CredentialTask.Covered.mono (hgrows : w.Grows w') {t : CredentialTask}
    (h : t.Covered settings w) : t.Covered settings w' := by
  cases t with
  | callback flow request ip =>
      obtain ⟨⟨s, hs, hrest⟩, hverifier⟩ := h
      exact ⟨⟨s, hgrows.starts hs, hrest⟩, hverifier⟩
  | holding cred test => exact fun token htoken => (h token htoken).mono hgrows
  | refreshing cred refreshToken test => exact ConnectWorld.FromStart.mono hgrows h
  | probing credentialId caller wasActive => trivial

/-- The copy of a row has its token. -/
theorem fromStart_of_copy (h : LineageInv settings w) {cred : Credential} {isActive : Bool}
    {credentialId : Nat}
    (hget : w.db.getCredential settings.keys credentialId = .ok (some (cred, isActive)))
    {token : String} (htoken : cred.refreshToken = some token) : w.FromStart cred.id token := by
  unfold CredentialDb.getCredential at hget
  cases hrow : w.db.outreach.credential? credentialId with
  | none =>
      rw [hrow] at hget
      cases hget
  | some c =>
      rw [hrow] at hget
      dsimp only at hget
      cases hdict : credentialSendDict settings.keys c with
      | error e =>
          rw [hdict] at hget
          cases hget
      | ok d =>
          rw [hdict] at hget
          have heq : d = cred := (Prod.mk.inj (Option.some.inj (Except.ok.inj hget))).1
          rw [← heq, credentialSendDict_eq_ok hdict] at htoken ⊢
          obtain ⟨blob, hblob, rfl⟩ := Option.map_eq_some_iff.mp htoken
          exact h.columns _ (List.mem_map_of_mem (Table.get?_mem hrow)) blob hblob

/-- The tasks that follow from what there was are covered. -/
theorem covered_of_follows (h : LineageInv settings w) (hgrows : w.Grows w')
    (htasks : ∀ t ∈ w'.tasks, t ∈ w.tasks ∨ t.Follows settings w) :
    ∀ t ∈ w'.tasks, t.Covered settings w' := by
  intro t ht
  rcases htasks t ht with hold | hfollows
  · exact (h.tasks t hold).mono hgrows
  · refine CredentialTask.Covered.mono hgrows ?_
    cases hfollows with
    | probing => trivial
    | holding cred isActive credentialId test hget => exact fun _ => fromStart_of_copy h hget
    | refreshing cred refreshToken test hholding htoken => exact h.tasks _ hholding _ htoken

theorem LineageInv.quiet (h : LineageInv settings w) (hquiet : w.Quiet settings w') :
    LineageInv settings w' := by
  have hgrows : w.Grows w' :=
    ⟨hquiet.starts ▸ List.Subset.refl _, hquiet.codes, hquiet.issued ▸ List.Subset.refl _⟩
  refine ⟨fun p hp blob hblob => ?_, covered_of_follows h hgrows hquiet.tasks, fun t ht => ?_,
    hquiet.issued ▸ h.nodup⟩
  · rcases hquiet.columns p hp with hold | hnone
    · exact (h.columns p hold blob hblob).mono hgrows
    · rw [hnone] at hblob
      cases hblob
  · rw [hquiet.issued] at ht
    obtain ⟨code, hcode⟩ := h.consented t ht
    exact ⟨code, hquiet.codes hcode⟩

/-- A token is stored where it goes back to. -/
theorem LineageInv.store (h : LineageInv settings w) {credentialId : Nat} {token : String}
    (hstores : w.Stores settings w' credentialId token) {new : List IssuedToken}
    (hissued : w'.issued = w.issued ++ new) (hfrom : w'.FromStart credentialId token)
    (hconsented : ∀ t ∈ new, ∃ code, ⟨t.provider, code, t.codeChallenge⟩ ∈ w.codes)
    (hnodup : (w'.issued.map IssuedToken.refreshToken).Nodup) : LineageInv settings w' := by
  have hgrows : w.Grows w' :=
    ⟨hstores.starts ▸ List.Subset.refl _, hstores.codes ▸ List.Subset.refl _,
      hissued ▸ List.subset_append_left _ _⟩
  refine ⟨fun p hp blob hblob => ?_, covered_of_follows h hgrows hstores.tasks, fun t ht => ?_,
    hnodup⟩
  · rcases hstores.columns p hp with hold | ⟨hid, hplain⟩
    · exact (h.columns p hold blob hblob).mono hgrows
    · rw [hblob] at hplain
      rw [hid, Option.some.inj hplain]
      exact hfrom
  · rw [hstores.codes]
    rw [hissued] at ht
    exact (List.mem_append.mp ht).elim (h.consented t) (hconsented t)

theorem nodup_of_isNew (h : (w.issued.map IssuedToken.refreshToken).Nodup) {t : IssuedToken}
    (hnew : w.isNew t.refreshToken = true) :
    ((w.issued ++ [t]).map IssuedToken.refreshToken).Nodup := by
  rw [List.map_append]
  refine h.append (List.nodup_singleton _) fun token htoken htoken' => ?_
  obtain ⟨u, hu, rfl⟩ := List.mem_map.mp htoken
  have hne := List.all_eq_true.mp hnew u hu
  rw [bne_iff_ne] at hne
  exact hne (List.mem_singleton.mp htoken')

theorem lineageInv_move {a : ConnectAction} (hflows : FlowsInv settings w)
    (h : LineageInv settings w) (hm : ConnectMove settings w w' a) : LineageInv settings w' := by
  cases hm with
  | quiet hquiet hsame => exact h.quiet hquiet
  | drop hquiet p hdropped hexchanged _ => exact h.quiet hquiet
  | start manager credentialId provider state codeVerifier _ _ _ hstarts houtreach htasks _ hcodes
      hissued =>
      have hgrows : w.Grows w' :=
        ⟨hstarts ▸ List.subset_append_left _ _, hcodes ▸ List.Subset.refl _,
          hissued ▸ List.Subset.refl _⟩
      refine ⟨fun p hp blob hblob => ?_, fun t ht => ?_, ?_, hissued ▸ h.nodup⟩
      · rw [houtreach] at hp
        exact (h.columns p hp blob hblob).mono hgrows
      · rw [htasks] at ht
        exact (h.tasks t ht).mono hgrows
      · rw [hissued, hcodes]
        exact h.consented
  | exchange flow request ip hflow _ hverifier _ _ htasks houtreach hstarts hcodes hissued =>
      have hgrows : w.Grows w' :=
        ⟨hstarts ▸ List.Subset.refl _, hcodes ▸ List.Subset.refl _, hissued ▸ List.Subset.refl _⟩
      refine ⟨fun p hp blob hblob => ?_, fun t ht => ?_, ?_, hissued ▸ h.nodup⟩
      · rw [houtreach] at hp
        exact (h.columns p hp blob hblob).mono hgrows
      · rw [htasks] at ht
        rcases List.mem_append.mp ht with ht | ht
        · exact (h.tasks t ht).mono hgrows
        · rw [List.mem_singleton.mp ht]
          exact CredentialTask.Covered.mono hgrows ⟨hflows.started flow hflow, hverifier⟩
      · rw [hissued, hcodes]
        exact h.consented
  | grant flow request ip refreshToken htask hcode hnew hstores hissued _ =>
      obtain ⟨⟨s, hs, -, hcredential, hprovider, hchallenge⟩, hverifier⟩ := h.tasks _ htask
      refine h.store hstores hissued
        ⟨⟨flow.provider, refreshToken, settings.lib.codeChallenge request.codeVerifier⟩, ?_, rfl, s,
          ?_, hcredential, hprovider, ?_⟩ ?_ ?_
      · rw [hissued]
        exact List.mem_append_right _ (List.mem_singleton.mpr rfl)
      · rw [hstores.starts]
        exact hs
      · rw [hchallenge, hverifier]
      · intro t ht
        obtain rfl := List.mem_singleton.mp ht
        exact ⟨request.code, hcode⟩
      · rw [hissued]
        exact nodup_of_isNew h.nodup hnew
  | refresh cred presented kept test t htask ht hprovider htoken hstores hissued _ =>
      obtain ⟨u, hu, hutoken, s, hs, hcredential, hsprovider, hchallenge⟩ := h.tasks _ htask
      -- the provider knows one token of this name, the one that was stored
      obtain rfl : t = u :=
        List.inj_on_of_nodup_map h.nodup ht hu (htoken.trans hutoken.symm)
      rcases hissued with ⟨rfl, hsame⟩ | ⟨hnew, hissued⟩
      · refine h.store hstores (hsame.trans (List.append_nil _).symm)
          ⟨t, hsame ▸ hu, hutoken, s, hstores.starts ▸ hs, hcredential, hsprovider, hchallenge⟩
          (fun _ h => absurd h List.not_mem_nil) (hsame ▸ h.nodup)
      · refine h.store hstores hissued
          ⟨⟨cred.provider, kept, t.codeChallenge⟩, ?_, rfl, s, hstores.starts ▸ hs, hcredential,
            hsprovider.trans hprovider, hchallenge⟩ (fun v hv => ?_) ?_
        · rw [hissued]
          exact List.mem_append_right _ (List.mem_singleton.mpr rfl)
        · obtain rfl := List.mem_singleton.mp hv
          obtain ⟨code, hcode⟩ := h.consented t ht
          exact ⟨code, hprovider ▸ hcode⟩
        · rw [hissued]
          exact nodup_of_isNew h.nodup hnew

theorem lineage_step {a : ConnectAction} (h : FlowsInv settings w ∧ LineageInv settings w)
    (hs : w.step settings a = some w') : FlowsInv settings w' ∧ LineageInv settings w' :=
  ⟨flowsInv_move h.1 (connectMove_of_step hs), lineageInv_move h.1 h.2 (connectMove_of_step hs)⟩

end Tokens

section Completes

variable {settings : ConnectSettings} {w w' : ConnectWorld}

/-- The action neither deletes the credential of the flow, nor calls back with its state, nor sweeps
it. -/
def Undisturbed (flow : OAuthPendingFlow) (w : ConnectWorld) : ConnectAction → Prop
  | .delete _ credentialId => credentialId ≠ flow.credentialId
  | .callback _ query _ => query.state ≠ some flow.state
  | .start _ _ _ _ _ => w.now ≤ flow.createdAt + hours 1
  | _ => True

/-- The flow is there, and the only one of its state. -/
structure ConnectWorld.Pending (flow : OAuthPendingFlow) (w : ConnectWorld) : Prop where
  row : flow ∈ w.db.oauthPendingFlows.rows
  only : ∀ f ∈ w.db.oauthPendingFlows.rows, f.state = flow.state → f = flow

theorem not_names_of_undisturbed {flow : OAuthPendingFlow} {a : ConnectAction}
    (h : w.Pending flow) (hok : Undisturbed flow w a) : ¬ a.Names w flow := by
  intro hnames
  cases a with
  | delete caller credentialId => exact hok (Eq.symm hnames)
  | callback provider query ip =>
      obtain ⟨g, hg, hstate, hid⟩ := hnames
      refine hok (hstate.trans ?_)
      rw [w.db.oauthPendingFlows.eq_of_key_eq hg h.row hid.symm]
  | _ => exact hnames

theorem ConnectWorld.Pending.of_same {flow : OAuthPendingFlow} (h : w.Pending flow)
    (hsame : w'.db.oauthPendingFlows = w.db.oauthPendingFlows) : w'.Pending flow :=
  ⟨hsame ▸ h.row, hsame ▸ h.only⟩

theorem ConnectWorld.Pending.drop {flow : OAuthPendingFlow} (h : w.Pending flow)
    {p : OAuthPendingFlow → Bool} (hp : p flow = false)
    (hflows : w'.db.oauthPendingFlows = w.db.oauthPendingFlows.deleteWhere p) :
    w'.Pending flow := by
  refine ⟨hflows ▸ List.mem_filter.mpr ⟨h.row, congrArg (!·) hp⟩, fun f hf hstate => ?_⟩
  rw [hflows] at hf
  exact h.only f (List.mem_filter.mp hf).1 hstate

/-- A flow that is pending stays so. -/
theorem pending_step {flow : OAuthPendingFlow} {a : ConnectAction} (h : w.Pending flow)
    (hok : Undisturbed flow w a) (hs : w.step settings a = some w') : w'.Pending flow := by
  have hnot := not_names_of_undisturbed h hok
  cases connectMove_of_step hs with
  | quiet _ hsame => exact h.of_same hsame.flows
  | drop _ p hflows _ hnamed =>
      exact h.drop (Bool.eq_false_iff.mpr fun hp => hnot (hnamed flow hp)) hflows
  | start manager credentialId provider state codeVerifier ha hfree hflows =>
      subst ha
      have hkept : decide (flow.createdAt + hours 1 < w.now) = false :=
        decide_eq_false (Nat.not_lt.mpr hok)
      have hmem : flow ∈ (w.db.sweepFlows w.now).rows :=
        List.mem_filter.mpr ⟨h.row, congrArg (!·) hkept⟩
      refine ⟨?_, fun f hf hstate => ?_⟩
      · rw [hflows]
        exact (Table.mem_insertNew _).mpr (Or.inl hmem)
      · rw [hflows] at hf
        rcases (Table.mem_insertNew _).mp hf with hf | rfl
        · exact h.only f (List.mem_filter.mp hf).1 hstate
        · -- the state of the new flow is free
          have hne := Table.first?_eq_none_iff.mp hfree flow hmem
          rw [beq_eq_false_iff_ne] at hne
          exact absurd hstate.symm hne
  | exchange other request ip hother hnamed _ hflows =>
      refine h.drop (p := fun f => f.id == other.id)
        (beq_eq_false_iff_ne.mpr fun hid => hnot ?_) hflows
      rwa [w.db.oauthPendingFlows.eq_of_key_eq h.row hother hid]
  | grant _ _ _ _ _ _ _ _ _ hsame => exact h.of_same hsame.flows
  | refresh _ _ _ _ _ _ _ _ _ _ _ hsame => exact h.of_same hsame.flows

/-- The flow of a start is pending, with what the start was asked for. -/
theorem pending_of_start {caller : Manager} {credentialId : Nat}
    {provider state codeVerifier : String} {url : AuthorizeUrl}
    (hserve : (serveStartOauth settings w.db caller w.now credentialId provider state
      codeVerifier).1 = .ok (.authorizeUrl url))
    (hs : w.step settings (.start caller credentialId provider state codeVerifier) = some w') :
    w'.Pending ⟨w.db.oauthPendingFlows.nextKey, state, credentialId, provider, codeVerifier, w.now⟩ ∧
      buildAuthorizeUrl settings.lib provider settings.oauth
        (callbackUri (settings.oauth.redirectBaseUrl.getD "") provider) state codeVerifier =
          .ok url := by
  rw [ConnectWorld.step] at hs
  cases hr : serveStartOauth settings w.db caller w.now credentialId provider state codeVerifier with
  | mk r db =>
      rw [hr] at hserve hs
      obtain rfl : r = .ok (.authorizeUrl url) := hserve
      obtain rfl := Option.some.inj hs
      rcases serveStart_cases hr with ⟨e, he, -⟩ | ⟨url', hurl, hbuild, hfree, -, -, hflows⟩
      · cases he
      · obtain rfl : url = url' := CredentialResponse.authorizeUrl.inj (Except.ok.inj hurl)
        refine ⟨⟨?_, fun f hf hstate => ?_⟩, hbuild⟩
        · rw [show ConnectWorld.db _ = db from rfl, hflows]
          exact (Table.mem_insertNew _).mpr (Or.inr rfl)
        · rw [show ConnectWorld.db _ = db from rfl, hflows] at hf
          rcases (Table.mem_insertNew _).mp hf with hf | rfl
          · have hne := Table.first?_eq_none_iff.mp hfree f hf
            rw [beq_eq_false_iff_ne] at hne
            exact absurd hstate hne
          · rfl

/-- The callback of a flow that is pending presents the code with its verifier. -/
theorem oauthCallback_of_pending {flow : OAuthPendingFlow} (h : w.Pending flow) {code : String}
    (hcode : code ≠ "") (hstate : flow.state ≠ "") {client : OAuthClient}
    (hclient : oauthClient flow.provider settings.oauth
      (callbackUri (settings.oauth.redirectBaseUrl.getD "") flow.provider) = .ok client) :
    ∃ db, oauthCallback settings w.db flow.provider
        { code := some code, state := some flow.state } =
      (.exchange flow ⟨client, code, flow.codeVerifier⟩, db) := by
  have hgiven : given (some code) = some code := Option.filter_some_pos (decide_eq_true hcode)
  have hgiven' : given (some flow.state) = some flow.state :=
    Option.filter_some_pos (decide_eq_true hstate)
  have hfound : (w.db.oauthPendingFlows.first? fun f => f.state == flow.state) = some flow := by
    cases hfirst : w.db.oauthPendingFlows.first? fun f => f.state == flow.state with
    | none =>
        have hne := Table.first?_eq_none_iff.mp hfirst flow h.row
        simp at hne
    | some f =>
        obtain ⟨hsame, hget⟩ := Table.first?_spec hfirst
        rw [h.only f (Table.get?_mem hget) (beq_iff_eq.mp hsame)]
  have hrequest : exchangeRequest flow.provider settings.oauth
      (callbackUri (settings.oauth.redirectBaseUrl.getD "") flow.provider) code flow.codeVerifier =
        .ok ⟨client, code, flow.codeVerifier⟩ := by
    unfold exchangeRequest
    rw [hclient]
    rfl
  unfold oauthCallback
  dsimp only
  rw [hgiven, hgiven']
  dsimp only [given, Option.filter, Option.or]
  unfold CredentialDb.consumeOauthFlow
  rw [hfound]
  dsimp only
  rw [if_neg (not_not.mpr rfl), hrequest]
  exact ⟨_, rfl⟩

theorem oauthClient_of_build {provider redirectUri state codeVerifier : String}
    {url : AuthorizeUrl}
    (h : buildAuthorizeUrl settings.lib provider settings.oauth redirectUri state codeVerifier =
      .ok url) :
    oauthClient provider settings.oauth redirectUri = .ok url.client ∧ url.state = state ∧
      url.codeChallenge = settings.lib.codeChallenge codeVerifier := by
  unfold buildAuthorizeUrl at h
  cases hclient : oauthClient provider settings.oauth redirectUri with
  | error e =>
      rw [hclient] at h
      cases h
  | ok client =>
      rw [hclient] at h
      obtain rfl := Except.ok.inj h
      exact ⟨rfl, rfl, rfl⟩

/-- The row of a credential when it has been connected. -/
def SMTPCredential.connected (keys : EncKeys) (accessToken refreshToken : String)
    (expiresAt : Option Time) (c : SMTPCredential) : SMTPCredential :=
  { c with
    accessTokenEncrypted := some (encryptPassword accessToken keys)
    refreshTokenEncrypted := some (encryptPassword refreshToken keys)
    tokenExpiresAt := expiresAt, isActive := true }

theorem credential?_finishCallback {db : CredentialDb} {flow : OAuthPendingFlow}
    {ip : Option String} {now : Time} {accessToken refreshToken : String}
    {expiresAt : Option Time} (hrefresh : refreshToken ≠ "") :
    (finishCallback settings db flow ip now
        (.tokens accessToken (some refreshToken) expiresAt)).2.outreach.credential?
          flow.credentialId =
      (db.outreach.credential? flow.credentialId).map
        (SMTPCredential.connected settings.keys accessToken refreshToken expiresAt) := by
  have hgiven : given (some refreshToken) = some refreshToken :=
    Option.filter_some_pos (decide_eq_true hrefresh)
  rw [finishCallback_of_some hgiven]
  refine (OutreachDb.credential?_updateCredentialWhere _ _ _ _ _).trans ?_
  rw [if_pos rfl, OutreachDb.updateCredentialTokens, OutreachDb.credential?_updateCredentialWhere,
    if_pos rfl, Option.map_map]
  rfl

theorem getValidAccessToken_eq_live {cred : Credential} {accessToken : String} (expiresAt : Time)
    {now : Time} {config : OAuthConfig}
    (haccess : cred.accessToken.filter (· ≠ "") = some accessToken)
    (hexpires : cred.tokenExpiresAt.filter (now + refreshLeeway < ·) = some expiresAt) :
    getValidAccessToken cred config now = .live accessToken := by
  unfold getValidAccessToken
  rw [haccess, hexpires]

/-- Until shortly before its expiry, a send takes the new token as it is. -/
theorem live_of_connected {keys : EncKeys} {c : SMTPCredential} {d : Credential}
    {accessToken refreshToken : String} {expiresAt now : Time} {config : OAuthConfig}
    (hd : credentialSendDict keys (c.connected keys accessToken refreshToken (some expiresAt)) =
      .ok d) (haccess : accessToken ≠ "") (hnow : now + refreshLeeway < expiresAt) :
    getValidAccessToken d config now = .live accessToken := by
  refine getValidAccessToken_eq_live expiresAt ?_ ?_
  · rw [credentialSendDict_eq_ok hd]
    exact Option.filter_some_pos (decide_eq_true haccess)
  · rw [credentialSendDict_eq_ok hd]
    exact Option.filter_some_pos (decide_eq_true hnow)

end Completes

/-- **A connect that is left alone completes**: whatever else happens meanwhile, the callback
presents its code for the address the manager was given, with its verifier; and when the provider
answers with tokens, the credential has them, is active, and sends with them until they expire. -/
theorem connect_completes (settings : ConnectSettings) {w w₁ w₂ : ConnectWorld} (caller : Manager)
    (credentialId : Nat) (provider state codeVerifier : String) (url : AuthorizeUrl)
    (hserve : (serveStartOauth settings w.db caller w.now credentialId provider state
      codeVerifier).1 = .ok (.authorizeUrl url))
    (hs : w.step settings (.start caller credentialId provider state codeVerifier) = some w₁)
    (as : List ConnectAction)
    (hm : Meets (ConnectWorld.step settings) (Undisturbed ⟨w.db.oauthPendingFlows.nextKey, state,
      credentialId, provider, codeVerifier, w.now⟩) w₁ as)
    (hr : run (ConnectWorld.step settings) w₁ as = some w₂) (code : String) (hcode : code ≠ "")
    (hstate : state ≠ "") :
    url.state = state ∧ url.codeChallenge = settings.lib.codeChallenge codeVerifier ∧
      ∃ flow db, flow.credentialId = credentialId ∧
        oauthCallback settings w₂.db provider { code := some code, state := some state } =
          (.exchange flow ⟨url.client, code, codeVerifier⟩, db) ∧
        ∀ (db : CredentialDb) (c : SMTPCredential) (ip : Option String) (now : Time)
          (accessToken refreshToken : String) (expiresAt : Option Time),
          db.outreach.credential? credentialId = some c → refreshToken ≠ "" →
          (finishCallback settings db flow ip now
              (.tokens accessToken (some refreshToken) expiresAt)).2.outreach.credential?
                credentialId =
            some (c.connected settings.keys accessToken refreshToken expiresAt) ∧
          ∀ d later expires, expiresAt = some expires → accessToken ≠ "" →
            credentialSendDict settings.keys
              (c.connected settings.keys accessToken refreshToken expiresAt) = .ok d →
            later + refreshLeeway < expires →
            getValidAccessToken d settings.oauth.toOAuthConfig later = .live accessToken := by
  obtain ⟨hpending, hbuild⟩ := pending_of_start hserve hs
  obtain ⟨hclient, hurl, hchallenge⟩ := oauthClient_of_build hbuild
  have hpending₂ := run_invariant (fun _ _ _ => pending_step) hpending hm hr
  obtain ⟨db, hcallback⟩ := oauthCallback_of_pending hpending₂ hcode hstate hclient
  refine ⟨hurl, hchallenge, _, db, rfl, hcallback,
    fun db c ip now accessToken refreshToken expiresAt hrow hrefresh => ⟨?_, ?_⟩⟩
  · refine (credential?_finishCallback hrefresh).trans ?_
    rw [hrow]
    rfl
  · rintro d later expires rfl haccess hd hlater
    exact live_of_connected hd haccess hlater

/-! ### One mailbox -/

def mailboxSettings : ConnectSettings where
  keys := { primary := "k1" }
  oauth := { clientIds := [("google", "app")], redirectBaseUrl := some "https://cloud.x.org" }
  lib := { codeChallenge := fun v => "S256:" ++ v, title := id }

def mailboxManager : Manager where
  user := { id := 1, email := "root@x.org", isAdmin := true }
  allowed := rfl

def noCredentials : ConnectWorld where
  now := 0
  db := { outreach := ⟨Table.empty, Table.empty, Table.empty, Table.empty, Table.empty⟩ }

theorem lineage_noCredentials :
    FlowsInv mailboxSettings noCredentials ∧ LineageInv mailboxSettings noCredentials :=
  ⟨⟨fun _ h => absurd h List.not_mem_nil, fun _ h => absurd h List.not_mem_nil, List.nodup_nil,
      fun _ h => absurd h List.not_mem_nil, List.nodup_nil⟩,
    ⟨fun _ h => absurd h List.not_mem_nil, fun _ h => absurd h List.not_mem_nil,
      fun _ h => absurd h List.not_mem_nil, List.nodup_nil⟩⟩

/-- A mailbox without a password, for the account that is about to consent. -/
def newMailbox : ConnectAction :=
  .create mailboxManager ⟨{ host := "smtp.x.org", port := 587, username := "news@x.org",
                            provider := "google" }, by decide⟩

def connectMailbox : ConnectAction := .start mailboxManager 1 "google" "st" "ver"

/-- The callback is called twice, and the provider asked once. -/
def mailboxHistory : List ConnectAction :=
  [newMailbox, connectMailbox, .consent ⟨"google", "c0de", "S256:ver"⟩,
    .callback "google" { code := some "c0de", state := some "st" } none,
    .callback "google" { code := some "other", state := some "st" } none,
    .answer 0 (.tokens "ya29" (some "1//r") (some 3600))]

theorem connect_completes_mailbox :
    ∃ w w₁ w₂ url flow db,
      run (ConnectWorld.step mailboxSettings) noCredentials [newMailbox] = some w ∧
      w.step mailboxSettings connectMailbox = some w₁ ∧
      run (ConnectWorld.step mailboxSettings) w₁ [.tick 5, newMailbox] = some w₂ ∧
      oauthCallback mailboxSettings w₂.db "google" { code := some "c0de", state := some "st" } =
        (.exchange flow ⟨url, "c0de", "ver"⟩, db) := by
  obtain ⟨-, -, flow, db, -, hcallback, -⟩ :=
    connect_completes mailboxSettings mailboxManager 1 "google" "st" "ver" _ rfl rfl
      (w := { noCredentials with
        db := (serveCreateCredential mailboxSettings noCredentials.db mailboxManager 0
          ⟨{ host := "smtp.x.org", port := 587, username := "news@x.org",
              provider := "google" }, by decide⟩).2 })
      [.tick 5, newMailbox] ⟨trivial, trivial, trivial⟩ rfl "c0de" (by decide) (by decide)
  exact ⟨_, _, _, _, flow, db, rfl, rfl, rfl, hcallback⟩

end GovCrawler
