/-
The scores of leads, while the weights have changed and all of them are computed again.

`_recompute_lead_scores` selects all leads and then updates one row after another, in one
transaction; captures, edits and uploads go on beside it.  A row that it has updated is
locked until it commits, and a call that would change the row waits.  No call reads a score,
so an update shows at once here.

What it writes is the score of the row that it selected.  A call that comes in between gives
the row the right score, and the update takes that back.
-/
import GovCrawler.Leads.ManualUpload
import GovCrawler.Lib.Transition

namespace GovCrawler

open Relational StoreProgram Prog Transition

/-! ### `update_lead` -/

/-- `_LEAD_EDITABLE`. -/
def leadEditable : List String := ["person_name", "designation", "department", "manual_state"]

/-- A value as it is set; `none` is one that is not a string. -/
def editedValue (value : Option String) : Option String :=
  value.bind fun v => if strip v = "" then none else some (strip v)

/-- `setattr`. -/
def Lead.setField (lead : Lead) : String × Option String → Lead
  | ("person_name", v) => { lead with personName := v }
  | ("designation", v) => { lead with designation := v }
  | ("department", v) => { lead with department := v }
  | ("manual_state", v) => { lead with manualState := v }
  | _ => lead

theorem Lead.setField_id (lead : Lead) (kv : String × Option String) :
    (lead.setField kv).id = lead.id := by
  unfold Lead.setField
  split <;> rfl

/-- The score that the lead's own fields give. -/
def Lead.score (weights : ScoreWeights) (lead : Lead) : Int :=
  computeLeadScore (some lead.email) lead.phone lead.personName lead.designation
    lead.confidenceBand lead.channelTag weights

/-- The lead has the score that its fields give. -/
def Lead.Coherent (weights : ScoreWeights) (lead : Lead) : Prop :=
  lead.leadScore = lead.score weights

instance (weights : ScoreWeights) (lead : Lead) : Decidable (lead.Coherent weights) :=
  inferInstanceAs (Decidable (_ = _))

/-- An edited lead. -/
def Lead.edit (weights : ScoreWeights) (safe : List (String × Option String)) (lead : Lead) :
    Lead :=
  let edited := safe.foldl Lead.setField lead
  { edited with leadScore := edited.score weights }

theorem Lead.edit_id (weights : ScoreWeights) (safe : List (String × Option String)) (lead : Lead) :
    (lead.edit weights safe).id = lead.id := by
  show (safe.foldl Lead.setField lead).id = lead.id
  induction safe generalizing lead with
  | nil => rfl
  | cons kv safe ih => exact (ih (lead.setField kv)).trans (lead.setField_id kv)

/-- What `update_lead` returns. -/
inductive EditResult
  /-- `True`. -/
  | edited
  /-- `False`. -/
  | notFound
  /-- `"not_manual"`. -/
  | notManual
  deriving DecidableEq, Repr

def updateLead (rules : LeadRules) (leadId : Nat) (updates : List (String × Option String)) :
    LeadM EditResult :=
  let safe := (updates.filter fun kv => leadEditable.contains kv.1).map fun kv =>
    (kv.1, editedValue kv.2)
  if safe.isEmpty then pure .notFound
  else do
    match ← read fun db => db.leads.get? leadId with
    | none => pure .notFound
    | some lead =>
        if safe.any (fun kv => kv.1 == "manual_state") && lead.channelTag != some "manual" then
          pure .notManual
        else do
          write fun db => { db with
            leads := db.leads.updateWhere (fun l => l.id == leadId) (Lead.edit rules.weights safe)
              (Lead.edit_id rules.weights safe) }
          pure .edited

/-! ### Recomputing beside the calls -/

/-- A call that writes leads, with the failures of its calls to the database. -/
inductive LeadCall
  | save (jobId : Nat) (capturedBy : Option Nat) (item : LeadItem)
      (faults : List (Option LeadExc))
  | edit (leadId : Nat) (updates : List (String × Option String)) (faults : List (Option LeadExc))
  | upload (jobId : Nat) (rows : List ManualRow) (capturedBy : Option Nat)
      (faults : List (Option LeadExc))

/-- What the call leaves. -/
def LeadCall.serve (rules : LeadRules) (db : LeadsDb) : LeadCall → LeadsDb
  | .save jobId capturedBy item faults => (saveLead rules jobId capturedBy item db faults).2.1
  | .edit leadId updates faults => (updateLead rules leadId updates db faults).2.1
  | .upload jobId rows capturedBy faults =>
      (bulkUpsertManualLeads rules jobId rows capturedBy db faults).2.1

/-- Where `_recompute_lead_scores` is. -/
inductive RescorePhase
  | waiting
  /-- The selected rows that are left, and the keys of those that are updated. -/
  | running (left : List Lead) (locked : List Nat)
  | committed

structure Rescoring where
  db : LeadsDb
  phase : RescorePhase := .waiting

inductive RescoreAction
  | select
  | update
  | commit
  | call (c : LeadCall)

namespace Rescoring

variable (rules : LeadRules) (s : Rescoring)

/-- The rows that are locked. -/
def locked : List Nat :=
  match s.phase with
  | .running _ locked => locked
  | _ => []

/-- `UPDATE leads SET lead_score = :score WHERE id = :id`, with the score of the selected row. -/
def rescore (row : Lead) : LeadsDb :=
  { s.db with
    leads := s.db.leads.updateWhere (fun l => l.id == row.id)
      (fun l => { l with leadScore := row.score rules.weights }) (by intro _; rfl) }

def step : RescoreAction → Option Rescoring
  | .select =>
      match s.phase with
      | .waiting => some { s with phase := .running s.db.leads.rows [] }
      | _ => none
  | .update =>
      match s.phase with
      | .running (row :: left) locked =>
          some { db := s.rescore rules row, phase := .running left (row.id :: locked) }
      | _ => none
  | .commit =>
      match s.phase with
      | .running [] _ => some { s with phase := .committed }
      | _ => none
  | .call c =>
      let db := c.serve rules s.db
      if s.locked.all fun id => db.leads.get? id == s.db.leads.get? id then some { s with db }
      else none

/-- The row that is updated next has changed since it was selected, so that it scores
otherwise. -/
def stale : Bool :=
  match s.phase with
  | .running (row :: _) _ =>
      (s.db.leads.get? row.id).any fun l => l.score rules.weights != row.score rules.weights
  | _ => false

/-- No row is updated that scores otherwise by then. -/
def Timely (s : Rescoring) (a : RescoreAction) : Prop := a = .update → s.stale rules = false

end Rescoring

/-! ### What a call leaves -/

/-- Every lead is as it was, or has its score. -/
def Rescored (weights : ScoreWeights) (before db : LeadsDb) : Prop :=
  ∀ l ∈ db.leads.rows, l.Coherent weights ∨ l ∈ before.leads.rows

section Calls

variable {rules : LeadRules} {before db : LeadsDb}

theorem rescored_ofLeads (weights : ScoreWeights) (before : LeadsDb) :
    OfLeads (Rescored weights before) := by
  intro db db' hsame h l hl
  rw [hsame.1] at hl
  exact h l hl

theorem Rescored.updateWhere {weights : ScoreWeights} (h : Rescored weights before db)
    (p : Lead → Bool) {f : Lead → Lead} {hf : ∀ l, Keyed.key (f l) = Keyed.key l}
    (hcoherent : ∀ l, (f l).Coherent weights) :
    Rescored weights before { db with leads := db.leads.updateWhere p f hf } := by
  intro l' hl'
  obtain ⟨l, hl, rfl⟩ := List.mem_map.mp hl'
  by_cases hp : p l = true
  · rw [if_pos hp]
    exact Or.inl (hcoherent l)
  · rw [if_neg hp]
    exact h l hl

theorem Rescored.insertNew {weights : ScoreWeights} (h : Rescored weights before db)
    {mk : Nat → Lead} {hmk : ∀ n, Keyed.key (mk n) = n} (hcoherent : ∀ n, (mk n).Coherent weights) :
    Rescored weights before { db with leads := db.leads.insertNew mk hmk } := by
  intro l hl
  have hl : l ∈ (db.leads.insertNew mk hmk).rows := hl
  rcases (Table.mem_insertNew _).mp hl with hold | rfl
  · exact h l hold
  · exact Or.inl (hcoherent _)

theorem rescored_stable (rules : LeadRules) (before : LeadsDb) :
    Stable rules (Rescored rules.weights before) where
  snapshot := (rescored_ofLeads _ _).snapshot
  occurrence := (rescored_ofLeads _ _).occurrence
  lead hadd h := by
    obtain ⟨-, -, rfl⟩ := addLead_eq hadd
    exact h.insertNew fun _ => rfl
  enrich id item h := h.updateWhere _ fun _ => rfl

theorem rescored_stableForUploads (rules : LeadRules) (before : LeadsDb) :
    StableForUploads rules (Rescored rules.weights before) where
  occurrence := (rescored_ofLeads _ _).occurrence
  lead hadd h := by
    obtain ⟨-, rfl⟩ := addManualLead_eq hadd
    exact h.insertNew fun _ => rfl
  overwrite id row h := h.updateWhere _ fun _ => rfl

theorem updateLead_rescored (leadId : Nat) (updates : List (String × Option String)) :
    Preserves (Rescored rules.weights before) (updateLead rules leadId updates) := by
  unfold updateLead
  dsimp only
  split
  · exact preserves_pure _
  · refine preserves_bind (preserves_read _) fun found => ?_
    cases found with
    | none => exact preserves_pure _
    | some lead =>
        dsimp only
        split
        · exact preserves_pure _
        · exact preserves_bind (preserves_write fun db h => h.updateWhere _ fun _ => rfl)
            fun _ => preserves_pure _

/-- **A call scores what it writes**: each lead that it leaves was there, or has the score
of its fields. -/
theorem LeadCall.rescored (c : LeadCall) (rules : LeadRules) (db : LeadsDb) :
    Rescored rules.weights db (c.serve rules db) := by
  have hrefl : Rescored rules.weights db db := fun _ hl => Or.inr hl
  cases c with
  | save jobId capturedBy item faults =>
      exact saveLead_preserves (rescored_stable rules db) db faults hrefl
  | edit leadId updates faults => exact updateLead_rescored leadId updates db faults hrefl
  | upload jobId rows capturedBy faults =>
      exact bulkUpsertManualLeads_preserves (rescored_stableForUploads rules db) rows db faults
        hrefl

end Calls

/-! ### Runs -/

namespace Rescoring

variable {rules : LeadRules} {s s' : Rescoring}

/-- Every step is one of these. -/
inductive Steps (rules : LeadRules) (s : Rescoring) : RescoreAction → Rescoring → Prop
  | select (hphase : s.phase = .waiting) :
      Steps rules s .select { s with phase := .running s.db.leads.rows [] }
  | update {row : Lead} {left : List Lead} {locked : List Nat}
      (hphase : s.phase = .running (row :: left) locked) :
      Steps rules s .update
        { db := s.rescore rules row, phase := .running left (row.id :: locked) }
  | commit {locked : List Nat} (hphase : s.phase = .running [] locked) :
      Steps rules s .commit { s with phase := .committed }
  | call (c : LeadCall)
      (hlocks : ∀ id ∈ s.locked, (c.serve rules s.db).leads.get? id = s.db.leads.get? id) :
      Steps rules s (.call c) { s with db := c.serve rules s.db }

theorem steps_of_step {a : RescoreAction} (h : s.step rules a = some s') : Steps rules s a s' := by
  cases a with
  | select =>
      dsimp only [step] at h
      split at h
      · rename_i hphase
        obtain rfl := Option.some.inj h
        exact .select hphase
      · cases h
  | update =>
      dsimp only [step] at h
      split at h
      · rename_i row left locked hphase
        obtain rfl := Option.some.inj h
        exact .update hphase
      · cases h
  | commit =>
      dsimp only [step] at h
      split at h
      · rename_i locked hphase
        obtain rfl := Option.some.inj h
        exact .commit hphase
      · cases h
  | call c =>
      dsimp only [step] at h
      split at h
      · rename_i hlocks
        obtain rfl := Option.some.inj h
        exact .call c fun id hid => beq_iff_eq.mp (List.all_eq_true.mp hlocks id hid)
      · cases h

/-- A row after the update of another, or its own. -/
theorem get?_rescore (row : Lead) (id : Nat) :
    (s.rescore rules row).leads.get? id = (s.db.leads.get? id).map fun l =>
      if l.id == row.id then { l with leadScore := row.score rules.weights } else l :=
  Table.get?_updateWhere _ _ _ (by intro _; rfl) _

theorem stale_eq {row : Lead} {left : List Lead} {locked : List Nat}
    (hphase : s.phase = .running (row :: left) locked) :
    s.stale rules = (s.db.leads.get? row.id).any fun l =>
      l.score rules.weights != row.score rules.weights := by
  unfold stale
  rw [hphase]

/-! #### Every update is timely -/

/-- Every lead has its score, or is still to be updated. -/
def Covered (rules : LeadRules) (s : Rescoring) : Prop :=
  match s.phase with
  | .waiting => True
  | .running left _ =>
      ∀ l ∈ s.db.leads.rows, l.Coherent rules.weights ∨ ∃ row ∈ left, row.id = l.id
  | .committed => ∀ l ∈ s.db.leads.rows, l.Coherent rules.weights

theorem covered_step {a : RescoreAction} (h : s.Covered rules) (ha : s.Timely rules a)
    (hs : s.step rules a = some s') : s'.Covered rules := by
  cases steps_of_step hs with
  | select hphase => exact fun l hl => Or.inr ⟨l, hl, rfl⟩
  | @update row left locked hphase =>
      have htimely := ha rfl
      unfold Covered at h
      rw [hphase] at h
      rw [stale_eq hphase] at htimely
      intro l' hl'
      obtain ⟨l, hl, rfl⟩ := List.mem_map.mp hl'
      by_cases hid : l.id = row.id
      · -- the row scores what is written
        have hget : s.db.leads.get? row.id = some l := hid ▸ Table.get?_of_mem hl
        rw [hget] at htimely
        have hscore : l.score rules.weights = row.score rules.weights := by simpa using htimely
        rw [if_pos (beq_iff_eq.mpr hid)]
        exact Or.inl hscore.symm
      · rw [if_neg fun heq => hid (beq_iff_eq.mp heq)]
        refine (h l hl).imp_right ?_
        rintro ⟨row', hrow', heq⟩
        rcases List.mem_cons.mp hrow' with rfl | hleft
        · exact absurd heq.symm hid
        · exact ⟨row', hleft, heq⟩
  | commit hphase =>
      unfold Covered at h
      rw [hphase] at h
      intro l hl
      rcases h l hl with hcoherent | ⟨row, hrow, -⟩
      · exact hcoherent
      · cases hrow
  | call c hlocks =>
      have hrescored := c.rescored rules s.db
      unfold Covered at h ⊢
      dsimp only
      split at h
      · trivial
      · intro l hl
        exact (hrescored l hl).elim Or.inl fun hold => h l hold
      · intro l hl
        exact (hrescored l hl).elim id fun hold => h l hold

/-! #### Some update is not -/

/-- Each row is selected once. -/
def Selected (s : Rescoring) : Prop :=
  match s.phase with
  | .running left locked => (left.map Lead.id).Nodup ∧ ∀ id ∈ locked, id ∉ left.map Lead.id
  | _ => True

theorem selected_step {a : RescoreAction} (h : s.Selected) (hs : s.step rules a = some s') :
    s'.Selected := by
  cases steps_of_step hs with
  | select => exact ⟨s.db.leads.nodup_keys, fun _ hid => nomatch hid⟩
  | update hphase =>
      unfold Selected at h
      rw [hphase] at h
      obtain ⟨hnodup, hlocked⟩ := h
      rw [List.map_cons, List.nodup_cons] at hnodup
      refine ⟨hnodup.2, fun id hid => ?_⟩
      rcases List.mem_cons.mp hid with rfl | hold
      · exact hnodup.1
      · exact fun hmem => hlocked id hold (List.mem_cons_of_mem _ hmem)
  | commit => trivial
  | call => exact h

/-- A locked row has the score of another, until all is over. -/
def Wrong (rules : LeadRules) (s : Rescoring) : Prop :=
  s.Selected ∧ (s.phase = .committed ∨
    ∃ id ∈ s.locked, ∃ l, s.db.leads.get? id = some l ∧ ¬ l.Coherent rules.weights)

theorem wrong_step {a : RescoreAction} (h : s.Wrong rules) (hs : s.step rules a = some s') :
    s'.Wrong rules := by
  obtain ⟨hselected, hwrong⟩ := h
  refine ⟨selected_step hselected hs, ?_⟩
  cases steps_of_step hs with
  | select hphase =>
      rcases hwrong with hover | ⟨id, hid, -⟩
      · cases hover.symm.trans hphase
      · unfold locked at hid
        rw [hphase] at hid
        cases hid
  | @update row left locked hphase =>
      rcases hwrong with hover | ⟨id, hid, l, hget, hl⟩
      · cases hover.symm.trans hphase
      · unfold Rescoring.locked at hid
        unfold Selected at hselected
        rw [hphase] at hid hselected
        refine Or.inr ⟨id, List.mem_cons_of_mem _ hid, l, ?_, hl⟩
        have hother : l.id ≠ row.id := by
          intro heq
          refine hselected.2 id hid ?_
          rw [← Table.get?_key hget]
          exact List.mem_cons.mpr (Or.inl heq)
        rw [get?_rescore, hget, Option.map_some, if_neg fun heq => hother (beq_iff_eq.mp heq)]
  | commit => exact Or.inl rfl
  | call c hlocks =>
      refine hwrong.imp id ?_
      rintro ⟨id, hid, l, hget, hl⟩
      exact ⟨id, hid, l, (hlocks id hid).trans hget, hl⟩

/-- A late update leaves a wrong score, and locks the row with it. -/
theorem wrong_of_late {a : RescoreAction} (h : s.Selected) (ha : ¬ s.Timely rules a)
    (hs : s.step rules a = some s') : s'.Wrong rules := by
  refine ⟨selected_step h hs, Or.inr ?_⟩
  obtain ⟨rfl, hstale⟩ := Classical.not_imp.mp ha
  have hstale : s.stale rules = true := by simpa using hstale
  cases steps_of_step hs with
  | @update row left locked hphase =>
      rw [stale_eq hphase] at hstale
      obtain ⟨l, hget, hne⟩ := (Option.any_eq_true _ _).mp hstale
      have hid : l.id = row.id := Table.get?_key hget
      refine ⟨row.id, List.mem_cons_self .., { l with leadScore := row.score rules.weights }, ?_, ?_⟩
      · rw [get?_rescore, hget, Option.map_some, if_pos (beq_iff_eq.mpr hid)]
      · intro hcoherent
        have heq : row.score rules.weights = l.score rules.weights := hcoherent
        simp [heq] at hne

/-- After the commit, calls keep every score. -/
theorem coherent_run (h : s.phase = .committed) (hs : ∀ l ∈ s.db.leads.rows, l.Coherent rules.weights)
    {bs : List RescoreAction} {u : Rescoring} (hr : run (Rescoring.step rules) s bs = some u) :
    ∀ l ∈ u.db.leads.rows, l.Coherent rules.weights := by
  have hstep : ∀ (v : Rescoring) (a : RescoreAction) (v' : Rescoring),
      (v.phase = .committed ∧ v.Covered rules) → v.step rules a = some v' →
      v'.phase = .committed ∧ v'.Covered rules := by
    rintro v a v' ⟨hphase, hcovered⟩ hs
    have htimely : v.Timely rules a := by
      rintro rfl
      unfold stale
      rw [hphase]
    refine ⟨?_, covered_step hcovered htimely hs⟩
    cases steps_of_step hs with
    | select hother | update hother | commit hother => cases hphase.symm.trans hother
    | call c hlocks => exact hphase
  have h0 : s.Covered rules := by
    unfold Covered
    rw [h]
    exact hs
  obtain ⟨hphase, hcovered⟩ := run_invariant' hstep ⟨h, h0⟩ hr
  unfold Covered at hcovered
  rw [hphase] at hcovered
  exact hcovered

end Rescoring

/--
**Scores after a recomputation.**  In every run of a recomputation beside captures, edits and
uploads, up to its commit: from the commit on every lead has the score of its own fields,
whatever calls follow, if and only if no row was updated that scored otherwise by then than
when it was selected.
-/
theorem rescored_coherent_iff (rules : LeadRules) (db : LeadsDb) (as : List RescoreAction)
    (s t : Rescoring) (hrun : run (Rescoring.step rules) { db } as = some s)
    (hcommit : s.step rules .commit = some t) :
    (∀ bs u, run (Rescoring.step rules) t bs = some u →
        ∀ l ∈ u.db.leads.rows, l.Coherent rules.weights) ↔
      Meets (Rescoring.step rules) (Rescoring.Timely rules) { db } as := by
  cases Rescoring.steps_of_step hcommit with
  | @commit locked hphase =>
      constructor
      · intro hcoherent
        refine Meets.of_latch_of_inv (fun _ _ _ => Rescoring.selected_step)
          (fun _ _ _ => Rescoring.wrong_of_late) (fun _ _ _ => Rescoring.wrong_step) ?_ hrun ?_
        · trivial
        · rintro ⟨-, hover | ⟨id, -, l, hget, hl⟩⟩
          · cases hover.symm.trans hphase
          · exact hl (hcoherent [] _ rfl l (Table.get?_mem hget))
      · intro htimely bs u hbs
        have h0 : Rescoring.Covered rules { db } := trivial
        have hcovered : s.Covered rules :=
          run_invariant (fun _ _ _ h ha hs => Rescoring.covered_step h ha hs) h0 htimely hrun
        have hlast : s.Timely rules .commit := fun heq => nomatch heq
        exact Rescoring.coherent_run rfl (Rescoring.covered_step hcovered hlast hcommit) hbs

/-! A lead with a name, when a name has come to weigh 40 and a phone 10. -/

def nagarRules : LeadRules where
  lower := id
  netloc := fun _ => none
  loads := fun _ => .malformed

/-- The crawled lead, with its old score. -/
def nagarLead : Lead where
  id := 1
  jobId := 1
  snapshotId := none
  email := "clerk@nagar.gov.in"
  personName := some "A. Rao"
  designation := none
  department := none
  sourceUrl := "https://nagar.gov.in"
  sourceTitle := none
  contextSnippet := none
  entityKind := none
  phone := none
  channelTag := none
  confidenceBand := some "HIGH"
  fieldProvenance := none
  leadScore := 90

def nagarDb : LeadsDb where
  leads := ⟨[nagarLead], 2, List.pairwise_singleton _ _, by decide⟩
  jobs := ⟨[⟨1, none⟩], 2, oneJob_sorted, oneJob_bounded⟩

/-- The lead is captured again, now with a phone. -/
def capturePhone : RescoreAction :=
  .call (.save 1 none
    { snapshotId := none, email := some "clerk@nagar.gov.in", phone := some "011-2301"
      sourceUrl := "https://nagar.gov.in/contact" } [])

theorem clerk_rescored :
    ∃ s t, run (Rescoring.step nagarRules) { db := nagarDb } [.select, .update] = some s ∧
      s.step nagarRules .commit = some t ∧ t.db.leads.rows.map Lead.leadScore = [60] ∧
      ∀ l ∈ t.db.leads.rows, l.Coherent nagarRules.weights := by
  refine ⟨_, _, rfl, rfl, by decide +kernel, ?_⟩
  exact (rescored_coherent_iff nagarRules nagarDb [.select, .update] _ _ rfl rfl).mpr
    ⟨nofun, fun _ => by decide +kernel, trivial⟩ [] _ rfl

/-- The phone comes between the selection and the update. -/
theorem clerk_score_lost :
    ∃ s t, run (Rescoring.step nagarRules) { db := nagarDb } [.select, capturePhone, .update] =
        some s ∧
      s.step nagarRules .commit = some t ∧
      t.db.leads.rows.map (fun l => (l.phone, l.leadScore, l.score nagarRules.weights)) =
        [(some "011-2301", 60, 70)] ∧
      ∃ l ∈ t.db.leads.rows, ¬ l.Coherent nagarRules.weights := by
  refine ⟨_, _, rfl, rfl, by decide +kernel, _, List.mem_cons_self .., by decide +kernel⟩

end GovCrawler
