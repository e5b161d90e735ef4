/-
Saving settings, and what a failure in the middle of it leaves behind.

`save_config` writes the row first, then the file, then the configuration in memory.  Nothing
takes the row back when a later step fails, so a save is all or nothing exactly if no step after
the row's fails, or the row was what it became, and so was what came after it.

The edit of the policy is a list of statements along paths that do not meet: each does what it
would do alone, what it does stays done, and all of them together change nothing only if none
of them does.
-/
import GovCrawler.Settings.Config

namespace GovCrawler

open Json StoreProgram Prog

/-! ### The statements -/

def SaveStep.shape : SaveStep → Edit
  | setdefault path => .ensure path
  | assign _ path _ => .write path none

/-- Everything the body changes of the policy. -/
def policyEdits (body : Dict) : List Edit := (containerSteps ++ fieldSteps).filterMap (SaveStep.edit body)

/-- What the body changes of the configuration of this machine. -/
def localEdits (body : Dict) : List Edit :=
  localKeys.filterMap fun key => SaveStep.edit body (.assign key.1 ["crawler", key.1] key.2)

theorem SaveStep.edit_assign (body : Dict) (bodyKey : String) (path : List String)
    (coerce : Value → Option Value) :
    (assign bodyKey path coerce).edit body =
      (body.lookup bodyKey).map fun v => .write path (coerce v) := rfl

theorem SaveStep.path_edit {body : Dict} {step : SaveStep} {e : Edit}
    (h : step.edit body = some e) : e.path = step.shape.path ∧ e.isEnsure = step.shape.isEnsure := by
  cases step with
  | setdefault path =>
      obtain rfl := Option.some.inj h
      exact ⟨rfl, rfl⟩
  | assign bodyKey path coerce =>
      obtain ⟨v, -, rfl⟩ := Option.map_eq_some_iff.mp h
      exact ⟨rfl, rfl⟩

def SaveStep.bodyKey : SaveStep → Option String
  | setdefault _ => none
  | assign bodyKey _ _ => some bodyKey

theorem pairwise_before_of_shapes {steps : List SaveStep}
    (h : (steps.map SaveStep.shape).Pairwise Edit.Before) (body : Dict) :
    (steps.filterMap (SaveStep.edit body)).Pairwise Edit.Before := by
  refine (List.pairwise_map.mp h).filterMap _ ?_
  intro s t hst e he f hf
  obtain ⟨hp, hk⟩ := SaveStep.path_edit he
  obtain ⟨hp', hk'⟩ := SaveStep.path_edit hf
  exact hst.congr hp hk hp' hk'

theorem policyEdits_before (body : Dict) : (policyEdits body).Pairwise Edit.Before :=
  pairwise_before_of_shapes (by decide +kernel) body

/-- What no statement touches whose key is in the body stays as it is. -/
theorem read_editPolicyWith {body : Dict} {steps : List SaveStep} {policy edited : Value}
    {path : List String} (keys : List String)
    (hsteps : ∀ step ∈ steps,
      step.shape.leaves path = true ∨ ∃ key ∈ keys, step.bodyKey = some key)
    (habsent : ∀ key ∈ keys, body.lookup key = none)
    (h : editPolicyWith body steps policy = some edited) :
    read path (some edited) = read path (some policy) := by
  refine read_editAll_of_leaves (fun e he => ?_) h
  obtain ⟨step, hstep, hedit⟩ := List.mem_filterMap.mp he
  obtain ⟨hp, hk⟩ := SaveStep.path_edit hedit
  rw [Edit.leaves_congr hp hk]
  rcases hsteps step hstep with hleaves | ⟨key, hkey, hbody⟩
  · exact hleaves
  · cases step with
    | setdefault path => cases hbody
    | assign bodyKey path coerce =>
        obtain rfl : bodyKey = key := Option.some.inj hbody
        rw [SaveStep.edit_assign, habsent _ hkey] at hedit
        cases hedit

/-- What a statement sets is there in the end. -/
theorem read_of_assign {body : Dict} {policy edited : Value} {bodyKey : String}
    {path : List String} {coerce : Value → Option Value} {v : Value}
    (hstep : SaveStep.assign bodyKey path coerce ∈ containerSteps ++ fieldSteps)
    (hbody : body.lookup bodyKey = some v) (h : editAll (policyEdits body) policy = some edited) :
    ∃ w, coerce v = some w ∧ read path (some edited) = some (some w) := by
  have hmem : Edit.write path (coerce v) ∈ policyEdits body := by
    refine List.mem_filterMap.mpr ⟨_, hstep, ?_⟩
    rw [SaveStep.edit_assign, hbody]
    rfl
  exact done_of_editAll (policyEdits_before body) h _ hmem

abbrev weightsPath : List String := ["lead_score", "weights"]

/-- Nothing in the body makes the edit raise. -/
def PolicyAccepts (body : Dict) (policy : Value) : Prop :=
  (∀ e ∈ policyEdits body, e.Runs policy) ∧
    ∀ weights, read weightsPath (some policy) = some (some weights) → (copyWeights weights).isSome

def LocalAccepts (body c : Dict) : Prop :=
  ∀ e ∈ localEdits body, e.Runs (.dict c) ∧ (c.lookup "crawler").isSome

/-- The body says nothing new. -/
def PolicySettled (body : Dict) (policy : Value) : Prop := ∀ e ∈ policyEdits body, e.Done policy

def LocalSettled (body c : Dict) : Prop := ∀ e ∈ localEdits body, e.Done (.dict c)

/-! ### The edit of the policy -/

section Policy

variable {body : Dict} {policy opened edited : Value} {changed : Bool}

/-- The parts of an edit. -/
theorem editPolicy_parts (h : editPolicy body policy = some (edited, changed)) :
    ∃ opened weights old new, editPolicyWith body containerSteps policy = some opened ∧
      item weightsPath opened = some weights ∧ copyWeights weights = some old ∧
      editPolicyWith body fieldSteps opened = some edited ∧ item weightsPath edited = some new ∧
      changed = weightsChanged new old := by
  unfold editPolicy at h
  obtain ⟨opened, hopened, h⟩ := Option.bind_eq_some_iff.mp h
  obtain ⟨old, hold, h⟩ := Option.bind_eq_some_iff.mp h
  obtain ⟨weights, hweights, hold⟩ := Option.bind_eq_some_iff.mp hold
  obtain ⟨edited', hedited, h⟩ := Option.bind_eq_some_iff.mp h
  obtain ⟨new, hnew, h⟩ := Option.bind_eq_some_iff.mp h
  obtain ⟨rfl, rfl⟩ := Prod.mk.inj (Option.some.inj h)
  exact ⟨opened, weights, old, new, hopened, hweights, hold, hedited, hnew, rfl⟩

theorem editAll_policyEdits (hopened : editPolicyWith body containerSteps policy = some opened) :
    editAll (policyEdits body) policy = editPolicyWith body fieldSteps opened := by
  unfold policyEdits editPolicyWith
  rw [List.filterMap_append, editAll_append]
  exact congrArg (fun o => Option.bind o _) hopened

theorem ensure_weights_mem (body : Dict) : Edit.ensure weightsPath ∈ policyEdits body :=
  List.mem_filterMap.mpr ⟨.setdefault weightsPath, by simp [containerSteps], rfl⟩

/-- The weights, once the containers are there. -/
theorem read_opened (hopened : editPolicyWith body containerSteps policy = some opened) :
    read weightsPath (some opened) =
      (read weightsPath (some policy)).map fun old => some (old.getD (.dict [])) := by
  obtain ⟨v, hv, h⟩ := Option.bind_eq_some_iff.mp hopened
  obtain ⟨w, hw, h⟩ := Option.bind_eq_some_iff.mp h
  obtain ⟨u, hu, h⟩ := Option.bind_eq_some_iff.mp h
  obtain rfl : u = opened := Option.some.inj h
  have hcrawler : read weightsPath (some v) = read weightsPath (some policy) :=
    read_update_of_apart (by decide) hv
  have hextraction : read weightsPath (some w) = read weightsPath (some v) :=
    read_update_of_apart (by decide) hw
  rw [read_update_self hu, hextraction, hcrawler]

theorem editPolicy_isSome : (editPolicy body policy).isSome ↔ PolicyAccepts body policy := by
  constructor
  · intro h
    obtain ⟨⟨edited, changed⟩, h⟩ := Option.isSome_iff_exists.mp h
    obtain ⟨opened, weights, old, new, hopened, hweights, hold, hedited, -⟩ := editPolicy_parts h
    refine ⟨(editAll_isSome (policyEdits_before body)).mp ?_, fun w hw => ?_⟩
    · rw [editAll_policyEdits hopened, hedited]
      rfl
    · unfold item at hweights
      rw [read_opened hopened, hw] at hweights
      obtain rfl : w = weights := Option.some.inj hweights
      rw [hold]
      rfl
  · rintro ⟨hruns, hcopy⟩
    have hall := (editAll_isSome (policyEdits_before body)).mpr hruns
    obtain ⟨edited, hedited⟩ := Option.isSome_iff_exists.mp hall
    have hsplit := hedited
    unfold policyEdits at hsplit
    rw [List.filterMap_append, editAll_append] at hsplit
    obtain ⟨opened, hopened, hfields⟩ := Option.bind_eq_some_iff.mp hsplit
    obtain ⟨old, hold⟩ := Option.isSome_iff_exists.mp (hruns _ (ensure_weights_mem body))
    have hweights : item weightsPath opened = some (old.getD (.dict [])) := by
      unfold item
      rw [read_opened hopened, show read weightsPath (some policy) = some old from hold]
      rfl
    have hcopied : (copyWeights (old.getD (.dict []))).isSome := by
      cases old with
      | none => rfl
      | some w => exact hcopy w hold
    obtain ⟨copied, hcopied⟩ := Option.isSome_iff_exists.mp hcopied
    obtain ⟨new, hnew⟩ := done_of_editAll (policyEdits_before body) hedited _ (ensure_weights_mem body)
    have hitem : item weightsPath edited = some new := by
      unfold item
      rw [show read weightsPath (some edited) = some (some new) from hnew]
      rfl
    unfold editPolicy
    rw [show editPolicyWith body containerSteps policy = some opened from hopened]
    simp only [Option.bind_eq_bind, Option.bind_some, hweights, hcopied,
      show editPolicyWith body fieldSteps opened = some edited from hfields, hitem]
    rfl

/-- The policy stays as it is exactly if the body says nothing new. -/
theorem edited_eq_iff (h : editPolicy body policy = some (edited, changed)) :
    edited = policy ↔ PolicySettled body policy := by
  obtain ⟨opened, weights, old, new, hopened, -, -, hedited, -⟩ := editPolicy_parts h
  unfold PolicySettled
  rw [← editAll_eq_self_iff (policyEdits_before body), editAll_policyEdits hopened, hedited]
  exact ⟨congrArg some, Option.some.inj⟩

end Policy

/-! ### The weights -/

/-- The whole number that a value is. -/
def wholeNumber (v : Value) : Option Int :=
  match v.number with
  | some (.finite q) => if q.den = 1 then some q.num else none
  | _ => none

/-- `weights[key]`. -/
def weightAt (key : String) : Value → Option Int
  | .dict d => (d.lookup key).bind wholeNumber
  | _ => none

def weightKeys : List String := ["email_high", "email_low", "person_name", "designation", "phone"]

/-- What `compute_lead_score` reads, `none` where it raises. -/
def readWeights (weights : Value) : Option ScoreWeights := do
  some { emailHigh := ← weightAt "email_high" weights, emailLow := ← weightAt "email_low" weights,
         personName := ← weightAt "person_name" weights,
         designation := ← weightAt "designation" weights, phone := ← weightAt "phone" weights }

/-- `_lead_score_weights`. -/
def leadScoreWeights (policy : Value) : Option ScoreWeights :=
  (getOr weightsPath (.dict defaultWeights) policy).bind readWeights

/-- The policy has weights, or the body gives some. -/
def NamesWeights (body : Dict) (policy : Value) : Prop :=
  (∃ weights, read weightsPath (some policy) = some (some weights)) ∨
    ∃ key ∈ weightKeys, (body.lookup ("weight_" ++ key)).isSome

theorem wholeNumber_eq_of_same {v w : Value} (h : v.same w = true) : wholeNumber v = wholeNumber w := by
  unfold wholeNumber
  rw [number_eq_of_same h]

/-- Equal dictionaries that have the same weights give the same scores. -/
theorem readWeights_eq_of_same {d e : Dict} (h : Value.same (.dict d) (.dict e) = true)
    (hkeys : ∀ key ∈ weightKeys, d.lookup key = none → e.lookup key = none) :
    readWeights (.dict d) = readWeights (.dict e) := by
  have hitems : sameItems d e = true := by
    unfold Value.same at h
    exact ((Bool.and_eq_true _ _).mp h).2
  have hat : ∀ key ∈ weightKeys, weightAt key (.dict d) = weightAt key (.dict e) := by
    intro key hkey
    show (d.lookup key).bind wholeNumber = (e.lookup key).bind wholeNumber
    cases hd : d.lookup key with
    | none => rw [hkeys key hkey hd]
    | some v =>
        obtain ⟨w, hw, hsame⟩ := exists_same_of_sameItems hitems hd
        rw [hw]
        exact wholeNumber_eq_of_same hsame
  unfold readWeights
  rw [hat _ (by decide), hat _ (by decide), hat _ (by decide), hat _ (by decide), hat _ (by decide)]

section Weights

variable {body : Dict} {policy opened edited : Value} {changed : Bool}

/-- The statement that sets a weight. -/
theorem assign_weight_mem {key : String} (hkey : key ∈ weightKeys) :
    SaveStep.assign ("weight_" ++ key) ["lead_score", "weights", key] asInt ∈ fieldSteps := by
  simp only [weightKeys, List.mem_cons, List.not_mem_nil, or_false] at hkey
  rcases hkey with rfl | rfl | rfl | rfl | rfl <;> simp [fieldSteps]

/-- Only a dictionary is copied as one. -/
theorem eq_of_copyWeights {weights : Value} {d : Dict} (h : copyWeights weights = some (some d)) :
    weights = .dict d := by
  cases weights with
  | dict e => exact congrArg Value.dict (Option.some.inj (Option.some.inj h))
  | _ =>
      dsimp only [copyWeights] at h
      split at h <;> cases h

/-- A body without weights leaves the weights as they were found or made. -/
theorem read_weights_of_absent
    (habsent : ∀ key ∈ weightKeys, body.lookup ("weight_" ++ key) = none)
    (h : editPolicyWith body fieldSteps opened = some edited) :
    read weightsPath (some edited) = read weightsPath (some opened) :=
  read_editPolicyWith (weightKeys.map fun key => "weight_" ++ key) (by decide +kernel)
    (List.forall_mem_map.mpr habsent) h

/-- No weight is taken away. -/
theorem lookup_weight_none {d e : Dict} {key : String} (hkey : key ∈ weightKeys)
    (hopened : read weightsPath (some opened) = some (some (.dict d)))
    (hedited : read weightsPath (some edited) = some (some (.dict e)))
    (hall : editAll (policyEdits body) policy = some edited)
    (h : editPolicyWith body fieldSteps opened = some edited) (hnone : e.lookup key = none) :
    d.lookup key = none := by
  have hat : ∀ {v : Value} {d : Dict}, read weightsPath (some v) = some (some (.dict d)) →
      read ["lead_score", "weights", key] (some v) = some (d.lookup key) := by
    intro v d hv
    show read (weightsPath ++ [key]) (some v) = _
    rw [read_append, hv]
    rfl
  cases hbody : body.lookup ("weight_" ++ key) with
  | some v =>
      obtain ⟨w, -, hw⟩ := read_of_assign
        (List.mem_append_right _ (assign_weight_mem hkey)) hbody hall
      rw [hat hedited, hnone] at hw
      cases hw
  | none =>
      have hsame : read ["lead_score", "weights", key] (some edited) =
          read ["lead_score", "weights", key] (some opened) := by
        refine read_editPolicyWith ["weight_" ++ key] ?_
          (List.forall_mem_singleton.mpr hbody) h
        have hsteps : ∀ key ∈ weightKeys, ∀ step ∈ fieldSteps,
            step.shape.leaves ["lead_score", "weights", key] = true ∨
              ∃ k ∈ ["weight_" ++ key], step.bodyKey = some k := by
          decide +kernel
        exact hsteps key hkey
      rw [hat hedited, hat hopened, hnone] at hsame
      exact (Option.some.inj hsame).symm

theorem leadScoreWeights_eq {policy weights : Value}
    (h : read weightsPath (some policy) = some (some weights)) :
    leadScoreWeights policy = readWeights weights := by
  unfold leadScoreWeights getOr
  rw [h]
  rfl

theorem leadScoreWeights_of_absent {policy : Value}
    (h : read weightsPath (some policy) = some none) : leadScoreWeights policy = some {} := by
  unfold leadScoreWeights getOr
  rw [h]
  rfl

/-- Weights that are equal give the same scores, with a weight in the body. -/
theorem leadScoreWeights_eq_of_unchanged {key : String} (hkey : key ∈ weightKeys)
    (hbody : (body.lookup ("weight_" ++ key)).isSome)
    (h : editPolicy body policy = some (edited, changed)) (hsame : changed = false) :
    leadScoreWeights edited = leadScoreWeights policy := by
  obtain ⟨opened, weights, old, new, hopened, hweights, hold, hedited, hnew, rfl⟩ :=
    editPolicy_parts h
  have hall := (editAll_policyEdits hopened).trans hedited
  obtain ⟨v, hv⟩ := Option.isSome_iff_exists.mp hbody
  obtain ⟨w, -, hw⟩ := read_of_assign (List.mem_append_right _ (assign_weight_mem hkey)) hv hall
  have hnew' : read weightsPath (some edited) = some (some new) := Option.join_eq_some_iff.mp hnew
  have hweights' : read weightsPath (some opened) = some (some weights) :=
    Option.join_eq_some_iff.mp hweights
  -- there is a weight in them, so the new weights are a dictionary, and so are the old
  have hat : read [key] (some new) = some (some w) := by
    rw [show ["lead_score", "weights", key] = weightsPath ++ [key] from rfl, read_append, hnew'] at hw
    exact hw
  obtain ⟨d, rfl⟩ : ∃ d, new = .dict d := by
    cases new with
    | dict d => exact ⟨d, rfl⟩
    | _ => cases hat
  cases old with
  | none => cases hsame
  | some e =>
      obtain rfl := eq_of_copyWeights hold
      have heq : Value.same (.dict d) (.dict e) = true := (Bool.not_eq_false' _).mp hsame
      rw [leadScoreWeights_eq hnew', readWeights_eq_of_same heq fun k hk hnone =>
        lookup_weight_none hk hweights' hnew' hall hedited hnone]
      rw [read_opened hopened] at hweights'
      cases hstored : read weightsPath (some policy) with
      | none =>
          rw [hstored] at hweights'
          cases hweights'
      | some stored =>
          cases stored with
          | some stored =>
              rw [hstored] at hweights'
              obtain rfl : stored = .dict e := Option.some.inj (Option.some.inj hweights')
              exact (leadScoreWeights_eq hstored).symm
          | none =>
              -- nothing was there, and something is now
              rw [hstored] at hweights'
              obtain rfl : [] = e := Value.dict.inj (Option.some.inj (Option.some.inj hweights'))
              exfalso
              cases d with
              | nil => cases hat
              | cons p d =>
                  unfold Value.same at heq
                  cases heq

/-- A recompute is scheduled whenever the scores would be others, exactly if weights are named. -/
theorem weights_known_iff (h : editPolicy body policy = some (edited, changed)) :
    (leadScoreWeights edited ≠ leadScoreWeights policy → changed = true) ↔
      NamesWeights body policy := by
  by_cases hbody : ∃ key ∈ weightKeys, (body.lookup ("weight_" ++ key)).isSome
  · refine ⟨fun _ => Or.inr hbody, fun _ hne => ?_⟩
    obtain ⟨key, hkey, hsome⟩ := hbody
    by_contra hchanged
    exact hne (leadScoreWeights_eq_of_unchanged hkey hsome h ((Bool.not_eq_true _).mp hchanged))
  · obtain ⟨opened, weights, old, new, hopened, hweights, hold, hedited, hnew, rfl⟩ :=
      editPolicy_parts h
    have habsent : ∀ key ∈ weightKeys, body.lookup ("weight_" ++ key) = none := fun key hkey =>
      Option.not_isSome_iff_eq_none.mp fun hsome => hbody ⟨key, hkey, hsome⟩
    have hkept := read_weights_of_absent habsent hedited
    rw [read_opened hopened] at hkept
    have hweights' : read weightsPath (some opened) = some (some weights) :=
      Option.join_eq_some_iff.mp hweights
    cases hstored : read weightsPath (some policy) with
    | none =>
        rw [read_opened hopened, hstored] at hweights'
        cases hweights'
    | some stored =>
        rw [hstored] at hkept
        cases stored with
        | some stored =>
            refine ⟨fun _ => Or.inl ⟨stored, hstored⟩, fun _ hne => absurd ?_ hne⟩
            rw [leadScoreWeights_eq hkept, leadScoreWeights_eq hstored]
            rfl
        | none =>
            refine ⟨fun hchanged => ?_, fun hnamed => ?_⟩
            · rw [leadScoreWeights_eq hkept, leadScoreWeights_of_absent hstored] at hchanged
              rw [read_opened hopened, hstored] at hweights'
              obtain rfl : Value.dict [] = weights := Option.some.inj (Option.some.inj hweights')
              obtain rfl : some [] = old := Option.some.inj hold
              obtain rfl : Value.dict [] = new :=
                Option.some.inj (congrArg Option.join hkept |>.symm.trans hnew)
              exact absurd (hchanged (by decide)) (by decide)
            · rcases hnamed with ⟨w, hw⟩ | hnamed
              · rw [hstored] at hw
                cases hw
              · exact absurd hnamed hbody

end Weights

/-! ### The configuration of this machine -/

section Local

variable {body c cfg : Dict} {crawler : Dict}

theorem localEdits_before (body : Dict) : (localEdits body).Pairwise Edit.Before := by
  have hsteps : ((localKeys.map fun key => SaveStep.assign key.1 ["crawler", key.1] key.2).map
      SaveStep.shape).Pairwise Edit.Before := by decide +kernel
  have hbefore := pairwise_before_of_shapes hsteps body
  rwa [List.filterMap_map] at hbefore

section SetLocal

variable {key : String × (Value → Option Value)} {v x : Value}

theorem setLocal_of_read (hv : body.lookup key.1 = some v) (hx : key.2 v = some x)
    (hc : c.lookup "crawler" = some (.dict crawler)) :
    setLocal body c key = some (setItem "crawler" (.dict (setItem key.1 x crawler)) c) := by
  simp only [setLocal, hv, hx, hc]

theorem setLocal_of_bad (hv : body.lookup key.1 = some v) (hx : key.2 v = none) :
    setLocal body c key = none := by
  simp only [setLocal, hv, hx]

theorem setLocal_of_not_dict (hv : body.lookup key.1 = some v)
    (hc : ¬ ∃ crawler, c.lookup "crawler" = some (.dict crawler)) : setLocal body c key = none := by
  simp only [setLocal, hv]
  split
  · rename_i hdict
    exact absurd ⟨_, hdict⟩ hc
  · rfl

end SetLocal

/-- `cfg["crawler"][k] = …` is a write along a path where there is a `cfg["crawler"]`. -/
theorem setLocal_eq (body : Dict) (hc : c.lookup "crawler" = some (.dict crawler))
    (key : String × (Value → Option Value)) :
    (setLocal body c key).map Value.dict =
      (SaveStep.edit body (.assign key.1 ["crawler", key.1] key.2)).elim (some (.dict c))
        fun e => e.run (.dict c) := by
  rw [SaveStep.edit_assign]
  cases hv : body.lookup key.1 with
  | none =>
      unfold setLocal
      rw [hv]
      rfl
  | some v =>
      show _ = (key.2 v).bind fun x => write ["crawler", key.1] x (.dict c)
      cases hx : key.2 v with
      | none =>
          rw [setLocal_of_bad hv hx]
          rfl
      | some x =>
          rw [setLocal_of_read hv hx hc]
          show some (Value.dict _) = update (fun _ => x) ["crawler", key.1] (some (.dict c))
          rw [update, hc, update, update]
          rfl

theorem exists_crawler_of_setLocal {c c' : Dict} {key : String × (Value → Option Value)}
    (hc : ∃ crawler, c.lookup "crawler" = some (.dict crawler)) (h : setLocal body c key = some c') :
    ∃ crawler, c'.lookup "crawler" = some (.dict crawler) := by
  obtain ⟨crawler, hc⟩ := hc
  unfold setLocal at h
  split at h
  · exact ⟨crawler, Option.some.inj h ▸ hc⟩
  · split at h
    · rw [← Option.some.inj h, lookup_setItem_self]
      exact ⟨_, rfl⟩
    · cases h

theorem editLocal_eq (body : Dict) (hc : ∃ crawler, c.lookup "crawler" = some (.dict crawler)) :
    (editLocal body c).map Value.dict = editAll (localEdits body) (.dict c) := by
  unfold editLocal localEdits
  generalize localKeys = keys
  induction keys generalizing c with
  | nil => rfl
  | cons key keys ih =>
      obtain ⟨crawler, hcrawler⟩ := hc
      have hstep := setLocal_eq body hcrawler key
      rw [List.foldlM_cons, List.filterMap_cons]
      cases hnext : setLocal body c key with
      | none =>
          rw [hnext] at hstep
          cases hedit : SaveStep.edit body (.assign key.1 ["crawler", key.1] key.2) with
          | none =>
              rw [hedit] at hstep
              cases hstep
          | some e =>
              rw [hedit] at hstep
              rw [editAll_cons, ← show none = e.run (.dict c) from hstep]
              rfl
      | some c' =>
          have hrest := ih (exists_crawler_of_setLocal ⟨crawler, hcrawler⟩ hnext)
          rw [hnext] at hstep
          show Option.map _ (List.foldlM (setLocal body) c' keys) = _
          rw [hrest]
          cases hedit : SaveStep.edit body (.assign key.1 ["crawler", key.1] key.2) with
          | none =>
              rw [hedit] at hstep
              rw [Option.some.inj hstep]
          | some e =>
              rw [hedit] at hstep
              rw [editAll_cons, ← show some (.dict c') = e.run (.dict c) from hstep]
              rfl

/-- Without a dictionary to write to, nothing can be written. -/
theorem editLocal_of_not_dict (hc : ¬ ∃ crawler, c.lookup "crawler" = some (.dict crawler)) :
    editLocal body c = if localEdits body = [] then some c else none := by
  unfold editLocal localEdits
  generalize localKeys = keys
  induction keys with
  | nil => rfl
  | cons key keys ih =>
      rw [List.foldlM_cons, List.filterMap_cons, SaveStep.edit_assign]
      cases hv : body.lookup key.1 with
      | none =>
          unfold setLocal
          rw [hv]
          exact ih
      | some v =>
          rw [setLocal_of_not_dict hv hc]
          rfl

theorem editLocal_isSome : (editLocal body c).isSome ↔ LocalAccepts body c := by
  by_cases hc : ∃ crawler, c.lookup "crawler" = some (.dict crawler)
  · have heq := congrArg Option.isSome (editLocal_eq body hc)
    rw [Option.isSome_map] at heq
    rw [heq, editAll_isSome (localEdits_before body)]
    obtain ⟨crawler, hc⟩ := hc
    exact ⟨fun h e he => ⟨h e he, by rw [hc]; rfl⟩, fun h e he => (h e he).1⟩
  · rw [editLocal_of_not_dict hc]
    by_cases hnil : localEdits body = []
    · rw [if_pos hnil]
      refine ⟨fun _ e he => ?_, fun _ => rfl⟩
      rw [hnil] at he
      cases he
    · rw [if_neg hnil]
      refine ⟨fun h => (Bool.false_ne_true h).elim, fun h => ?_⟩
      exfalso
      obtain ⟨e, he⟩ := List.exists_mem_of_ne_nil _ hnil
      obtain ⟨hruns, hsome⟩ := h e he
      obtain ⟨key, -, hedit⟩ := List.mem_filterMap.mp he
      rw [SaveStep.edit_assign] at hedit
      obtain ⟨v, -, rfl⟩ := Option.map_eq_some_iff.mp hedit
      obtain ⟨w, hw⟩ := Option.isSome_iff_exists.mp hsome
      have hread := hruns.2
      rw [read_dict, hw] at hread
      cases w with
      | dict d => exact hc ⟨d, hw⟩
      | _ => cases hread

theorem editLocal_cases (h : editLocal body c = some cfg) :
    (localEdits body = [] ∧ cfg = c) ∨
      (editAll (localEdits body) (.dict c) = some (.dict cfg) ∧
        ∃ crawler, cfg.lookup "crawler" = some (.dict crawler)) := by
  by_cases hc : ∃ crawler, c.lookup "crawler" = some (.dict crawler)
  · refine Or.inr ⟨by rw [← editLocal_eq body hc, h]; rfl, ?_⟩
    unfold editLocal at h
    generalize localKeys = keys at h
    induction keys generalizing c with
    | nil => exact Option.some.inj h ▸ hc
    | cons key keys ih =>
        rw [List.foldlM_cons] at h
        obtain ⟨c', hc', h⟩ := Option.bind_eq_some_iff.mp h
        exact ih (exists_crawler_of_setLocal hc hc') h
  · rw [editLocal_of_not_dict hc] at h
    by_cases hnil : localEdits body = []
    · rw [if_pos hnil] at h
      exact Or.inl ⟨hnil, (Option.some.inj h).symm⟩
    · rw [if_neg hnil] at h
      cases h

/-- `c.update(cfg)` leaves in `c` what is in `cfg`. -/
theorem lookup_merge_editLocal (h : editLocal body c = some cfg) (k : String) :
    (merge c cfg).lookup k = cfg.lookup k := by
  rw [lookup_merge]
  rcases editLocal_cases h with ⟨-, rfl⟩ | ⟨hall, crawler, hcrawler⟩
  · exact Option.or_self
  · by_cases hk : k = "crawler"
    · rw [hk, hcrawler]
      rfl
    · have hread : read [k] (some (.dict cfg)) = read [k] (some (.dict c)) := by
        refine read_editAll_of_leaves (fun e he => ?_) hall
        obtain ⟨key, -, hedit⟩ := List.mem_filterMap.mp he
        rw [SaveStep.edit_assign] at hedit
        obtain ⟨v, -, rfl⟩ := Option.map_eq_some_iff.mp hedit
        show (decide ("crawler" ≠ k) || _) = true
        rw [decide_eq_true (Ne.symm hk), Bool.true_or]
      rw [show cfg.lookup k = c.lookup k from Option.some.inj hread]
      exact Option.or_self

theorem localSettled_of_editLocal (h : editLocal body c = some cfg) : LocalSettled body cfg := by
  intro e he
  rcases editLocal_cases h with ⟨hnil, -⟩ | ⟨hall, -⟩
  · rw [hnil] at he
    cases he
  · exact done_of_editAll (localEdits_before body) hall e he

theorem eq_of_localSettled (h : editLocal body c = some cfg) (hsettled : LocalSettled body c) :
    cfg = c := by
  rcases editLocal_cases h with ⟨-, rfl⟩ | ⟨hall, -⟩
  · rfl
  · have hself := (editAll_eq_self_iff (localEdits_before body)).mpr hsettled
    exact Value.dict.inj (Option.some.inj (hall.symm.trans hself))

/-- The configuration in memory stays as it is exactly if the body says nothing new. -/
theorem merged_eq_iff (h : editLocal body c = some cfg) :
    (∀ k, (merge c cfg).lookup k = c.lookup k) ↔ LocalSettled body c := by
  constructor
  · intro hsame e he
    have hdone := localSettled_of_editLocal h e he
    have hcrawler : cfg.lookup "crawler" = c.lookup "crawler" :=
      (lookup_merge_editLocal h "crawler").symm.trans (hsame "crawler")
    obtain ⟨key, -, hedit⟩ := List.mem_filterMap.mp he
    rw [SaveStep.edit_assign] at hedit
    obtain ⟨v, -, rfl⟩ := Option.map_eq_some_iff.mp hedit
    refine hdone.congr ?_
    show read [key.1] (c.lookup "crawler") = read [key.1] (cfg.lookup "crawler")
    rw [hcrawler]
  · intro hsettled k
    rw [lookup_merge_editLocal h, eq_of_localSettled h hsettled]

end Local

/-! ### Saving -/

section Save

variable {yaml : Yaml} {body cfg : Dict} {user : CurrentUser} {ip : Option String}
  {s : SettingsState} {policy : Value} {changed : Bool}

/-- The row, once it is written. -/
def SettingsState.withRow (s : SettingsState) (policy : Value) (user : CurrentUser) : SettingsState :=
  { s with setting := some ⟨policy, some user.id⟩ }

/-- File and memory too. -/
def SettingsState.withConfig (yaml : Yaml) (s : SettingsState) (cfg : Dict) : SettingsState :=
  { s with config := merge s.config cfg, file := yaml.dumpConfig (.dict cfg), tmpFile := none }

/-- How far a save comes: not to the row, to the row only, to file and memory, or to its end. -/
theorem saveConfig_cases (yaml : Yaml) (user : CurrentUser) (ip : Option String)
    (hcfg : editLocal body s.config = some cfg)
    (hpolicy : editPolicy body (getCrawlPolicy s.setting) = some (policy, changed))
    (fs : List (Option HttpError)) :
    (¬ Quiet (fs.take 2) ∧ ∃ e fs', saveConfig yaml body user ip s fs = (.error e, s, fs')) ∨
      (Quiet (fs.take 2) ∧ ¬ Quiet (fs.take 5) ∧ ∃ e tmp fs',
        saveConfig yaml body user ip s fs =
          (.error e, { s.withRow policy user with tmpFile := tmp }, fs')) ∨
      (Quiet (fs.take 5) ∧ ¬ Quiet (fs.take 6) ∧ ∃ e fs', saveConfig yaml body user ip s fs =
          (.error e, (s.withRow policy user).withConfig yaml cfg, fs')) ∨
      (Quiet (fs.take 6) ∧ ∃ message audit fs', saveConfig yaml body user ip s fs =
          (.ok ⟨message, changed⟩,
            { (s.withRow policy user).withConfig yaml cfg with audit := audit }, fs')) := by
  have htwo : Quiet (fs.take 2) ↔ Quiet (fs.take 1) ∧ Quiet (fs.tail.take 1) := quiet_take_succ
  have hsix : Quiet (fs.take 6) ↔ Quiet (fs.take 2) ∧ Quiet (fs.tail.tail.take 4) := by
    rw [show Quiet (fs.take 6) ↔ _ from quiet_take_succ, show Quiet (fs.tail.take 5) ↔ _ from
      quiet_take_succ, htwo, and_assoc]
  have hfive : Quiet (fs.take 5) ↔ Quiet (fs.take 2) ∧ Quiet (fs.tail.tail.take 3) := by
    rw [show Quiet (fs.take 5) ↔ _ from quiet_take_succ, show Quiet (fs.tail.take 4) ↔ _ from
      quiet_take_succ, htwo, and_assoc]
  unfold saveConfig setAppSetting
  rw [bind_apply]
  dsimp only [act]
  rw [hcfg]
  dsimp only [orRaise]
  rw [bind_apply, pure_apply]
  dsimp only
  rcases read_bind_cases (fun s : SettingsState => getCrawlPolicy s.setting) _ s fs with
    ⟨h1, hrun⟩ | ⟨h1, e, hrun⟩
  swap
  · exact Or.inl ⟨fun h => h1 (htwo.mp h).1, e, _, hrun⟩
  rw [hrun, hpolicy]
  dsimp only
  rw [bind_apply, pure_apply]
  dsimp only
  -- the row
  rcases write_bind_cases _ _ s fs.tail with ⟨h2, hrun⟩ | ⟨h2, e, hrun⟩
  swap
  · exact Or.inl ⟨fun h => h2 (htwo.mp h).2, e, _, hrun⟩
  rw [hrun]
  have hquiet := htwo.mpr ⟨h1, h2⟩
  -- the temporary file, opened and written, and then put in place
  rcases write_bind_cases _ _ _ fs.tail.tail with ⟨h3, hrun⟩ | ⟨h3, e, hrun⟩
  swap
  · exact Or.inr (Or.inl ⟨hquiet, fun h => h3 (quiet_take_succ.mp (hfive.mp h).2).1, e, _, _, hrun⟩)
  rw [hrun]
  rcases write_bind_cases _ _ _ fs.tail.tail.tail with ⟨h4, hrun⟩ | ⟨h4, e, hrun⟩
  swap
  · exact Or.inr (Or.inl ⟨hquiet, fun h =>
      h4 (quiet_take_succ.mp (quiet_take_succ.mp (hfive.mp h).2).2).1, e, _, _, hrun⟩)
  rw [hrun]
  rcases write_bind_cases _ _ _ fs.tail.tail.tail.tail with ⟨h5, hrun⟩ | ⟨h5, e, hrun⟩
  swap
  · exact Or.inr (Or.inl ⟨hquiet, fun h =>
      h5 (quiet_take_succ.mp (quiet_take_succ.mp (hfive.mp h).2).2).2, e, _, _, hrun⟩)
  rw [hrun, bind_apply]
  dsimp only
  have hreplaced := hfive.mpr ⟨hquiet, quiet_take_succ.mpr ⟨h3, quiet_take_succ.mpr ⟨h4, h5⟩⟩⟩
  -- the audit log
  rcases write_bind_cases _ _ _ fs.tail.tail.tail.tail.tail with ⟨h6, hrun⟩ | ⟨h6, e, hrun⟩
  swap
  · refine Or.inr (Or.inr (Or.inl ⟨hreplaced, fun h => h6 ?_, e, _, hrun⟩))
    exact (quiet_take_succ.mp (quiet_take_succ.mp (quiet_take_succ.mp (hsix.mp h).2).2).2).2
  refine Or.inr (Or.inr (Or.inr ⟨hsix.mpr ⟨hquiet, ?_⟩, _, _, _, hrun⟩))
  exact quiet_take_succ.mpr ⟨h3, quiet_take_succ.mpr ⟨h4, quiet_take_succ.mpr ⟨h5, h6⟩⟩⟩

/-- Every lead has the score that the stored weights give. -/
def ScoresMatch (s : SettingsState) : Prop :=
  ∀ weights, leadScoreWeights (getCrawlPolicy s.setting) = some weights →
    ∀ lead ∈ s.leads, lead.Coherent weights

/-- All three stores are as before, and the scores match if they did. -/
structure Untouched (s s' : SettingsState) : Prop where
  setting : s'.setting = s.setting
  file : s'.file = s.file
  config : ∀ k, s'.config.lookup k = s.config.lookup k
  scores : ScoresMatch s → ScoresMatch s'

/-- All three stores hold what the body says over what they held, and other weights are
followed by a recompute. -/
structure SavedAll (yaml : Yaml) (body : Dict) (user : CurrentUser) (s s' : SettingsState)
    (cfg : Dict) (policy : Value) (changed recompute : Bool) : Prop where
  edited : editLocal body s.config = some cfg ∧
    editPolicy body (getCrawlPolicy s.setting) = some (policy, changed)
  posted : LocalSettled body cfg ∧ PolicySettled body policy
  setting : s'.setting = some ⟨policy, some user.id⟩
  file : s'.file = yaml.dumpConfig (.dict cfg)
  config : ∀ k, s'.config.lookup k = cfg.lookup k
  recompute : leadScoreWeights policy ≠ leadScoreWeights (getCrawlPolicy s.setting) → recompute = true

/-- A save that succeeds saves everything, and one that fails nothing. -/
def AllOrNothing (yaml : Yaml) (body : Dict) (user : CurrentUser) (s s' : SettingsState) :
    Except HttpError SaveReply → Prop
  | .ok reply => ∃ cfg policy changed, SavedAll yaml body user s s' cfg policy changed reply.recompute
  | .error _ => Untouched s s'

/-- The save ends before it has written anything; or it succeeds, and the policy or the body has
weights; or it fails after the row is written, and whatever had been written by then was there
before. -/
def SavesWhole (yaml : Yaml) (body : Dict) (user : CurrentUser) (s : SettingsState)
    (fs : List (Option HttpError)) : Prop :=
  ¬ (LocalAccepts body s.config ∧ PolicyAccepts body (getCrawlPolicy s.setting)) ∨
    ¬ Quiet (fs.take 2) ∨
    (Quiet (fs.take 6) ∧ NamesWeights body (getCrawlPolicy s.setting)) ∨
    (¬ Quiet (fs.take 6) ∧
      (∃ row, s.setting = some row ∧ row.updatedBy = some user.id ∧ PolicySettled body row.value) ∧
      (Quiet (fs.take 5) →
        s.file = yaml.dumpConfig (.dict s.config) ∧ LocalSettled body s.config))

theorem untouched_of_setting {s' : SettingsState} (hsetting : s'.setting = s.setting)
    (hleads : s'.leads = s.leads) (hfile : s'.file = s.file)
    (hconfig : ∀ k, s'.config.lookup k = s.config.lookup k) : Untouched s s' := by
  refine ⟨hsetting, hfile, hconfig, fun h => ?_⟩
  unfold ScoresMatch
  rw [hsetting, hleads]
  exact h

theorem Untouched.refl (s : SettingsState) : Untouched s s := ⟨rfl, rfl, fun _ => rfl, id⟩

/-- What cannot be edited ends the request before anything is written. -/
theorem saveConfig_of_refused (yaml : Yaml) (user : CurrentUser) (ip : Option String)
    (h : ¬ (LocalAccepts body s.config ∧ PolicyAccepts body (getCrawlPolicy s.setting)))
    (fs : List (Option HttpError)) :
    ∃ e fs', saveConfig yaml body user ip s fs = (.error e, s, fs') := by
  unfold saveConfig
  rw [bind_apply]
  dsimp only [act]
  rw [bind_apply]
  cases hcfg : editLocal body s.config with
  | none => exact ⟨_, _, rfl⟩
  | some cfg =>
      have hlocal : LocalAccepts body s.config := editLocal_isSome.mp (by rw [hcfg]; rfl)
      have hpolicy : editPolicy body (getCrawlPolicy s.setting) = none :=
        Option.not_isSome_iff_eq_none.mp fun hsome => h ⟨hlocal, editPolicy_isSome.mp hsome⟩
      dsimp only [orRaise]
      rw [pure_apply]
      dsimp only
      rcases read_bind_cases (fun s : SettingsState => getCrawlPolicy s.setting) _ s fs with
        ⟨-, hrun⟩ | ⟨-, e, hrun⟩
      · rw [hrun, hpolicy]
        exact ⟨_, _, rfl⟩
      · exact ⟨e, _, hrun⟩

theorem policySettled_of_editPolicy {policy edited : Value} {changed : Bool}
    (h : editPolicy body policy = some (edited, changed)) : PolicySettled body edited := by
  obtain ⟨opened, -, -, -, hopened, -, -, hedited, -⟩ := editPolicy_parts h
  exact done_of_editAll (policyEdits_before body) ((editAll_policyEdits hopened).trans hedited)

/-- The row stays as it is exactly if the same user wrote it and the body says nothing new. -/
theorem row_eq_iff (user : CurrentUser)
    (hpolicy : editPolicy body (getCrawlPolicy s.setting) = some (policy, changed)) :
    some ⟨policy, some user.id⟩ = s.setting ↔
      ∃ row, s.setting = some row ∧ row.updatedBy = some user.id ∧ PolicySettled body row.value := by
  cases hrow : s.setting with
  | none =>
      refine ⟨fun h => ?_, fun ⟨row, h, _⟩ => ?_⟩
      · exact absurd h (Option.some_ne_none _)
      · exact absurd h.symm (Option.some_ne_none _)
  | some row =>
      rw [hrow] at hpolicy
      have hiff : policy = row.value ↔ PolicySettled body row.value := edited_eq_iff hpolicy
      constructor
      · intro h
        obtain rfl := Option.some.inj h
        exact ⟨_, rfl, rfl, hiff.mp rfl⟩
      · rintro ⟨row', hrow', hby, hsettled⟩
        obtain rfl := Option.some.inj hrow'
        rw [hiff.mpr hsettled, ← hby]

theorem save_config_all_or_nothing_iff (yaml : Yaml) (body : Dict) (user : CurrentUser)
    (ip : Option String) (s : SettingsState) (fs : List (Option HttpError)) :
    AllOrNothing yaml body user s (saveConfig yaml body user ip s fs).2.1
        (saveConfig yaml body user ip s fs).1 ↔
      SavesWhole yaml body user s fs := by
  by_cases haccepts : LocalAccepts body s.config ∧ PolicyAccepts body (getCrawlPolicy s.setting)
  swap
  · obtain ⟨e, fs', hrun⟩ := saveConfig_of_refused yaml user ip haccepts fs
    rw [hrun]
    exact ⟨fun _ => Or.inl haccepts, fun _ => Untouched.refl s⟩
  obtain ⟨cfg, hcfg⟩ := Option.isSome_iff_exists.mp (editLocal_isSome.mpr haccepts.1)
  obtain ⟨⟨policy, changed⟩, hpolicy⟩ :=
    Option.isSome_iff_exists.mp (editPolicy_isSome.mpr haccepts.2)
  have hrow := row_eq_iff user hpolicy
  unfold SavesWhole
  rw [or_iff_right (not_not.mpr haccepts)]
  rcases saveConfig_cases yaml user ip hcfg hpolicy fs with
    ⟨htwo, e, fs', hrun⟩ | ⟨htwo, hfive, e, tmp, fs', hrun⟩ | ⟨hfive, hsix, e, fs', hrun⟩ |
      ⟨hsix, message, audit, fs', hrun⟩
  all_goals rw [hrun]
  · exact ⟨fun _ => Or.inl htwo, fun _ => Untouched.refl s⟩
  · have hsix : ¬ Quiet (fs.take 6) := fun h => hfive (quiet_take_of_le (by decide) h)
    rw [or_iff_right (not_not.mpr htwo), or_iff_right fun h => hsix h.1]
    constructor
    · intro h
      exact ⟨hsix, hrow.mp h.setting, fun h5 => absurd h5 hfive⟩
    · rintro ⟨-, hsame, -⟩
      exact untouched_of_setting (hrow.mpr hsame) rfl rfl fun _ => rfl
  · have htwo : Quiet (fs.take 2) := quiet_take_of_le (by decide) hfive
    rw [or_iff_right (not_not.mpr htwo), or_iff_right fun h => hsix h.1]
    have hmerged := merged_eq_iff hcfg
    constructor
    · intro h
      have hsettled := hmerged.mp h.config
      refine ⟨hsix, hrow.mp h.setting, fun _ => ⟨?_, hsettled⟩⟩
      rw [← eq_of_localSettled hcfg hsettled]
      exact h.file.symm
    · rintro ⟨-, hsame, hrest⟩
      obtain ⟨hfile, hsettled⟩ := hrest hfive
      refine untouched_of_setting (hrow.mpr hsame) rfl ?_ (hmerged.mpr hsettled)
      rw [hfile]
      exact congrArg (fun c => yaml.dumpConfig (.dict c)) (eq_of_localSettled hcfg hsettled)
  · have htwo : Quiet (fs.take 2) := quiet_take_of_le (by decide) hsix
    rw [or_iff_right (not_not.mpr htwo), or_iff_left fun h => h.1 hsix]
    have hknown := weights_known_iff hpolicy
    constructor
    · rintro ⟨cfg', policy', changed', hsaved⟩
      obtain ⟨rfl, rfl⟩ := Prod.mk.inj (Option.some.inj (hpolicy.symm.trans hsaved.edited.2))
      exact ⟨hsix, hknown.mp hsaved.recompute⟩
    · rintro ⟨-, hnamed⟩
      exact ⟨cfg, policy, changed, ⟨hcfg, hpolicy⟩,
        ⟨localSettled_of_editLocal hcfg, policySettled_of_editPolicy hpolicy⟩, rfl, rfl,
        lookup_merge_editLocal hcfg, hknown.mpr hnamed⟩

end Save

/-- A new weight, and no place for the temporary file: the row has the weight, `config.yaml` is
as it was, and no recompute comes. -/
theorem weight_saved_without_recompute :
    let yaml : Yaml := ⟨fun _ => "", fun _ => "crawler: {}"⟩
    let user : CurrentUser := ⟨1, "a@a.com", true, []⟩
    let s : SettingsState :=
      { setting := some ⟨emptyPolicy, none⟩, config := [("crawler", .dict [])], file := "" }
    let after := saveConfig yaml [("weight_phone", .int 20)] user none s
      [none, none, some ⟨500, "Internal Server Error"⟩]
    ¬ AllOrNothing yaml [("weight_phone", .int 20)] user s after.2.1 after.1 := by
  intro yaml user s after h
  have hsetting : after.2.1.setting = s.setting := Untouched.setting h
  have hweights : leadScoreWeights (getCrawlPolicy after.2.1.setting) = some { phone := 20 } := by
    decide +kernel
  rw [hsetting] at hweights
  exact absurd hweights (by decide +kernel)

end GovCrawler
