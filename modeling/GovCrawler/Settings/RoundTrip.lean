/-
What becomes of the settings in effect when `save_config` gets back what `get_config` returned.

Both sides of a setting are known: `get_config` shows what is stored, or a default of its own,
and `save_config` stores what `int`, `float`, `bool` or the cutting of a list makes of that.
The effect is the same if the value survives this, and, where nothing was stored, if the default
that was shown is what the reader would have taken instead: the value on this machine, or the
reader's own default.

The policy after the post is known path by path: what was shown along one is there, and paths
that no statement meets read as before.
-/
import GovCrawler.Settings.Effective
import GovCrawler.Settings.SaveConfig

namespace GovCrawler

open Json StoreProgram Prog

/-! ### What survives -/

/-- What is stored under a key of the policy's `crawler`. -/
def ofPolicy (policy : Value) (key : String) : Option Value := item ["crawler", key] policy

/-- What `config.yaml` has under a key of `crawler`. -/
def ofMachine (c : Dict) (key : String) : Option Value := item ["crawler", key] (.dict c)

/-- `int` or `float` gives the number that was there. -/
def SameNumber (coerce : Value → Option Value) (v : Value) : Prop :=
  ∀ w, coerce v = some w → w.canon = v.canon

/-- All texts that are joined are tidy. -/
def TidyList (v : Value) : Prop := ∀ xs, texts v = some xs → ∀ x ∈ xs, Tidy x

/-- A setting of this machine: the policy has its own, or the number is the same. -/
def LocalSurvives (c : Dict) (policy : Value) (coerce : Value → Option Value) (key : String) : Prop :=
  ofPolicy policy key = none → ∀ v, ofMachine c key = some v → SameNumber coerce v

/-- A number of the policy; where there is none, the default shown is the number in effect. -/
def NumberSurvives (coerce : Value → Option Value) (shown default : Value) (stored mine : Option Value) :
    Prop :=
  match stored with
  | some v => SameNumber coerce v
  | none => (mine.getD default).canon = shown.canon

/-- A list of the policy; where there is none, none is in effect. -/
def ListSurvives (stored mine : Option Value) : Prop :=
  match stored with
  | some v => TidyList v
  | none => entriesOf mine = some (.list [])

/-- What is shown as the limit of a depth that has none. -/
def shownLimit : Nat → Value
  | 0 => .int 30
  | 1 => .int 15
  | 2 => .int 8
  | _ => .int 5

/-- The limit of a depth, among stored limits. -/
def LimitSurvives (limits : Value) (depth : Nat) : Prop :=
  match item [toString depth] limits with
  | some v => depth < 3 → SameNumber asInt v
  | none =>
      if depth < 3 then ((item ["default"] limits).getD (.int 5)).canon = (shownLimit depth).canon
      else ∀ v, item ["default"] limits = some v → SameNumber asInt v

/-- A setting of the engine. -/
def EngineSurvives (c : Dict) (policy : Value) : EngineSetting → Prop
  | .workers => LocalSurvives c policy asInt "workers"
  | .perUrlTimeout => LocalSurvives c policy asInt "per_url_timeout"
  | .playwrightTimeout => LocalSurvives c policy asInt "playwright_timeout"
  | .jsSettleTime => LocalSurvives c policy asFloat "js_settle_time"
  | .playwrightContexts =>
      (ofPolicy policy "playwright_fallback").isSome ∨ (ofMachine c "playwright_fallback").isSome
  | .maxDepth => NumberSurvives asInt (.int 4) (.int 3) (ofPolicy policy "max_depth")
      (ofMachine c "max_depth")
  | .requestDelay => NumberSurvives asFloat (.float (.finite (3 / 2))) (.float (.finite (3 / 2)))
      (ofPolicy policy "request_delay") (ofMachine c "request_delay")
  | .targetSuffixes =>
      ListSurvives (ofPolicy policy "target_suffixes") (ofMachine c "target_suffixes")
  | .priorityKeywords =>
      ListSurvives (ofPolicy policy "priority_keywords") (ofMachine c "priority_keywords")
  | .skipExtensions =>
      ListSurvives (ofPolicy policy "skip_extensions") (ofMachine c "skip_extensions")
  | .maxLinks depth =>
      match ofPolicy policy "max_links_per_page" with
      | some limits => LimitSurvives limits depth
      | none => readMaxLinks (ofMachine c "max_links_per_page") depth = some (shownLimit depth).canon
  | .pagination x => ofPolicy policy "pagination" = none →
      readPagination (ofMachine c "pagination") x = readPagination none x
  | _ => True

/-- What the parser reads when nothing is set, and no suffix is valid. -/
def readNothing : ParserSetting → Option Value :=
  readParser fun path => some (if path = ["email", "valid_suffixes"] then some (.list []) else none)

/-- A setting of the stored extraction. -/
def ParserSurvives (policy : Value) : ParserSetting → Prop
  | .contextChars =>
      ∀ v, item ["extraction", "email", "context_chars"] policy = some v → SameNumber asInt v
  | .validSuffixes => ∃ v, item ["extraction", "email", "valid_suffixes"] policy = some v ∧ TidyList v
  | .proximityChars =>
      ∀ v, item ["extraction", "person", "proximity_chars"] policy = some v → SameNumber asInt v
  | .titlePrefixes => ∀ v, item ["extraction", "person", "title_prefixes"] policy = some v → TidyList v
  | .designationKeywords =>
      ∀ v, item ["extraction", "person", "designation_keywords"] policy = some v → TidyList v
  | _ => True

/-- `stored.get("extraction")` counts. -/
def hasExtraction (policy : Value) : Bool := ((item ["extraction"] policy).map toBool).getD false

/-- `config.get("extraction", {})`. -/
def machineExtraction (c : Dict) : Value := (item ["extraction"] (.dict c)).getD (.dict [])

/-- Every setting in effect survives a round trip. -/
structure Survives (c : Dict) (policy : Value) : Prop where
  engine : ∀ x, EngineSurvives c policy x
  parser : ∀ x, if hasExtraction policy then ParserSurvives policy x
    else readParser (fun path => read path (some (machineExtraction c))) x = readNothing x

/-- A value that was shown is one that `int` or `float` raises on. -/
def Refused (body c : Dict) (policy : Value) : Prop :=
  ¬ (LocalAccepts body c ∧ PolicyAccepts body policy)

/-- Posting the body leaves every setting in effect as it was. -/
def PostKeepsSettings (yaml : Yaml) (user : CurrentUser) (ip : Option String) (s : SettingsState)
    (body : Dict) : Prop :=
  ∀ strip x, effectiveSettings strip (saveConfig yaml body user ip s []).2.1 x =
    effectiveSettings strip s x

/-! ### What was shown -/

theorem lookup_of_collect {entries : List (String × Option Value)}
    (hnodup : (entries.map Prod.fst).Nodup) {body : Dict} (h : collect entries = some body)
    {k : String} {o : Option Value} (hmem : (k, o) ∈ entries) :
    ∃ v, o = some v ∧ body.lookup k = some v := by
  induction entries generalizing body with
  | nil => cases hmem
  | cons e entries ih =>
      obtain ⟨hfirst, hrest⟩ := List.nodup_cons.mp hnodup
      obtain ⟨v, hv, h⟩ := Option.bind_eq_some_iff.mp h
      obtain ⟨d, hd, rfl⟩ := Option.map_eq_some_iff.mp h
      rw [lookup_cons]
      rcases List.mem_cons.mp hmem with rfl | hmem
      · exact ⟨v, hv, if_pos rfl⟩
      · obtain ⟨w, hw, hlookup⟩ := ih hrest hd hmem
        refine ⟨w, hw, ?_⟩
        have hne : e.1 ≠ k := fun hk => hfirst (List.mem_map.mpr ⟨_, hmem, hk.symm⟩)
        rw [if_neg hne, hlookup]

theorem configEntries_nodup (yaml : Yaml) (c policy : Value) :
    ((configEntries yaml c policy).map Prod.fst).Nodup := by
  show ((configEntries ⟨fun _ => "", fun _ => ""⟩ .null .null).map Prod.fst).Nodup
  decide +kernel

section RoundTrip

variable {yaml : Yaml} {body c cfg : Dict} {policy edited : Value}

/-- An entry of the dictionary that was returned. -/
theorem shown_entry (hget : getConfig yaml (.dict c) policy = some body) (i : Nat) {k : String}
    {o : Option Value} (hentry : (configEntries yaml (.dict c) policy)[i]? = some (k, o)) :
    ∃ v, o = some v ∧ body.lookup k = some v := by
  obtain ⟨hcollect, -⟩ := Option.filter_eq_some_iff.mp hget
  exact lookup_of_collect (configEntries_nodup yaml _ policy) hcollect (List.mem_of_getElem? hentry)

theorem mem_steps (i : Nat) {step : SaveStep} (h : (containerSteps ++ fieldSteps)[i]? = some step) :
    step ∈ containerSteps ++ fieldSteps := List.mem_of_getElem? h

/-- A plain field of the policy: shown as it is or by default, and stored as it was read back. -/
theorem read_plain {k : String} {path : List String} {coerce : Value → Option Value} {shown : Value}
    (hget : getConfig yaml (.dict c) policy = some body)
    (hall : editAll (policyEdits body) policy = some edited) (i j : Nat)
    (hentry : (configEntries yaml (.dict c) policy)[i]? = some (k, getOr path shown policy))
    (hstep : (containerSteps ++ fieldSteps)[j]? = some (.assign k path coerce)) :
    ∃ old w, read path (some policy) = some old ∧ coerce (old.getD shown) = some w ∧
      read path (some edited) = some (some w) := by
  obtain ⟨v, hv, hbody⟩ := shown_entry hget i hentry
  obtain ⟨old, hold, rfl⟩ := Option.map_eq_some_iff.mp hv
  obtain ⟨w, hw, hread⟩ := read_of_assign (mem_steps j hstep) hbody hall
  exact ⟨old, w, hold, hw, hread⟩

/-- A list of the policy: shown joined, and stored as it was cut. -/
theorem read_joined {k : String} {path : List String}
    (hget : getConfig yaml (.dict c) policy = some body)
    (hall : editAll (policyEdits body) policy = some edited) (i j : Nat)
    (hentry : (configEntries yaml (.dict c) policy)[i]? = some (k, joined path policy))
    (hstep : (containerSteps ++ fieldSteps)[j]? = some (.assign k path parseList)) :
    ∃ old xs, read path (some policy) = some old ∧ texts (old.getD (.list [])) = some xs ∧
      read path (some edited) = some (some (.list ((parseLines (joinLines xs)).map .str))) := by
  obtain ⟨v, hv, hbody⟩ := shown_entry hget i hentry
  obtain ⟨xs, hxs, rfl⟩ := Option.map_eq_some_iff.mp hv
  obtain ⟨w, hw, htexts⟩ := Option.bind_eq_some_iff.mp hxs
  obtain ⟨old, hold, rfl⟩ := Option.map_eq_some_iff.mp hw
  obtain ⟨w, hw, hread⟩ := read_of_assign (mem_steps j hstep) hbody hall
  obtain rfl := Option.some.inj hw
  exact ⟨old, xs, hold, htexts, hread⟩

/-- A path that no statement meets. -/
theorem read_untouched {path : List String}
    (hpath : ∀ step ∈ containerSteps ++ fieldSteps, step.shape.leaves path = true)
    (hall : editAll (policyEdits body) policy = some edited) :
    read path (some edited) = read path (some policy) :=
  read_editPolicyWith [] (fun step hstep => Or.inl (hpath step hstep))
    (List.forall_mem_nil _) hall

/-- A setting of this machine after the post. -/
theorem ofMachine_posted {k : String} {coerce : Value → Option Value} {v : Value}
    (hbody : body.lookup k = some v) (hkey : (k, coerce) ∈ localKeys)
    (hcfg : editLocal body c = some cfg) : ∃ w, coerce v = some w ∧ ofMachine cfg k = some w := by
  have hmem : Edit.write ["crawler", k] (coerce v) ∈ localEdits body := by
    refine List.mem_filterMap.mpr ⟨_, hkey, ?_⟩
    rw [SaveStep.edit_assign, hbody]
    rfl
  obtain ⟨w, hw, hread⟩ := localSettled_of_editLocal hcfg _ hmem
  refine ⟨w, hw, ?_⟩
  unfold ofMachine item
  rw [hread]
  rfl

/-- What a post says nothing about stays as it is on this machine. -/
theorem read_machine {path : List String} (hpath : ∀ key ∈ localKeys, apart ["crawler", key.1] path = true)
    (hcfg : editLocal body c = some cfg) : read path (some (.dict cfg)) = read path (some (.dict c)) := by
  rcases editLocal_cases hcfg with ⟨-, rfl⟩ | ⟨hall, -⟩
  · rfl
  · refine read_editAll_of_leaves (fun e he => ?_) hall
    obtain ⟨key, hkey, hedit⟩ := List.mem_filterMap.mp he
    rw [SaveStep.edit_assign] at hedit
    obtain ⟨v, -, rfl⟩ := Option.map_eq_some_iff.mp hedit
    exact hpath key hkey

end RoundTrip

/-! ### One value -/

section Values

variable {stored mine : Option Value} {v w : Value} {xs : List String}

theorem plainOr_eq_iff {d e : Value} {x y : Option Value} :
    plainOr d x = plainOr e y ↔ (x.getD d).canon = (y.getD e).canon :=
  ⟨Option.some.inj, congrArg some⟩

/-- A number of this machine that was shown, and what is read of it then. -/
theorem local_iff {coerce : Value → Option Value} (hw : coerce v = some w) (d : Value) :
    plainOr d (stored.or (some w)) = plainOr d (stored.or (some v)) ↔
      (stored = none → SameNumber coerce v) := by
  rw [plainOr_eq_iff]
  cases stored with
  | some u =>
      refine ⟨fun _ h => ?_, fun _ => rfl⟩
      cases h
  | none =>
      constructor
      · intro h _ w' hw'
        obtain rfl := Option.some.inj (hw.symm.trans hw')
        exact h
      · intro h
        exact h rfl w hw

/-- A number of the policy that was shown, or the default for it. -/
theorem number_iff {coerce : Value → Option Value} {shown d : Value}
    (hw : coerce (stored.getD shown) = some w)
    (hshown : ∀ w, coerce shown = some w → w.canon = shown.canon) :
    plainOr d (some w) = plainOr d (stored.or mine) ↔
      NumberSurvives coerce shown d stored mine := by
  rw [plainOr_eq_iff]
  cases stored with
  | some u =>
      refine ⟨fun h w' hw' => ?_, fun h => h w hw⟩
      obtain rfl := Option.some.inj (hw.symm.trans hw')
      exact h
  | none =>
      show w.canon = (mine.getD d).canon ↔ (mine.getD d).canon = shown.canon
      rw [hshown w hw]
      exact eq_comm

theorem eq_of_mapM_text {vs : List Value} {xs : List String} (h : vs.mapM text = some xs) :
    vs = xs.map .str := by
  induction vs generalizing xs with
  | nil =>
      obtain rfl : [] = xs := Option.some.inj h
      rfl
  | cons v vs ih =>
      rw [List.mapM_cons] at h
      obtain ⟨t, ht, h⟩ := Option.bind_eq_some_iff.mp h
      obtain ⟨ts, hts, h⟩ := Option.bind_eq_some_iff.mp h
      obtain rfl : t :: ts = xs := Option.some.inj h
      cases v with
      | str s =>
          obtain rfl : s = t := Option.some.inj ht
          rw [ih hts]
          rfl
      | _ => cases ht

theorem iterate_of_texts (h : texts v = some xs) : iterate v = some (xs.map .str) := by
  obtain ⟨vs, hvs, h⟩ := Option.bind_eq_some_iff.mp h
  rw [hvs, eq_of_mapM_text h]

theorem texts_list (xs : List String) : texts (.list (xs.map .str)) = some xs := by
  show (xs.map Value.str).mapM text = some xs
  induction xs with
  | nil => rfl
  | cons x xs ih =>
      rw [List.map_cons, List.mapM_cons, ih]
      rfl

theorem entriesOf_of_texts (h : texts v = some xs) :
    entriesOf (some v) = some (.list (xs.map .str)) := by
  have hiter := iterate_of_texts h
  show (if toBool v then (iterate v).map Value.list else some (.list [])) = _
  by_cases hv : toBool v = true
  · rw [if_pos hv, hiter]
    rfl
  · rw [if_neg hv]
    have hempty : xs.map Value.str = [] := by
      cases v with
      | list ys =>
          have hnil : ys = [] := by simpa [toBool] using hv
          exact (Option.some.inj hiter).symm.trans hnil
      | str s =>
          have hnil : s = "" := by simpa [toBool] using hv
          subst hnil
          exact (Option.some.inj hiter).symm
      | dict d =>
          have hnil : d = [] := by simpa [toBool] using hv
          subst hnil
          exact (Option.some.inj hiter).symm
      | _ => cases hiter
    rw [hempty]

theorem tupleOr_of_texts (d : Value) (h : texts v = some xs) :
    tupleOr d (some v) = some (.list (xs.map .str)) := by
  show (iterate v).map Value.list = _
  rw [iterate_of_texts h]
  rfl

/-- A list that was shown is read as it was exactly if it is tidy. -/
theorem list_eq_iff (h : texts v = some xs) :
    some (Value.list ((parseLines (joinLines xs)).map .str)) = some (.list (xs.map .str)) ↔
      TidyList v := by
  have hinj : Function.Injective Value.str := fun _ _ h => Value.str.inj h
  rw [Option.some.injEq, Value.list.injEq, List.map_inj_right fun _ _ h => hinj h, parseLines_joinLines_iff]
  refine ⟨fun htidy ys hys => ?_, fun htidy => htidy xs h⟩
  obtain rfl := Option.some.inj (h.symm.trans hys)
  exact htidy

theorem list_iff (hxs : texts (stored.getD (.list [])) = some xs) :
    entriesOf (some (.list ((parseLines (joinLines xs)).map .str))) = entriesOf (stored.or mine) ↔
      ListSurvives stored mine := by
  rw [entriesOf_of_texts (texts_list _)]
  cases stored with
  | some v =>
      have hxs : texts v = some xs := hxs
      rw [Option.some_or, entriesOf_of_texts hxs]
      exact list_eq_iff hxs
  | none =>
      obtain rfl : [] = xs := Option.some.inj hxs
      rw [Option.none_or]
      exact eq_comm

end Values

/-! ### The settings in effect -/

/-- Nothing raises where the policy is put together. -/
structure Readable (c : Dict) (policy : Value) : Prop where
  machine : ∃ d, c.lookup "crawler" = some (.dict d)
  isDict : ∃ p, policy = .dict p
  crawler : ∀ v, item ["crawler"] policy = some v → ∃ d, v = .dict d
  weights : (read weightsPath (some policy)).isSome

/-- `crawler` of the assembled policy. -/
def inEffect (strip : Bool) (c : Dict) (policy : Value) (key : String) : Option Value :=
  if strip = true ∧ key = "target_suffixes" then some (.list [])
  else (ofPolicy policy key).or (ofMachine c key)

section Effective

variable {c : Dict} {policy : Value}

theorem assembledPolicy_eq (h : Readable c policy) (strip : Bool) :
    ∃ crawler weights, assembledPolicy strip (.dict c) policy =
        some (.dict [("crawler", .dict crawler),
          ("extraction", orValue (item ["extraction"] policy) (machineExtraction c)),
          ("lead_score", .dict [("weights", weights)])]) ∧
      ∀ key, crawler.lookup key = inEffect strip c policy key := by
  obtain ⟨mine, hmine⟩ := h.machine
  obtain ⟨p, rfl⟩ := h.isDict
  obtain ⟨weights, hweights⟩ := Option.isSome_iff_exists.mp h.weights
  have hstored : ∃ stored, ((p.lookup "crawler").getD (.dict [])) = .dict stored ∧
      ∀ key, stored.lookup key = ofPolicy (.dict p) key := by
    unfold ofPolicy item
    cases hcrawler : p.lookup "crawler" with
    | none =>
        refine ⟨[], rfl, fun key => ?_⟩
        rw [read_dict, hcrawler]
        rfl
    | some v =>
        obtain ⟨d, rfl⟩ := h.crawler v (by
          unfold item
          rw [read_dict, hcrawler]
          rfl)
        refine ⟨d, rfl, fun key => ?_⟩
        rw [read_dict, hcrawler]
        rfl
  obtain ⟨stored, hstored, hof⟩ := hstored
  have hmachine : ∀ key, mine.lookup key = ofMachine c key := by
    intro key
    unfold ofMachine item
    rw [read_dict, hmine]
    rfl
  refine ⟨if strip then setItem "target_suffixes" (.list []) (merge mine stored)
    else merge mine stored, weights.getD (.dict defaultWeights), ?_, fun key => ?_⟩
  · unfold assembledPolicy machineExtraction
    have hc : item ["crawler"] (.dict c) = some (.dict mine) := by
      unfold item
      rw [read_dict, hmine]
      rfl
    have hp : getOr ["crawler"] (.dict []) (.dict p) = some (.dict stored) := by
      unfold getOr
      rw [read_dict, ← hstored]
      rfl
    have hw : getOr ["lead_score", "weights"] (.dict defaultWeights) (.dict p) =
        some (weights.getD (.dict defaultWeights)) := by
      unfold getOr
      rw [show read ["lead_score", "weights"] (some (.dict p)) = some weights from hweights]
      rfl
    rw [hc, hp, hw]
    rfl
  · unfold inEffect
    cases strip with
    | false =>
        have hkept : ¬ (false = true ∧ key = "target_suffixes") := fun hs => Bool.false_ne_true hs.1
        rw [if_neg hkept]
        exact (lookup_merge key mine stored).trans (by rw [hof, hmachine])
    | true =>
        rw [if_pos rfl]
        by_cases hkey : key = "target_suffixes"
        · rw [if_pos ⟨rfl, hkey⟩, hkey, lookup_setItem_self]
        · rw [if_neg fun hs => hkey hs.2, lookup_setItem_of_ne (Ne.symm hkey), lookup_merge, hof,
            hmachine]

theorem effective_engine {s : SettingsState} (h : Readable s.config (getCrawlPolicy s.setting))
    (strip : Bool) (x : EngineSetting) :
    effectiveSettings strip s (.engine x) =
      readEngine (inEffect strip s.config (getCrawlPolicy s.setting)) x := by
  obtain ⟨crawler, weights, hassembled, hlookup⟩ := assembledPolicy_eq h strip
  unfold effectiveSettings
  rw [hassembled]
  show readEngine (fun k => crawler.lookup k) x = _
  rw [funext hlookup]

theorem effective_parsed {s : SettingsState} (h : Readable s.config (getCrawlPolicy s.setting))
    (strip : Bool) (x : ParserSetting) :
    effectiveSettings strip s (.parser x) =
      readParser (fun path => read path (some (orValue (item ["extraction"] (getCrawlPolicy s.setting))
        (machineExtraction s.config)))) x := by
  obtain ⟨crawler, weights, hassembled, -⟩ := assembledPolicy_eq h strip
  unfold effectiveSettings
  rw [hassembled]
  rfl

end Effective

/-! ### A post of what was shown -/

/-- `body` was shown, and is posted and accepted. -/
structure Post (yaml : Yaml) (body c cfg : Dict) (policy edited : Value) : Prop where
  shown : getConfig yaml (.dict c) policy = some body
  machine : editLocal body c = some cfg
  policy : editAll (policyEdits body) policy = some edited

section Post

variable {yaml : Yaml} {body c cfg : Dict} {policy edited : Value} {strip : Bool}

theorem readable_of_shown (hget : getConfig yaml (.dict c) policy = some body) :
    Readable c policy := by
  obtain ⟨v, hv, -⟩ := shown_entry hget 0 rfl
  obtain ⟨d, hd, -⟩ := shown_entry hget 6 rfl
  obtain ⟨depth, hdepth, -⟩ := Option.map_eq_some_iff.mp hd
  obtain ⟨e, he, -⟩ := shown_entry hget 13 rfl
  obtain ⟨high, hhigh, -⟩ := Option.map_eq_some_iff.mp he
  have hmachine : read ["crawler", "workers"] (some (.dict c)) = some (some v) :=
    Option.join_eq_some_iff.mp hv
  refine ⟨?_, ?_, fun w hw => ?_, ?_⟩
  · rw [read_dict] at hmachine
    cases hcrawler : c.lookup "crawler" with
    | none =>
        rw [hcrawler, read_none] at hmachine
        cases hmachine
    | some u =>
        rw [hcrawler] at hmachine
        cases u with
        | dict d => exact ⟨d, rfl⟩
        | _ => cases hmachine
  · cases policy with
    | dict p => exact ⟨p, rfl⟩
    | _ => cases hdepth
  · obtain ⟨o, ho, hdict⟩ := exists_container ["crawler"] "max_depth" [] (v := some policy)
      (by rw [show read (["crawler"] ++ ["max_depth"]) (some policy) = _ from hdepth]; rfl)
    exact hdict w (by
      unfold item at hw
      rw [ho] at hw
      exact hw)
  · obtain ⟨o, ho, -⟩ := exists_container weightsPath "email_high" [] (v := some policy)
      (by rw [show read (weightsPath ++ ["email_high"]) (some policy) = _ from hhigh]; rfl)
    rw [ho]
    rfl

theorem ofMachine_merged (h : Post yaml body c cfg policy edited) (k : String) :
    ofMachine (merge c cfg) k = ofMachine cfg k := by
  unfold ofMachine item
  rw [read_dict, read_dict, lookup_merge_editLocal h.machine]

theorem readable_posted (h : Post yaml body c cfg policy edited) : Readable (merge c cfg) edited := by
  obtain ⟨old, w, -, -, hdepth⟩ := read_plain h.shown h.policy 6 3 rfl rfl
  have hdone := done_of_editAll (policyEdits_before body) h.policy _ (ensure_weights_mem body)
  refine ⟨?_, ?_, fun u hu => ?_, ?_⟩
  · rw [lookup_merge_editLocal h.machine]
    rcases editLocal_cases h.machine with ⟨-, rfl⟩ | ⟨-, hcrawler⟩
    · exact (readable_of_shown h.shown).machine
    · exact hcrawler
  · cases edited with
    | dict p => exact ⟨p, rfl⟩
    | _ => cases hdepth
  · obtain ⟨o, ho, hdict⟩ := exists_container ["crawler"] "max_depth" [] (v := some edited)
      (by rw [show read (["crawler"] ++ ["max_depth"]) (some edited) = _ from hdepth]; rfl)
    exact hdict u (by
      unfold item at hu
      rw [ho] at hu
      exact hu)
  · obtain ⟨u, hu⟩ := hdone
    rw [show read weightsPath (some edited) = _ from hu]
    rfl

/-- A number of this machine. -/
theorem local_setting_iff (h : Post yaml body c cfg policy edited) (i : Nat) {k : String}
    {coerce : Value → Option Value} (d : Value)
    (hentry : (configEntries yaml (.dict c) policy)[i]? = some (k, item ["crawler", k] (.dict c)))
    (hkey : (k, coerce) ∈ localKeys) (hk : k ≠ "target_suffixes")
    (hpath : ∀ step ∈ containerSteps ++ fieldSteps, step.shape.leaves ["crawler", k] = true) :
    plainOr d (inEffect strip (merge c cfg) edited k) = plainOr d (inEffect strip c policy k) ↔
      LocalSurvives c policy coerce k := by
  obtain ⟨v, hv, hbody⟩ := shown_entry h.shown i hentry
  obtain ⟨w, hw, hposted⟩ := ofMachine_posted hbody hkey h.machine
  have hmine : ofMachine c k = some v := hv
  have hstored : ofPolicy edited k = ofPolicy policy k := by
    unfold ofPolicy item
    rw [read_untouched hpath h.policy]
  unfold inEffect
  rw [if_neg fun hs => hk hs.2, if_neg fun hs => hk hs.2, ofMachine_merged h, hposted, hstored, hmine,
    local_iff hw]
  unfold LocalSurvives
  rw [hmine]
  exact ⟨fun hs hnone v' hv' => Option.some.inj hv' ▸ hs hnone, fun hs hnone => hs hnone v rfl⟩

/-- A number of the policy. -/
theorem number_setting_iff (h : Post yaml body c cfg policy edited) (i j : Nat) {k bodyKey : String}
    {coerce : Value → Option Value} {shown : Value} (d : Value) (hk : k ≠ "target_suffixes")
    (hentry : (configEntries yaml (.dict c) policy)[i]? = some (bodyKey, getOr ["crawler", k] shown policy))
    (hstep : (containerSteps ++ fieldSteps)[j]? = some (.assign bodyKey ["crawler", k] coerce))
    (hshown : ∀ w, coerce shown = some w → w.canon = shown.canon) :
    plainOr d (inEffect strip (merge c cfg) edited k) = plainOr d (inEffect strip c policy k) ↔
      NumberSurvives coerce shown d (ofPolicy policy k) (ofMachine c k) := by
  obtain ⟨old, w, hold, hw, hposted⟩ := read_plain h.shown h.policy i j hentry hstep
  have hstored : ofPolicy policy k = old := congrArg Option.join hold
  have hedited : ofPolicy edited k = some w := congrArg Option.join hposted
  unfold inEffect
  rw [if_neg fun hs => hk hs.2, if_neg fun hs => hk hs.2, hedited, Option.some_or, hstored]
  exact number_iff hw hshown

/-- A list of the policy. -/
theorem list_setting_iff (h : Post yaml body c cfg policy edited) (i j : Nat) {k : String}
    (hkept : ¬ (strip = true ∧ k = "target_suffixes"))
    (hentry : (configEntries yaml (.dict c) policy)[i]? = some (k, joined ["crawler", k] policy))
    (hstep : (containerSteps ++ fieldSteps)[j]? = some (.assign k ["crawler", k] parseList)) :
    entriesOf (inEffect strip (merge c cfg) edited k) = entriesOf (inEffect strip c policy k) ↔
      ListSurvives (ofPolicy policy k) (ofMachine c k) := by
  obtain ⟨old, xs, hold, hxs, hposted⟩ := read_joined h.shown h.policy i j hentry hstep
  have hstored : ofPolicy policy k = old := congrArg Option.join hold
  have hedited : ofPolicy edited k = some (.list ((parseLines (joinLines xs)).map .str)) :=
    congrArg Option.join hposted
  unfold inEffect
  rw [if_neg hkept, if_neg hkept, hedited, Option.some_or, hstored]
  exact list_iff hxs

/-- A setting of the crawler that no post changes. -/
theorem untouched_setting (h : Post yaml body c cfg policy edited) {k : String}
    (hpath : ∀ step ∈ containerSteps ++ fieldSteps, step.shape.leaves ["crawler", k] = true)
    (hmachine : ∀ key ∈ localKeys, apart ["crawler", key.1] ["crawler", k] = true) :
    inEffect strip (merge c cfg) edited k = inEffect strip c policy k := by
  have hstored : ofPolicy edited k = ofPolicy policy k := by
    unfold ofPolicy item
    rw [read_untouched hpath h.policy]
  have hmine : ofMachine cfg k = ofMachine c k := by
    unfold ofMachine item
    rw [read_machine hmachine h.machine]
  unfold inEffect
  rw [hstored, ofMachine_merged h, hmine]

/-- A flag of this machine. -/
theorem flag_setting (strip : Bool) (h : Post yaml body c cfg policy edited) (i : Nat) {k : String}
    (hentry : (configEntries yaml (.dict c) policy)[i]? =
      some (k, getOr ["crawler", k] (.bool true) (.dict c)))
    (hkey : (k, asBool) ∈ localKeys) (hk : k ≠ "target_suffixes")
    (hpath : ∀ step ∈ containerSteps ++ fieldSteps, step.shape.leaves ["crawler", k] = true) :
    inEffect strip (merge c cfg) edited k = (ofPolicy policy k).or
        (some (.bool (((ofMachine c k).map toBool).getD true))) ∧
      inEffect strip c policy k = (ofPolicy policy k).or (ofMachine c k) := by
  obtain ⟨v, hv, hbody⟩ := shown_entry h.shown i hentry
  obtain ⟨old, hold, rfl⟩ := Option.map_eq_some_iff.mp hv
  obtain ⟨w, hw, hposted⟩ := ofMachine_posted hbody hkey h.machine
  obtain rfl : .bool (toBool (old.getD (.bool true))) = w := Option.some.inj hw
  have hmine : ofMachine c k = old := congrArg Option.join hold
  have hstored : ofPolicy edited k = ofPolicy policy k := by
    unfold ofPolicy item
    rw [read_untouched hpath h.policy]
  unfold inEffect
  rw [if_neg fun hs => hk hs.2, if_neg fun hs => hk hs.2, ofMachine_merged h, hposted, hstored, hmine]
  refine ⟨?_, rfl⟩
  cases old <;> rfl

/-! ### The limits of each depth -/

theorem inside_ofPolicy {k : String} (h : (read ["crawler", k] (some policy)).isSome) (key : String) :
    inside (ofPolicy policy k) key = read ["crawler", k, key] (some policy) := by
  obtain ⟨o, ho⟩ := Option.isSome_iff_exists.mp h
  show read [key] (item ["crawler", k] policy) = read (["crawler", k] ++ [key]) (some policy)
  unfold item
  rw [read_append, ho]
  rfl

/-- A limit that was shown. -/
theorem limit_posted (h : Post yaml body c cfg policy edited) {depth : Nat} (hdepth : depth < 3) :
    ∃ old w, read ["crawler", "max_links_per_page", toString depth] (some policy) = some old ∧
      asInt (old.getD (shownLimit depth)) = some w ∧
      read ["crawler", "max_links_per_page", toString depth] (some edited) = some (some w) := by
  match depth, hdepth with
  | 0, _ => exact read_plain h.shown h.policy 24 22 rfl rfl
  | 1, _ => exact read_plain h.shown h.policy 25 23 rfl rfl
  | 2, _ => exact read_plain h.shown h.policy 26 24 rfl rfl

theorem repr_injective {n m : Nat} (h : Nat.repr n = Nat.repr m) : n = m := by
  have hdigits : Nat.toDigits 10 n = Nat.toDigits 10 m := by
    rw [← Nat.toList_repr, ← Nat.toList_repr, h]
  rw [← Nat.ofDigitChars_toDigits (b := 10) (n := n) (by decide) (by decide), hdigits,
    Nat.ofDigitChars_toDigits (by decide) (by decide)]

/-- The limit of a depth that is not shown. -/
theorem limit_untouched (h : Post yaml body c cfg policy edited) {depth : Nat} (hdepth : ¬ depth < 3) :
    read ["crawler", "max_links_per_page", toString depth] (some edited) =
      read ["crawler", "max_links_per_page", toString depth] (some policy) := by
  have hne : ∀ key ∈ ["0", "1", "2", "default"], key ≠ toString depth := by
    have hnat : ∀ n < 3, Nat.repr n ≠ Nat.repr depth := fun n hn hrepr =>
      hdepth (repr_injective hrepr ▸ hn)
    have hdefault : "default" ≠ Nat.repr depth := fun hrepr => by
      have hmem : 'd' ∈ (Nat.repr depth).toList := by
        rw [← hrepr]
        decide +kernel
      rw [Nat.toList_repr] at hmem
      exact absurd (Nat.isDigit_of_mem_toDigits (by decide) (by decide) hmem) (by decide)
    intro key hkey
    simp only [List.mem_cons, List.not_mem_nil, or_false] at hkey
    rcases hkey with rfl | rfl | rfl | rfl
    · exact hnat 0 (by decide)
    · exact hnat 1 (by decide)
    · exact hnat 2 (by decide)
    · exact hdefault
  have hsteps : ∀ step ∈ containerSteps ++ fieldSteps,
      (apart step.shape.path ["crawler", "max_links_per_page"] = true ∨
        step.shape.isEnsure = true ∧
          step.shape.path.isPrefixOf ["crawler", "max_links_per_page"] = true) ∨
      ∃ key ∈ ["0", "1", "2", "default"], step.shape.path = ["crawler", "max_links_per_page", key] ∧
        step.shape.isEnsure = false := by
    decide +kernel
  refine read_untouched (fun step hstep => ?_) h.policy
  rcases hsteps step hstep with hbelow | ⟨key, hkey, hpath, hkind⟩
  · exact Edit.leaves_below hbelow (toString depth)
  · cases step with
    | setdefault path => cases hkind
    | assign bodyKey path coerce =>
        obtain rfl : path = ["crawler", "max_links_per_page", key] := hpath
        show (decide ("crawler" ≠ "crawler") || (decide (_ ≠ _) || (decide (key ≠ toString depth) || _))) =
          true
        rw [decide_eq_true (hne key hkey)]
        simp

theorem sameNumber_iff {coerce : Value → Option Value} {v w : Value} (hw : coerce v = some w) :
    SameNumber coerce v ↔ w.canon = v.canon := by
  refine ⟨fun h => h w hw, fun h w' hw' => ?_⟩
  obtain rfl := Option.some.inj (hw.symm.trans hw')
  exact h

theorem asInt_canon_of_shown {depth : Nat} {w : Value} (h : asInt (shownLimit depth) = some w) :
    w.canon = (shownLimit depth).canon := by
  match depth with
  | 0 | 1 | 2 | _ + 3 =>
      obtain rfl := Option.some.inj h
      rfl

theorem readMaxLinks_eq {limits d o : Option Value} {depth : Nat}
    (hd : inside limits "default" = some d) (ho : inside limits (toString depth) = some o) :
    readMaxLinks limits depth = plainOr (d.getD (.int 5)) o := by
  unfold readMaxLinks
  rw [hd, ho]
  rfl

/-- The container of what was shown can be read. -/
theorem container_isSome {k key : String} {v : Value} {o : Option Value}
    (h : read ["crawler", k, key] (some v) = some o) : (read ["crawler", k] (some v)).isSome := by
  obtain ⟨o, ho, -⟩ := exists_container ["crawler", k] key [] (v := some v)
    (by rw [show read (["crawler", k] ++ [key]) (some v) = _ from h]; rfl)
  rw [ho]
  rfl

/-- The limits of the depths that are shown, after the post. -/
theorem maxLinks_shown (h : Post yaml body c cfg policy edited) {depth : Nat} (hdepth : depth < 3) :
    ∃ old w, inside (ofPolicy policy "max_links_per_page") (toString depth) = some old ∧
      asInt (old.getD (shownLimit depth)) = some w ∧
      readMaxLinks (ofPolicy edited "max_links_per_page") depth = some w.canon := by
  obtain ⟨old, w, hold, hw, hposted⟩ := limit_posted h hdepth
  obtain ⟨-, wd, -, -, hdefault⟩ := read_plain h.shown h.policy 27 25 rfl rfl
  refine ⟨old, w, ?_, hw, ?_⟩
  · rw [inside_ofPolicy (container_isSome hold)]
    exact hold
  · rw [readMaxLinks_eq ((inside_ofPolicy (container_isSome hposted) _).trans hdefault)
      ((inside_ofPolicy (container_isSome hposted) _).trans hposted)]
    rfl

/-- The limits of the other depths. -/
theorem maxLinks_other (h : Post yaml body c cfg policy edited) {depth : Nat} (hdepth : ¬ depth < 3) :
    ∃ limit own w, inside (ofPolicy policy "max_links_per_page") "default" = some limit ∧
      inside (ofPolicy policy "max_links_per_page") (toString depth) = some own ∧
      asInt (limit.getD (.int 5)) = some w ∧
      readMaxLinks (ofPolicy edited "max_links_per_page") depth = plainOr w own := by
  obtain ⟨limit, w, hlimit, hw, hdefault⟩ := read_plain h.shown h.policy 27 25 rfl rfl
  have hown : inside (ofPolicy policy "max_links_per_page") (toString depth) =
      read ["crawler", "max_links_per_page", toString depth] (some policy) :=
    inside_ofPolicy (container_isSome hlimit) _
  have hsome : ∃ own, read ["crawler", "max_links_per_page", toString depth] (some policy) = some own := by
    obtain ⟨o, ho, hdict⟩ := exists_container ["crawler", "max_links_per_page"] "default" []
      (v := some policy)
      (by rw [show read (["crawler", "max_links_per_page"] ++ ["default"]) (some policy) = _ from hlimit]; rfl)
    show ∃ own, read (["crawler", "max_links_per_page"] ++ [toString depth]) (some policy) = some own
    rw [read_append, ho]
    cases o with
    | none => exact ⟨none, rfl⟩
    | some v =>
        obtain ⟨d, rfl⟩ := hdict v rfl
        exact ⟨d.lookup (toString depth), rfl⟩
  obtain ⟨own, hread⟩ := hsome
  refine ⟨limit, own, w, ?_, hown.trans hread, hw, ?_⟩
  · rw [inside_ofPolicy (container_isSome hlimit)]
    exact hlimit
  · have hposted := (limit_untouched h hdepth).trans hread
    rw [readMaxLinks_eq ((inside_ofPolicy (container_isSome hdefault) _).trans hdefault)
      ((inside_ofPolicy (container_isSome hdefault) _).trans hposted)]
    rfl

theorem ofPolicy_links_posted (h : Post yaml body c cfg policy edited) :
    ∃ limits, ofPolicy edited "max_links_per_page" = some limits := by
  have hmem : Edit.ensure ["crawler", "max_links_per_page"] ∈ policyEdits body :=
    List.mem_filterMap.mpr ⟨_, mem_steps 21 rfl, rfl⟩
  obtain ⟨w, hw⟩ := done_of_editAll (policyEdits_before body) h.policy _ hmem
  exact ⟨w, congrArg Option.join hw⟩

/-- The limit of one depth. -/
theorem limit_iff (h : Post yaml body c cfg policy edited) (depth : Nat) :
    readMaxLinks (ofPolicy edited "max_links_per_page") depth =
        readMaxLinks ((ofPolicy policy "max_links_per_page").or (ofMachine c "max_links_per_page")) depth ↔
      match ofPolicy policy "max_links_per_page" with
      | some limits => LimitSurvives limits depth
      | none => readMaxLinks (ofMachine c "max_links_per_page") depth = some (shownLimit depth).canon := by
  obtain ⟨limit, wl, hlimit, hwl, -⟩ := read_plain h.shown h.policy 27 25 rfl rfl
  have hdefault := (inside_ofPolicy (container_isSome hlimit) "default").trans hlimit
  by_cases hdepth : depth < 3
  · obtain ⟨old, w, hold, hw, hposted⟩ := maxLinks_shown h hdepth
    rw [hposted]
    cases hstored : ofPolicy policy "max_links_per_page" with
    | none =>
        rw [hstored] at hold
        obtain rfl : none = old := Option.some.inj ((read_none _).symm.trans hold)
        rw [Option.none_or, asInt_canon_of_shown hw]
        exact eq_comm
    | some limits =>
        rw [hstored] at hold hdefault
        rw [Option.some_or, readMaxLinks_eq hdefault hold]
        dsimp only
        unfold LimitSurvives item
        rw [show read [toString depth] (some limits) = some old from hold,
          show read ["default"] (some limits) = some limit from hdefault]
        cases old with
        | some v =>
            have hw : asInt v = some w := hw
            show some w.canon = some v.canon ↔ (depth < 3 → SameNumber asInt v)
            rw [Option.some.injEq, ← sameNumber_iff hw]
            exact ⟨fun hs _ => hs, fun hs => hs hdepth⟩
        | none =>
            show some w.canon = some (limit.getD (.int 5)).canon ↔ if depth < 3 then _ else _
            rw [if_pos hdepth, asInt_canon_of_shown hw, Option.some.injEq]
            exact eq_comm
  · obtain ⟨limit', own, w, hlimit', hown, hw, hposted⟩ := maxLinks_other h hdepth
    obtain rfl : limit = limit' := Option.some.inj (hdefault.symm.trans hlimit')
    rw [hposted]
    cases hstored : ofPolicy policy "max_links_per_page" with
    | none =>
        rw [hstored] at hown hlimit'
        obtain rfl : none = own := Option.some.inj ((read_none _).symm.trans hown)
        obtain rfl : none = limit := Option.some.inj ((read_none _).symm.trans hlimit')
        obtain rfl : .int 5 = w := Option.some.inj hw
        have hshown : shownLimit depth = .int 5 := by
          match depth, hdepth with
          | 0, hd | 1, hd | 2, hd => exact absurd (by decide) hd
          | _ + 3, _ => rfl
        rw [Option.none_or, hshown]
        exact eq_comm
    | some limits =>
        rw [hstored] at hown hlimit'
        rw [Option.some_or, readMaxLinks_eq hlimit' hown]
        dsimp only
        unfold LimitSurvives item
        rw [show read [toString depth] (some limits) = some own from hown,
          show read ["default"] (some limits) = some limit from hlimit']
        cases own with
        | some v => exact ⟨fun _ hd => absurd hd hdepth, fun _ => rfl⟩
        | none =>
            show some w.canon = some (limit.getD (.int 5)).canon ↔ if depth < 3 then _ else _
            rw [if_neg hdepth, Option.some.injEq]
            cases limit with
            | none =>
                obtain rfl : .int 5 = w := Option.some.inj hw
                refine ⟨fun _ v hv => ?_, fun _ => rfl⟩
                cases hv
            | some v =>
                have hw : asInt v = some w := hw
                rw [show w.canon = ((some v).getD (Value.int 5)).canon ↔ _ from
                  (sameNumber_iff hw).symm]
                exact ⟨fun hs v' hv' => Option.some.inj hv' ▸ hs, fun hs => hs v rfl⟩

theorem maxLinks_iff (h : Post yaml body c cfg policy edited) (depth : Nat) :
    readMaxLinks (inEffect strip (merge c cfg) edited "max_links_per_page") depth =
        readMaxLinks (inEffect strip c policy "max_links_per_page") depth ↔
      EngineSurvives c policy (.maxLinks depth) := by
  obtain ⟨limits, hlimits⟩ := ofPolicy_links_posted h
  have hafter : inEffect strip (merge c cfg) edited "max_links_per_page" =
      ofPolicy edited "max_links_per_page" := by
    unfold inEffect
    rw [if_neg fun hs => absurd hs.2 (by decide), hlimits, Option.some_or]
  have hbefore : inEffect strip c policy "max_links_per_page" =
      (ofPolicy policy "max_links_per_page").or (ofMachine c "max_links_per_page") :=
    if_neg fun hs => absurd hs.2 (by decide)
  rw [hafter, hbefore]
  exact limit_iff h depth

/-! ### Pagination -/

theorem safeIntOr_of_asInt {n : Int} {old : Option Value} {w : Value}
    (hw : asInt (old.getD (.int n)) = some w) : safeIntOr n (some w) = safeIntOr n old := by
  obtain ⟨m, hm, rfl⟩ := Option.map_eq_some_iff.mp hw
  cases old with
  | none =>
      obtain rfl : n = m := Option.some.inj hm
      rfl
  | some v =>
      have hm : toInt v = some m := hm
      have hsafe : safeIntOr n (some v) = some (.int ((toInt v).getD n)) := by
        cases v with
        | float x =>
            cases x with
            | infinite _ => cases hm
            | _ => rfl
        | _ => rfl
      rw [hsafe, hm]
      rfl

theorem flagOr_of_asBool {b : Bool} {old : Option Value} {w : Value}
    (hw : asBool (old.getD (.bool b)) = some w) : flagOr b (some w) = flagOr b old := by
  obtain rfl := Option.some.inj hw
  cases old <;> rfl

/-- Whatever was stored of the pagination is read as before. -/
theorem pagination_posted (h : Post yaml body c cfg policy edited) (x : PaginationSetting) :
    readPagination (ofPolicy edited "pagination") x = readPagination (ofPolicy policy "pagination") x := by
  obtain ⟨on, w, hon, hw, hposted⟩ := read_plain h.shown h.policy 32 27 rfl rfl
  obtain ⟨pages, wp, hpages, hwp, hpagesPosted⟩ := read_plain h.shown h.policy 33 28 rfl rfl
  obtain ⟨chain, wc, hchain, hwc, hchainPosted⟩ := read_plain h.shown h.policy 34 29 rfl rfl
  have hafter := inside_ofPolicy (container_isSome hposted)
  have hbefore := inside_ofPolicy (container_isSome hon)
  cases x with
  | enabled =>
      show (inside _ "enabled").bind _ = (inside _ "enabled").bind _
      rw [hafter, hbefore, hposted, hon]
      exact flagOr_of_asBool hw
  | maxPaginationPages =>
      show (inside _ "max_pagination_pages").bind _ = (inside _ "max_pagination_pages").bind _
      rw [hafter, hbefore, hpagesPosted, hpages]
      exact safeIntOr_of_asInt hwp
  | maxChainChildren =>
      show (inside _ "max_chain_children").bind _ = (inside _ "max_chain_children").bind _
      rw [hafter, hbefore, hchainPosted, hchain]
      exact safeIntOr_of_asInt hwc
  | textSignals =>
      show (inside _ "text_signals").bind _ = (inside _ "text_signals").bind _
      rw [hafter, hbefore, read_untouched (by decide +kernel) h.policy]
  | paramSignals =>
      show (inside _ "param_signals").bind _ = (inside _ "param_signals").bind _
      rw [hafter, hbefore, read_untouched (by decide +kernel) h.policy]

theorem pagination_iff (h : Post yaml body c cfg policy edited) (x : PaginationSetting) :
    readPagination (inEffect strip (merge c cfg) edited "pagination") x =
        readPagination (inEffect strip c policy "pagination") x ↔
      EngineSurvives c policy (.pagination x) := by
  have hmem : Edit.ensure ["crawler", "pagination"] ∈ policyEdits body :=
    List.mem_filterMap.mpr ⟨_, mem_steps 26 rfl, rfl⟩
  obtain ⟨w, hw⟩ := done_of_editAll (policyEdits_before body) h.policy _ hmem
  have hedited : ofPolicy edited "pagination" = some w := congrArg Option.join hw
  have hafter : inEffect strip (merge c cfg) edited "pagination" = ofPolicy edited "pagination" := by
    unfold inEffect
    rw [if_neg fun hs => absurd hs.2 (by decide), hedited, Option.some_or]
  have hbefore : inEffect strip c policy "pagination" =
      (ofPolicy policy "pagination").or (ofMachine c "pagination") :=
    if_neg fun hs => absurd hs.2 (by decide)
  rw [hafter, hbefore, pagination_posted h x]
  show _ ↔ (ofPolicy policy "pagination" = none → _)
  cases ofPolicy policy "pagination" with
  | none =>
      rw [Option.none_or]
      exact ⟨fun hs _ => hs.symm, fun hs => (hs rfl).symm⟩
  | some v =>
      refine ⟨fun _ hnone => ?_, fun _ => rfl⟩
      cases hnone

/-! ### Extraction -/

/-- What is at a path in the stored `extraction`. -/
def inExtraction (policy : Value) (path : List String) : Option (Option Value) :=
  read ("extraction" :: path) (some policy)

theorem read_extraction {v : Value} (h : item ["extraction"] policy = some v) (path : List String) :
    read path (some v) = inExtraction policy path := by
  have hread : read ["extraction"] (some policy) = some (some v) := Option.join_eq_some_iff.mp h
  show _ = read (["extraction"] ++ path) (some policy)
  rw [read_append, hread]
  rfl

theorem plain_stored_iff {coerce : Value → Option Value} {d : Value} {old : Option Value} {w : Value}
    (hw : coerce (old.getD d) = some w) (hd : ∀ w, coerce d = some w → w.canon = d.canon) :
    plainOr d (some w) = plainOr d old ↔ ∀ v, old = some v → SameNumber coerce v := by
  have hiff := @number_iff old none w coerce d d hw hd
  rw [Option.or_none] at hiff
  rw [hiff]
  cases old with
  | none =>
      refine ⟨fun _ v hv => ?_, fun _ => rfl⟩
      cases hv
  | some v => exact ⟨fun hs v' hv' => Option.some.inj hv' ▸ hs, fun hs => hs v rfl⟩

theorem list_stored_iff {old : Option Value} {xs : List String}
    (hxs : texts (old.getD (.list [])) = some xs) :
    entriesOf (some (.list ((parseLines (joinLines xs)).map .str))) = entriesOf old ↔
      ∀ v, old = some v → TidyList v := by
  have hiff := @list_iff old none xs hxs
  rw [Option.or_none] at hiff
  rw [hiff]
  cases old with
  | none =>
      refine ⟨fun _ v hv => ?_, fun _ => rfl⟩
      cases hv
  | some v => exact ⟨fun hs v' hv' => Option.some.inj hv' ▸ hs, fun hs => hs v rfl⟩

/-- Valid suffixes that are not stored are shown as none, and are not none. -/
theorem suffixes_stored_iff {old : Option Value} {xs : List String}
    (hxs : texts (old.getD (.list [])) = some xs) :
    tupleOr (.list [.str ".gov.in", .str ".nic.in"])
          (some (.list ((parseLines (joinLines xs)).map .str))) =
        tupleOr (.list [.str ".gov.in", .str ".nic.in"]) old ↔
      ∃ v, old = some v ∧ TidyList v := by
  rw [tupleOr_of_texts _ (texts_list _)]
  cases old with
  | none =>
      obtain rfl : [] = xs := Option.some.inj hxs
      constructor
      · intro h
        cases Value.list.inj (Option.some.inj h)
      · rintro ⟨v, hv, -⟩
        cases hv
  | some v =>
      have hxs : texts v = some xs := hxs
      rw [tupleOr_of_texts _ hxs, list_eq_iff hxs]
      exact ⟨fun h => ⟨v, rfl, h⟩, fun ⟨v', hv', h⟩ => Option.some.inj hv' ▸ h⟩

theorem inExtraction_untouched (h : Post yaml body c cfg policy edited) {path : List String}
    (hpath : ∀ step ∈ containerSteps ++ fieldSteps, step.shape.leaves ("extraction" :: path) = true) :
    inExtraction edited path = inExtraction policy path := read_untouched hpath h.policy

/-- A stored setting is read as before exactly if it survives. -/
theorem parser_setting_iff (h : Post yaml body c cfg policy edited) (x : ParserSetting) :
    readParser (inExtraction edited) x = readParser (inExtraction policy) x ↔
      ParserSurvives policy x := by
  have huntouched : ∀ {path : List String} {f : Option Value → Option Value},
      (∀ step ∈ containerSteps ++ fieldSteps, step.shape.leaves ("extraction" :: path) = true) →
        ((inExtraction edited path).bind f = (inExtraction policy path).bind f ↔ True) := by
    intro path f hpath
    rw [inExtraction_untouched h hpath]
    exact ⟨fun _ => trivial, fun _ => rfl⟩
  cases x with
  | contextChars =>
      obtain ⟨old, w, hold, hw, hposted⟩ := read_plain h.shown h.policy 10 7 rfl rfl
      unfold readParser inExtraction ParserSurvives item
      rw [hold, hposted]
      exact plain_stored_iff hw fun w hw => Option.some.inj hw ▸ rfl
  | proximityChars =>
      obtain ⟨old, w, hold, hw, hposted⟩ := read_plain h.shown h.policy 12 9 rfl rfl
      unfold readParser inExtraction ParserSurvives item
      rw [hold, hposted]
      exact plain_stored_iff hw fun w hw => Option.some.inj hw ▸ rfl
  | validSuffixes =>
      obtain ⟨old, xs, hold, hxs, hposted⟩ := read_joined h.shown h.policy 21 18 rfl rfl
      unfold readParser inExtraction ParserSurvives item
      rw [hold, hposted]
      exact suffixes_stored_iff hxs
  | titlePrefixes =>
      obtain ⟨old, xs, hold, hxs, hposted⟩ := read_joined h.shown h.policy 22 19 rfl rfl
      unfold readParser inExtraction ParserSurvives item
      rw [hold, hposted]
      exact list_stored_iff hxs
  | designationKeywords =>
      obtain ⟨old, xs, hold, hxs, hposted⟩ := read_joined h.shown h.policy 23 20 rfl rfl
      unfold readParser inExtraction ParserSurvives item
      rw [hold, hposted]
      exact list_stored_iff hxs
  | emailEnabled =>
      obtain ⟨old, w, hold, hw, hposted⟩ := read_plain h.shown h.policy 9 6 rfl rfl
      unfold readParser inExtraction
      rw [hold, hposted]
      exact ⟨fun _ => trivial, fun _ => flagOr_of_asBool hw⟩
  | personEnabled =>
      obtain ⟨old, w, hold, hw, hposted⟩ := read_plain h.shown h.policy 11 8 rfl rfl
      unfold readParser inExtraction
      rw [hold, hposted]
      exact ⟨fun _ => trivial, fun _ => flagOr_of_asBool hw⟩
  | emailRegex => exact @huntouched ["email", "regex"] _ (by decide +kernel)
  | obfuscation => exact @huntouched ["email", "obfuscation"] _ (by decide +kernel)
  | highRungs => exact @huntouched ["confidence", "high_rungs"] _ (by decide +kernel)
  | roleLocalParts => exact @huntouched ["role_local_parts"] _ (by decide +kernel)
  | maxInputChars => exact @huntouched ["max_input_chars"] _ (by decide +kernel)

/-- Where nothing is stored, the post stores what was shown: defaults, and no valid suffixes. -/
theorem parser_of_nothing (h : Post yaml body c cfg policy edited)
    (hnone : ∀ k ks, inExtraction policy (k :: ks) = some none) (x : ParserSetting) :
    readParser (inExtraction edited) x = readNothing x := by
  have hitem : ∀ k ks, item ("extraction" :: k :: ks) policy = none := fun k ks =>
    congrArg Option.join (hnone k ks)
  by_cases hx : x = .validSuffixes
  · subst hx
    obtain ⟨old, xs, hold, hxs, hposted⟩ := read_joined h.shown h.policy 21 18 rfl rfl
    obtain rfl : none = old := Option.some.inj ((hnone _ _).symm.trans hold)
    obtain rfl : [] = xs := Option.some.inj hxs
    unfold readParser inExtraction
    rw [hposted]
    rfl
  · have hsurvives : ParserSurvives policy x := by
      cases x with
      | validSuffixes => exact absurd rfl hx
      | contextChars | proximityChars | titlePrefixes | designationKeywords =>
          intro v hv
          rw [hitem] at hv
          cases hv
      | _ => trivial
    rw [(parser_setting_iff h x).mpr hsurvives]
    unfold readNothing
    cases x with
    | validSuffixes => exact absurd rfl hx
    | _ =>
        unfold readParser
        dsimp only
        rw [hnone]
        rfl

/-- A post leaves something in `extraction`. -/
theorem extraction_posted (h : Post yaml body c cfg policy edited) :
    ∃ v, item ["extraction"] edited = some v ∧ toBool v = true := by
  obtain ⟨-, w, -, -, hposted⟩ := read_plain h.shown h.policy 9 6 rfl rfl
  obtain ⟨o, ho, hdict⟩ := exists_container ["extraction"] "email" ["enabled"]
    (v := some edited)
    (by rw [show read (["extraction"] ++ ["email", "enabled"]) (some edited) = _ from hposted]; rfl)
  rw [show ["extraction", "email", "enabled"] = ["extraction"] ++ ["email", "enabled"] from rfl,
    read_append, ho] at hposted
  cases o with
  | none =>
      rw [Option.bind_some, read_none] at hposted
      cases hposted
  | some v =>
      obtain ⟨d, rfl⟩ := hdict v rfl
      refine ⟨_, congrArg Option.join ho, ?_⟩
      cases d with
      | nil =>
          rw [Option.bind_some, read_dict, List.lookup_nil, read_none] at hposted
          cases hposted
      | cons p d => rfl

/-- What is stored of an `extraction` that does not count is nothing. -/
theorem inExtraction_of_empty (h : Post yaml body c cfg policy edited)
    (hempty : ¬ hasExtraction policy = true) (k : String) (ks : List String) :
    inExtraction policy (k :: ks) = some none := by
  obtain ⟨old, -, hold, -, -⟩ := read_plain h.shown h.policy 9 6 rfl rfl
  obtain ⟨o, ho, hdict⟩ := exists_container ["extraction"] "email" ["enabled"]
    (v := some policy)
    (by rw [show read (["extraction"] ++ ["email", "enabled"]) (some policy) = _ from hold]; rfl)
  show read (["extraction"] ++ k :: ks) (some policy) = some none
  rw [read_append, ho, Option.bind_some]
  cases o with
  | none => exact read_none _
  | some v =>
      obtain ⟨d, rfl⟩ := hdict v rfl
      have hitem : item ["extraction"] policy = some (.dict d) := congrArg Option.join ho
      cases d with
      | nil => exact read_none _
      | cons p d =>
          refine absurd ?_ hempty
          unfold hasExtraction
          rw [hitem]
          rfl

/-! ### All settings -/

theorem inEffect_isSome {c : Dict} {policy : Value} {k : String} (h : (ofMachine c k).isSome) :
    (inEffect strip c policy k).isSome := by
  unfold inEffect
  split
  · rfl
  · rw [Option.isSome_or, h, Bool.or_true]

theorem map_canon_eq_plainOr {v : Option Value} (h : v.isSome) (d : Value) :
    v.map Value.canon = plainOr d v := by
  obtain ⟨w, rfl⟩ := Option.isSome_iff_exists.mp h
  rfl

/-- The number of workers is there, before and after. -/
theorem workers_iff (h : Post yaml body c cfg policy edited) :
    (inEffect strip (merge c cfg) edited "workers").map Value.canon =
        (inEffect strip c policy "workers").map Value.canon ↔
      LocalSurvives c policy asInt "workers" := by
  have hkey : ("workers", asInt) ∈ localKeys := List.mem_of_getElem? (i := 0) rfl
  obtain ⟨v, hv, hbody⟩ := shown_entry h.shown 0 rfl
  obtain ⟨w, -, hposted⟩ := ofMachine_posted hbody hkey h.machine
  have hbefore : (ofMachine c "workers").isSome := by
    rw [show ofMachine c "workers" = some v from hv]
    rfl
  have hafter : (ofMachine (merge c cfg) "workers").isSome := by
    rw [ofMachine_merged h, hposted]
    rfl
  rw [map_canon_eq_plainOr (inEffect_isSome hbefore) .null,
    map_canon_eq_plainOr (inEffect_isSome hafter) .null]
  exact local_setting_iff h 0 .null rfl hkey (by decide) (by decide +kernel)

/-- Playwright is not used where nothing says so, and is once `True` was shown and posted. -/
theorem contexts_iff (h : Post yaml body c cfg policy edited) :
    flagOr false (inEffect strip (merge c cfg) edited "playwright_fallback") =
        flagOr false (inEffect strip c policy "playwright_fallback") ↔
      (ofPolicy policy "playwright_fallback").isSome ∨ (ofMachine c "playwright_fallback").isSome := by
  obtain ⟨hafter, hbefore⟩ := flag_setting strip h 3 rfl (List.mem_of_getElem? (i := 5) rfl)
    (by decide) (by decide +kernel)
  rw [hafter, hbefore]
  cases ofPolicy policy "playwright_fallback" with
  | some v => exact ⟨fun _ => Or.inl rfl, fun _ => rfl⟩
  | none =>
      cases ofMachine c "playwright_fallback" with
      | some v => exact ⟨fun _ => Or.inr rfl, fun _ => rfl⟩
      | none =>
          refine ⟨fun hs => ?_, fun hs => ?_⟩
          · cases Value.bool.inj (Option.some.inj hs)
          · rcases hs with hs | hs <;> cases hs

theorem true_flag (h : Post yaml body c cfg policy edited) (i j : Nat) {k : String}
    (hentry : (configEntries yaml (.dict c) policy)[i]? =
      some (k, getOr ["crawler", k] (.bool true) (.dict c)))
    (hkey : localKeys[j]? = some (k, asBool)) (hk : k ≠ "target_suffixes")
    (hpath : ∀ step ∈ containerSteps ++ fieldSteps, step.shape.leaves ["crawler", k] = true) :
    flagOr true (inEffect strip (merge c cfg) edited k) = flagOr true (inEffect strip c policy k) := by
  obtain ⟨hafter, hbefore⟩ :=
    flag_setting strip h i hentry (List.mem_of_getElem? hkey) hk hpath
  rw [hafter, hbefore]
  cases ofPolicy policy k with
  | some v => rfl
  | none => cases ofMachine c k <;> rfl

theorem engine_setting_iff (h : Post yaml body c cfg policy edited) (x : EngineSetting)
    (hkept : ¬ (strip = true ∧ x = .targetSuffixes)) :
    readEngine (inEffect strip (merge c cfg) edited) x = readEngine (inEffect strip c policy) x ↔
      EngineSurvives c policy x := by
  have huntouched : ∀ {k : String} {f : Option Value → Option Value},
      (∀ step ∈ containerSteps ++ fieldSteps, step.shape.leaves ["crawler", k] = true) →
      (∀ key ∈ localKeys, apart ["crawler", key.1] ["crawler", k] = true) →
        (f (inEffect strip (merge c cfg) edited k) = f (inEffect strip c policy k) ↔ True) := by
    intro k f hpath hmachine
    rw [untouched_setting h hpath hmachine]
    exact ⟨fun _ => trivial, fun _ => rfl⟩
  cases x with
  | workers => exact workers_iff h
  | parseWorkers => exact @huntouched "parse_workers" truthyValue (by decide +kernel) (by decide +kernel)
  | connectTimeout =>
      exact @huntouched "httpx_timeout" (fun v => (inside v "connect").bind (plainOr (.int 10)))
        (by decide +kernel) (by decide +kernel)
  | readTimeout =>
      exact @huntouched "httpx_timeout" (fun v => (inside v "read").bind (plainOr (.int 30)))
        (by decide +kernel) (by decide +kernel)
  | userAgent =>
      exact @huntouched "user_agent" (plainOr (.str "")) (by decide +kernel) (by decide +kernel)
  | jsIndicators =>
      exact @huntouched "js_indicators" (tupleOr (.list [])) (by decide +kernel) (by decide +kernel)
  | playwrightContexts => exact contexts_iff h
  | playwrightFetch =>
      exact ⟨fun _ => trivial, fun _ => true_flag h 3 5 rfl rfl (by decide) (by decide +kernel)⟩
  | httpxFirst =>
      exact ⟨fun _ => trivial, fun _ => true_flag h 2 4 rfl rfl (by decide) (by decide +kernel)⟩
  | perUrlTimeout =>
      exact local_setting_iff h 1 (.int 100) rfl (List.mem_of_getElem? (i := 1) rfl) (by decide)
        (by decide +kernel)
  | playwrightTimeout =>
      exact local_setting_iff h 4 (.int 45) rfl (List.mem_of_getElem? (i := 2) rfl) (by decide)
        (by decide +kernel)
  | jsSettleTime =>
      exact local_setting_iff h 5 (.float (.finite 3)) rfl (List.mem_of_getElem? (i := 3) rfl)
        (by decide) (by decide +kernel)
  | maxDepth =>
      exact number_setting_iff h 6 3 (.int 3) (by decide) rfl rfl fun w hw => Option.some.inj hw ▸ rfl
  | requestDelay =>
      exact number_setting_iff h 8 5 (.float (.finite (3 / 2))) (by decide) rfl rfl fun w hw =>
        Option.some.inj hw ▸ rfl
  | targetSuffixes => exact list_setting_iff h 18 15 (fun hs => hkept ⟨hs.1, rfl⟩) rfl rfl
  | priorityKeywords =>
      exact list_setting_iff h 19 16 (fun hs => absurd hs.2 (by decide)) rfl rfl
  | skipExtensions => exact list_setting_iff h 20 17 (fun hs => absurd hs.2 (by decide)) rfl rfl
  | maxLinks depth => exact maxLinks_iff h depth
  | pagination x => exact pagination_iff h x

/-- What the parser reads before and after the post. -/
theorem parser_iff (h : Post yaml body c cfg policy edited) (x : ParserSetting) :
    readParser (fun path =>
          read path (some (orValue (item ["extraction"] edited) (machineExtraction (merge c cfg))))) x =
        readParser (fun path =>
          read path (some (orValue (item ["extraction"] policy) (machineExtraction c)))) x ↔
      if hasExtraction policy then ParserSurvives policy x
      else readParser (fun path => read path (some (machineExtraction c))) x = readNothing x := by
  obtain ⟨v, hv, htrue⟩ := extraction_posted h
  have hafter : (fun path => Json.read path
      (some (orValue (item ["extraction"] edited) (machineExtraction (merge c cfg))))) =
        inExtraction edited := by
    rw [hv]
    dsimp only [orValue]
    rw [if_pos htrue]
    exact funext (read_extraction hv)
  rw [hafter]
  by_cases hhas : hasExtraction policy = true
  · rw [if_pos hhas, ← parser_setting_iff h x]
    have hstored : ∃ w, item ["extraction"] policy = some w ∧ toBool w = true := by
      unfold hasExtraction at hhas
      cases hw : item ["extraction"] policy with
      | none =>
          rw [hw] at hhas
          cases hhas
      | some w =>
          rw [hw] at hhas
          exact ⟨w, rfl, hhas⟩
    obtain ⟨w, hw, hwtrue⟩ := hstored
    rw [hw]
    dsimp only [orValue]
    rw [if_pos hwtrue, funext (read_extraction hw)]
  · rw [if_neg hhas, parser_of_nothing h (inExtraction_of_empty h hhas) x]
    have hfallback : orValue (item ["extraction"] policy) (machineExtraction c) = machineExtraction c := by
      unfold hasExtraction at hhas
      cases hw : item ["extraction"] policy with
      | none => rfl
      | some w =>
          rw [hw] at hhas
          exact if_neg hhas
    rw [hfallback]
    exact eq_comm

end Post

theorem settings_round_trip_iff (yaml : Yaml) (user : CurrentUser) (ip : Option String)
    (s : SettingsState) (body : Dict)
    (hshown : getConfig yaml (.dict s.config) (getCrawlPolicy s.setting) = some body) :
    PostKeepsSettings yaml user ip s body ↔
      Refused body s.config (getCrawlPolicy s.setting) ∨
        Survives s.config (getCrawlPolicy s.setting) := by
  by_cases haccepts : LocalAccepts body s.config ∧ PolicyAccepts body (getCrawlPolicy s.setting)
  swap
  · obtain ⟨e, fs', hrun⟩ := saveConfig_of_refused yaml user ip haccepts []
    refine ⟨fun _ => Or.inl haccepts, fun _ strip x => ?_⟩
    rw [hrun]
  obtain ⟨cfg, hcfg⟩ := Option.isSome_iff_exists.mp (editLocal_isSome.mpr haccepts.1)
  obtain ⟨⟨edited, changed⟩, hpolicy⟩ :=
    Option.isSome_iff_exists.mp (editPolicy_isSome.mpr haccepts.2)
  have hpost : Post yaml body s.config cfg (getCrawlPolicy s.setting) edited := by
    obtain ⟨opened, -, -, -, hopened, -, -, hedited, -⟩ := editPolicy_parts hpolicy
    exact ⟨hshown, hcfg, (editAll_policyEdits hopened).trans hedited⟩
  obtain ⟨message, audit, fs', hrun⟩ : ∃ message audit fs', saveConfig yaml body user ip s [] =
      (.ok ⟨message, changed⟩,
        { (s.withRow edited user).withConfig yaml cfg with audit := audit }, fs') := by
    rcases saveConfig_cases yaml user ip hcfg hpolicy [] with
      ⟨h, -⟩ | ⟨-, h, -⟩ | ⟨-, h, -⟩ | ⟨-, h⟩
    · exact absurd quiet_nil h
    · exact absurd quiet_nil h
    · exact absurd quiet_nil h
    · exact h
  have hbefore := readable_of_shown hshown
  have hafter := readable_posted hpost
  unfold PostKeepsSettings Refused
  rw [hrun, or_iff_right (not_not.mpr haccepts)]
  constructor
  · intro hkeeps
    refine ⟨fun x => ?_, fun x => ?_⟩
    · have hx := hkeeps false (.engine x)
      rw [effective_engine hafter, effective_engine hbefore] at hx
      exact (engine_setting_iff hpost x fun hs => Bool.false_ne_true hs.1).mp hx
    · have hx := hkeeps false (.parser x)
      rw [effective_parsed hafter, effective_parsed hbefore] at hx
      exact (parser_iff hpost x).mp hx
  · intro hsurvives strip x
    cases x with
    | parser x =>
        rw [effective_parsed hafter, effective_parsed hbefore]
        exact (parser_iff hpost x).mpr (hsurvives.parser x)
    | engine x =>
        rw [effective_engine hafter, effective_engine hbefore]
        by_cases hstripped : strip = true ∧ x = .targetSuffixes
        · obtain ⟨rfl, rfl⟩ := hstripped
          rfl
        · exact (engine_setting_iff hpost x hstripped).mpr (hsurvives.engine x)

/-- A policy in which all is stored for which the defaults differ. -/
theorem stored_defaults_survive :
    let yaml : Yaml := ⟨fun _ => "[]", fun _ => ""⟩
    let c : Dict := [("crawler", .dict [("workers", .int 4), ("per_url_timeout", .int 10),
      ("playwright_timeout", .int 20), ("js_settle_time", .float (.finite 1)),
      ("playwright_fallback", .bool true)])]
    let policy : Value := .dict [
      ("crawler", .dict [("max_depth", .int 6), ("target_suffixes", .list [.str ".gov.in"]),
        ("max_links_per_page", .dict [("0", .int 30), ("1", .int 15), ("2", .int 8)])]),
      ("extraction", .dict [("email", .dict [("valid_suffixes", .list [.str ".nic.in"])])])]
    let s : SettingsState := { setting := some ⟨policy, none⟩, config := c, file := "" }
    ∃ body, getConfig yaml (.dict c) policy = some body ∧
      PostKeepsSettings yaml ⟨1, "a@a.com", true, []⟩ none s body := by
  intro yaml c policy s
  have hshown : (getConfig yaml (.dict c) policy).isSome := by decide +kernel
  obtain ⟨body, hbody⟩ := Option.isSome_iff_exists.mp hshown
  have hint : ∀ n, SameNumber asInt (.int n) := fun n w hw => Option.some.inj hw ▸ rfl
  have htidy : ∀ x, Tidy x → TidyList (.list [.str x]) := by
    intro x hx xs hxs y hy
    obtain rfl : [x] = xs := Option.some.inj hxs
    rwa [List.mem_singleton.mp hy]
  have hgov : Tidy ".gov.in" := ⟨by decide, by decide +kernel, by decide +kernel, by decide +kernel⟩
  have hnic : Tidy ".nic.in" := ⟨by decide, by decide +kernel, by decide +kernel, by decide +kernel⟩
  refine ⟨body, hbody, (settings_round_trip_iff yaml _ none s body hbody).mpr (Or.inr ⟨?_, ?_⟩)⟩
  · intro x
    cases x with
    | workers | perUrlTimeout | playwrightTimeout =>
        intro _ v hv
        obtain rfl := Option.some.inj hv
        exact hint _
    | jsSettleTime =>
        intro _ v hv w hw
        obtain rfl := Option.some.inj hv
        exact Option.some.inj hw ▸ rfl
    | playwrightContexts => exact Or.inr rfl
    | maxDepth => exact hint 6
    | targetSuffixes => exact htidy _ hgov
    | maxLinks depth =>
        show LimitSurvives _ depth
        match depth with
        | 0 => exact fun _ => hint 30
        | 1 => exact fun _ => hint 15
        | 2 => exact fun _ => hint 8
        | n + 3 =>
            unfold LimitSurvives
            split
            · intro hlt
              omega
            · rw [if_neg (by omega)]
              intro v hv
              cases hv
    | pagination x => exact fun _ => by cases x <;> rfl
    | requestDelay | priorityKeywords | skipExtensions => rfl
    | _ => trivial
  · intro x
    rw [if_pos (by decide +kernel)]
    cases x with
    | validSuffixes => exact ⟨_, rfl, htidy _ hnic⟩
    | contextChars | proximityChars | titlePrefixes | designationKeywords =>
        intro v hv
        cases hv
    | _ => trivial

/-- A policy without a depth: the engine goes 3 deep, 4 is shown, and posted it is 4. -/
theorem max_depth_changed_by_post :
    let yaml : Yaml := ⟨fun _ => "[]", fun _ => ""⟩
    let c : Dict := [("crawler", .dict [("workers", .int 4), ("per_url_timeout", .int 10),
      ("playwright_timeout", .int 20), ("js_settle_time", .float (.finite 1))])]
    let s : SettingsState := { setting := some ⟨emptyPolicy, none⟩, config := c, file := "" }
    ∃ body, getConfig yaml (.dict c) emptyPolicy = some body ∧
      ¬ PostKeepsSettings yaml ⟨1, "a@a.com", true, []⟩ none s body := by
  intro yaml c s
  have hshown : ∀ o : Option Dict, o.isSome = true → o = some (o.getD []) := by
    intro o ho
    cases o with
    | none => cases ho
    | some body => rfl
  refine ⟨(getConfig yaml (.dict c) emptyPolicy).getD [], hshown _ (by decide +kernel), ?_⟩
  intro hkeeps
  have hdepth := congrArg (fun v => v.bind Value.number) (hkeeps false (.engine .maxDepth))
  exact absurd hdepth (by decide +kernel)

end GovCrawler
