/-
Where `_truncate_at_known_suffix` cuts.

It cuts after the first occurrence of a configured suffix, of whichever suffix ends first.  So an
address stays as it is exactly if no configured suffix occurs in its domain before the end, and
that its domain ends with one is not enough: in `portal.gov.india.gov.in` there is a `.gov.in` in
the middle.
-/
import Mathlib.Data.List.TakeWhile
import GovCrawler.Crawler.Addresses

namespace GovCrawler

namespace Parser

/-! ### `find` and `rpartition` -/

theorem findSub_eq_none {sub : List Char} {s : List Char} (h : findSub sub s = none) :
    ¬ sub <:+: s := by
  induction s with
  | nil =>
      intro hinfix
      obtain rfl := List.infix_nil.mp hinfix
      cases h
  | cons c cs ih =>
      unfold findSub at h
      split at h
      · cases h
      · rename_i hprefix
        rw [List.infix_cons_iff, not_or]
        exact ⟨fun hp => hprefix (List.isPrefixOf_iff_prefix.mpr hp),
          ih (Option.map_eq_none_iff.mp h)⟩

/-- `find` finds an occurrence, and there is none before it. -/
theorem findSub_eq_some {sub : List Char} {s : List Char} {pos : Nat} (h : findSub sub s = some pos) :
    (∃ before after, s = before ++ sub ++ after ∧ before.length = pos) ∧
      ∀ before after, s = before ++ sub ++ after → pos ≤ before.length := by
  induction s generalizing pos with
  | nil =>
      unfold findSub at h
      split at h
      · rename_i hempty
        obtain rfl := List.isEmpty_iff.mp hempty
        obtain rfl := Option.some.inj h
        exact ⟨⟨[], [], rfl, rfl⟩, fun _ _ _ => Nat.zero_le _⟩
      · cases h
  | cons c cs ih =>
      unfold findSub at h
      split at h
      · rename_i hprefix
        obtain ⟨after, hafter⟩ := List.isPrefixOf_iff_prefix.mp hprefix
        obtain rfl := Option.some.inj h
        exact ⟨⟨[], after, hafter.symm, rfl⟩, fun _ _ _ => Nat.zero_le _⟩
      · rename_i hprefix
        obtain ⟨pos', hpos', rfl⟩ := Option.map_eq_some_iff.mp h
        obtain ⟨⟨before, after, heq, hlen⟩, hfirst⟩ := ih hpos'
        refine ⟨⟨c :: before, after, by rw [heq]; rfl, by rw [List.length_cons, hlen]⟩, ?_⟩
        intro before' after' heq'
        cases before' with
        | nil => exact absurd (List.isPrefixOf_iff_prefix.mpr ⟨after', heq'.symm⟩) hprefix
        | cons c' before' =>
            exact Nat.succ_le_succ (hfirst before' after' (List.cons.inj heq').2)

theorem rpartitionAt_cases (address : String) :
    address.toList = (rpartitionAt address).1.toList ++ '@' :: (rpartitionAt address).2.toList ∨
      (rpartitionAt address = ("", address) ∧ '@' ∉ address.toList) := by
  unfold rpartitionAt
  dsimp only
  generalize hreversed : address.toList.reverse = reversed
  have haddress : address.toList = reversed.reverse := by rw [← hreversed, List.reverse_reverse]
  rw [haddress]
  have hsplit := List.takeWhile_append_dropWhile (p := fun c => decide (c ≠ '@')) (l := reversed)
  cases hdrop : reversed.dropWhile fun c => decide (c ≠ '@') with
  | nil =>
      refine Or.inr ⟨rfl, fun hmem => ?_⟩
      have hall := List.dropWhile_eq_nil_iff.mp hdrop '@' (List.mem_reverse.mp hmem)
      exact absurd rfl (of_decide_eq_true hall)
  | cons c rest =>
      have hc : c = '@' := by
        have hhead := List.head?_dropWhile_not (fun c => decide (c ≠ '@')) reversed
        rw [hdrop] at hhead
        simpa using hhead
      refine Or.inl ?_
      rw [hdrop, hc] at hsplit
      conv_lhs => rw [← hsplit]
      simp

/-! ### Where it cuts -/

/-- The domain that is looked at. -/
def matchedDomain (address : String) : String := (rpartitionAt address).2

/-- No configured suffix occurs in the domain but at its end. -/
def Intact (validSuffixes : List String) (address : String) : Prop :=
  ∀ suffix ∈ validSuffixes, ∀ before after,
    (matchedDomain address).toList = before ++ suffix.toList ++ after → after = []

/-- Where the suffixes that occur in the domain end, each where it first occurs. -/
def suffixEnds (validSuffixes : List String) (address : String) : List Nat :=
  validSuffixes.filterMap fun suffix =>
    (findSub suffix.toList (matchedDomain address).toList).map (· + suffix.length)

theorem suffixEnds_le {validSuffixes : List String} {address : String} {stop : Nat}
    (h : stop ∈ suffixEnds validSuffixes address) : stop ≤ (matchedDomain address).length := by
  obtain ⟨suffix, -, hstop⟩ := List.mem_filterMap.mp h
  obtain ⟨pos, hpos, rfl⟩ := Option.map_eq_some_iff.mp hstop
  obtain ⟨⟨before, after, heq, hlen⟩, -⟩ := findSub_eq_some hpos
  have hlength := congrArg List.length heq
  simp only [List.length_append, String.length_toList] at hlength
  omega

/-- An address is intact if each suffix that occurs ends where the domain does. -/
theorem intact_iff {validSuffixes : List String} {address : String} :
    Intact validSuffixes address ↔
      ∀ stop ∈ suffixEnds validSuffixes address, stop = (matchedDomain address).length := by
  constructor
  · intro hintact stop hstop
    obtain ⟨suffix, hsuffix, hstop⟩ := List.mem_filterMap.mp hstop
    obtain ⟨pos, hpos, rfl⟩ := Option.map_eq_some_iff.mp hstop
    obtain ⟨⟨before, after, heq, hlen⟩, -⟩ := findSub_eq_some hpos
    obtain rfl := hintact suffix hsuffix before after heq
    have hlength := congrArg List.length heq
    simp only [List.length_append, String.length_toList, List.length_nil] at hlength
    omega
  · intro hends suffix hsuffix before after heq
    cases hfind : findSub suffix.toList (matchedDomain address).toList with
    | none => exact absurd ⟨before, after, heq.symm⟩ (findSub_eq_none hfind)
    | some pos =>
        have hstop := hends (pos + suffix.length)
          (List.mem_filterMap.mpr ⟨suffix, hsuffix, by rw [hfind]; rfl⟩)
        have hfirst := (findSub_eq_some hfind).2 before after heq
        have hlength := congrArg List.length heq
        simp only [List.length_append, String.length_toList] at hlength
        exact List.eq_nil_of_length_eq_zero (by omega)

/-- A cut is seen. -/
theorem cut_ne {address : String} {stop : Nat} (hstop : stop < (matchedDomain address).length) :
    (rpartitionAt address).1 ++ "@" ++ firstChars stop (matchedDomain address) ≠ address := by
  intro heq
  have hlist := congrArg String.toList heq
  rw [String.toList_append, String.toList_append] at hlist
  obtain hat | ⟨hwhole, hnone⟩ := rpartitionAt_cases address
  · have hlength := congrArg List.length (hlist.trans hat)
    have hshort : (firstChars stop (matchedDomain address)).toList.length ≤ stop := by
      unfold firstChars
      rw [String.toList_ofList]
      exact List.length_take_le _ _
    have hone : "@".toList.length = 1 := rfl
    have hdomain : (rpartitionAt address).2.toList.length = (matchedDomain address).length :=
      String.length_toList
    simp only [List.length_append, List.length_cons] at hlength
    omega
  · refine hnone (hlist ▸ ?_)
    exact List.mem_append_left _ (List.mem_append_right _ (by decide))

/-- **An address is left as it is** exactly if it is intact. -/
theorem truncateAtKnownSuffix_eq_iff (validSuffixes : List String) (address : String) :
    truncateAtKnownSuffix validSuffixes address = address ↔ Intact validSuffixes address := by
  rw [intact_iff]
  unfold truncateAtKnownSuffix
  dsimp only
  split
  · rename_i hempty
    refine iff_of_true rfl fun stop hstop => ?_
    have hle := suffixEnds_le hstop
    have hlength : (matchedDomain address).length = 0 := by
      unfold matchedDomain
      rw [hempty]
      rfl
    omega
  · split
    · rename_i hmin
      have hnone : suffixEnds validSuffixes address = [] := List.min?_eq_none_iff.mp hmin
      rw [hnone]
      exact iff_of_true rfl fun stop hstop => absurd hstop List.not_mem_nil
    · rename_i earliestEnd hmin
      obtain ⟨hmem, hleast⟩ :
          earliestEnd ∈ suffixEnds validSuffixes address ∧
            ∀ stop ∈ suffixEnds validSuffixes address, earliestEnd ≤ stop :=
        List.min?_eq_some_iff.mp hmin
      split
      · rename_i hend
        refine iff_of_true rfl fun stop hstop => ?_
        have hle := suffixEnds_le hstop
        have hge := hleast stop hstop
        have hlength : earliestEnd = (matchedDomain address).length := hend
        omega
      · rename_i hend
        have hle := suffixEnds_le hmem
        have hne : earliestEnd ≠ (matchedDomain address).length := hend
        exact iff_of_false (cut_ne (by omega)) fun hall => hend (hall earliestEnd hmem)

/-! ### What is emitted -/

/-- An address as it was matched, in lower case and without dots around it. -/
def asMatched (rules : Rules) (m : Match) : String := stripChars ['.'] (rules.lower (m.group 0))

section Stages

variable {rules : Rules} {m : Match}

theorem matchedAddress_of_intact {validSuffixes : List String}
    (hintact : Intact validSuffixes (asMatched rules m)) :
    matchedAddress rules validSuffixes m = asMatched rules m :=
  (truncateAtKnownSuffix_eq_iff _ _).mpr hintact

/-- Nothing that was taken is lost. -/
theorem mem_foldl_takeMatch {key : Match → String} {candidate : Match → Candidate} {c : Candidate}
    (ms : List Match) {acc : List String × List Candidate} (hc : c ∈ acc.2) :
    c ∈ (ms.foldl (takeMatch key candidate) acc).2 := by
  induction ms generalizing acc with
  | nil => exact hc
  | cons m ms ih =>
      refine ih ?_
      unfold takeMatch
      split
      · exact hc
      · exact List.mem_append_left _ hc

/-- What the free-text scan has seen, it has taken. -/
theorem exists_taken {key : Match → String} {candidate : Match → Candidate}
    (hcandidate : ∀ m, (candidate m).address = some (key m)) (ms : List Match)
    {acc : List String × List Candidate} (hacc : ∀ k ∈ acc.1, ∃ c ∈ acc.2, c.address = some k) :
    ∀ m ∈ ms, ∃ c ∈ (ms.foldl (takeMatch key candidate) acc).2, c.address = some (key m) := by
  induction ms generalizing acc with
  | nil => exact fun _ hm => nomatch hm
  | cons m ms ih =>
      have hnext : (∀ k ∈ (takeMatch key candidate acc m).1,
          ∃ c ∈ (takeMatch key candidate acc m).2, c.address = some k) ∧
          ∃ c ∈ (takeMatch key candidate acc m).2, c.address = some (key m) := by
        unfold takeMatch
        split
        · rename_i hseen
          exact ⟨hacc, hacc _ (List.contains_iff_mem.mp hseen)⟩
        · have hlast : ∃ c ∈ acc.2 ++ [candidate m], c.address = some (key m) :=
            ⟨candidate m, List.mem_append_right _ (List.mem_singleton_self _), hcandidate m⟩
          refine ⟨fun k hk => ?_, hlast⟩
          rcases List.mem_cons.mp hk with rfl | hk
          · exact hlast
          · obtain ⟨c, hc, haddress⟩ := hacc k hk
            exact ⟨c, List.mem_append_left _ hc, haddress⟩
      intro m' hm'
      rcases List.mem_cons.mp hm' with rfl | hm'
      · obtain ⟨c, hc, haddress⟩ := hnext.2
        exact ⟨c, mem_foldl_takeMatch ms hc, haddress⟩
      · exact ih hnext.1 m' hm'

/-- The row of a table is scanned. -/
def Scanned (row : Node × List Cell) : Prop :=
  row.2.isEmpty = false ∧ (" ".intercalate (row.2.map Cell.spaced)).length ≤ maxRowScanChars

variable {emailRe : Pattern} {ecfg : EmailConfig}

theorem exists_row_candidate {validSuffixes : List String} {col : ColMap} {row : Node × List Cell}
    (hrow : Scanned row) (hm : m ∈ emailRe.finditer (" ".intercalate (row.2.map Cell.spaced))) :
    ∃ c ∈ rowCandidates rules emailRe validSuffixes col row,
      c.address = some (matchedAddress rules validSuffixes m) := by
  unfold rowCandidates
  dsimp only
  rw [if_neg (by rw [hrow.1]; exact Bool.false_ne_true), if_neg (Nat.not_lt_of_le hrow.2)]
  exact ⟨_, List.mem_map.mpr ⟨m, hm, rfl⟩, rfl⟩

theorem exists_proximity_candidate {text : String} (hm : m ∈ emailRe.finditer text) :
    ∃ c ∈ extractProximityCandidates rules emailRe ecfg text,
      c.address = some (matchedAddress rules ecfg.validSuffixes m) := by
  obtain ⟨c, hc, haddress⟩ := @exists_taken (matchedAddress rules ecfg.validSuffixes)
    (fun m =>
      { address := some (matchedAddress rules ecfg.validSuffixes m),
        source := .proximityText ⟨m.start, m.stop, text⟩ false, contextNode := none,
        rawSpan := matchedAddress rules ecfg.validSuffixes m })
    (fun _ => rfl) (emailRe.finditer text) ([], []) (fun _ h => nomatch h) m hm
  exact ⟨c, mem_foldl_takeMatch _ hc, haddress⟩

theorem resolvedAddress_of_search {rawSpan : String}
    (hm : (rules.re.compileIgnoreCase ecfg.regex).search (ecfg.obfuscation.foldl
      (fun text p => (rules.re.compileIgnoreCase p.1).sub p.2 text) rawSpan) = some m) :
    resolvedAddress rules ecfg rawSpan = some (matchedAddress rules ecfg.validSuffixes m) := by
  unfold resolvedAddress
  rw [hm]
  rfl

/-- **An intact address is not cut**, and no other is left as it is; so the table, the text and the
bracketed forms give an intact address as it was matched. -/
theorem intact_as_matched (validSuffixes : List String) :
    (∀ address, truncateAtKnownSuffix validSuffixes address = address ↔
      Intact validSuffixes address) ∧
    ∀ (rules : Rules) (m : Match), Intact validSuffixes (asMatched rules m) →
      (∀ emailRe col row, Scanned row →
        m ∈ emailRe.finditer (" ".intercalate (row.2.map Cell.spaced)) →
        ∃ c ∈ rowCandidates rules emailRe validSuffixes col row,
          c.address = some (asMatched rules m)) ∧
      (∀ emailRe ecfg text, ecfg.validSuffixes = validSuffixes → m ∈ emailRe.finditer text →
        ∃ c ∈ extractProximityCandidates rules emailRe ecfg text,
          c.address = some (asMatched rules m)) ∧
      ∀ ecfg roleLocalParts (entities : List EnrichedEntity) (e : EnrichedEntity),
        ecfg.validSuffixes = validSuffixes → e ∈ entities →
        passes rules ecfg e.toCandidate = false →
        (rules.re.compileIgnoreCase ecfg.regex).search (ecfg.obfuscation.foldl
          (fun text p => (rules.re.compileIgnoreCase p.1).sub p.2 text) e.rawSpan) = some m →
        asMatched rules m ≠ "" →
        (∃ e' ∈ entities, e'.email = some (asMatched rules m)) ∨
          ∃ e' ∈ normaliseSpans rules ecfg roleLocalParts entities,
            e'.email = some (asMatched rules m) := by
  refine ⟨truncateAtKnownSuffix_eq_iff validSuffixes, fun rules m hintact => ?_⟩
  have hmatched := matchedAddress_of_intact hintact
  refine ⟨fun emailRe col row hrow hm => ?_, fun emailRe ecfg text hsuffixes hm => ?_,
    fun ecfg roleLocalParts entities e hsuffixes he hpasses hm hne => ?_⟩
  · rw [← hmatched]
    exact exists_row_candidate hrow hm
  · subst hsuffixes
    rw [← hmatched]
    exact exists_proximity_candidate hm
  · subst hsuffixes
    have hresolved := resolvedAddress_of_search hm
    rw [hmatched] at hresolved
    by_cases htaken : ∃ e' ∈ entities, e'.email = some (asMatched rules m)
    · exact Or.inl htaken
    · have hmem := (@mem_email_normaliseSpans rules ecfg roleLocalParts entities _ hne).mpr
        (Or.inr ⟨htaken, e, he, hpasses, hresolved⟩)
      exact Or.inr (List.mem_map.mp hmem)

end Stages

/-! Two rows of a directory. -/

/-- A row with the address only. -/
def addressRow (address : String) : Node × List Cell := (1, [⟨address, address⟩])

/-- A pattern that matches the whole text. -/
def wholePattern : Pattern :=
  { linkPattern with finditer := fun text => [⟨0, text.length, [text]⟩] }

/-- The row's candidate. -/
def addressOfRow (address : String) : List (Option String) :=
  (rowCandidates linkRules wholePattern [".gov.in", ".nic.in"] ⟨none, none, none, none⟩
    (addressRow address)).map fun c => c.address

theorem tn_as_matched :
    ∃ c ∈ rowCandidates linkRules wholePattern [".gov.in", ".nic.in"] ⟨none, none, none, none⟩
      (addressRow "ram@tn.gov.in"), c.address = some "ram@tn.gov.in" := by
  have hends : ∀ stop ∈ suffixEnds [".gov.in", ".nic.in"] "ram@tn.gov.in",
      stop = (matchedDomain "ram@tn.gov.in").length := by
    have hall : suffixEnds [".gov.in", ".nic.in"] "ram@tn.gov.in" = [9] := by decide +kernel
    rw [hall]
    intro stop hstop
    obtain rfl := List.mem_singleton.mp hstop
    decide +kernel
  have hmatched : asMatched linkRules ⟨0, 13, ["ram@tn.gov.in"]⟩ = "ram@tn.gov.in" := by
    decide +kernel
  obtain ⟨hrow, -⟩ := (intact_as_matched [".gov.in", ".nic.in"]).2 linkRules
    ⟨0, 13, ["ram@tn.gov.in"]⟩ (hmatched.symm ▸ intact_iff.mpr hends)
  rw [hmatched] at hrow
  exact hrow wholePattern _ _ ⟨rfl, by decide⟩ (by decide +kernel)

/-- The domain ends with a configured suffix, and the address that the row yields is another. -/
theorem india_is_cut :
    endsWith ".gov.in" (matchedDomain "x@portal.gov.india.gov.in") = true ∧
      truncateAtKnownSuffix [".gov.in", ".nic.in"] "x@portal.gov.india.gov.in" =
        "x@portal.gov.in" ∧
      addressOfRow "x@portal.gov.india.gov.in" = [some "x@portal.gov.in"] := by
  decide +kernel

end Parser

end GovCrawler
