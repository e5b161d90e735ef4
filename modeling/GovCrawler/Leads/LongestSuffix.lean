/-
Which domain a URL belongs to: `resolve_domain_for_url` against what it is for.

The loop drops labels from the left until what is left is in the map, is a public suffix, or is
one label.  `LongestMatch` says the same without a loop, of all ends of the host at once.
-/
import GovCrawler.Leads.SaveLead

namespace GovCrawler

/-- The host of a URL, without port and `www.`, if it has one. -/
def hostOf (rules : LeadRules) (sourceUrl : String) : Option String :=
  match rules.netloc sourceUrl with
  | none => none
  | some netloc =>
      let host := removePrefix "www."
        (String.ofList ((rules.lower netloc).toList.takeWhile (· ≠ ':')))
      if host = "" then none else some host

/-- The labels of a host. -/
def labelsOf (host : String) : List String := (host.toList.splitOn '.').map String.ofList

/-- `found` is the longest end of the labels, of two labels at least, that is a key of the map,
with the entry `d`, and neither it nor a longer end is a public suffix. -/
structure LongestMatch {D : Type} (netlocMap : List (String × D)) (suffixes labels found : List String)
    (d : D) : Prop where
  suffix : found <:+ labels
  two : 2 ≤ found.length
  entry : netlocMap.lookup (".".intercalate found) = some d
  longest : ∀ other, other <:+ labels → found.length < other.length →
    netlocMap.lookup (".".intercalate other) = none
  notPublic : ∀ other, other <:+ labels → found.length ≤ other.length →
    ".".intercalate other ∉ suffixes

section Walk

variable {D : Type} {netlocMap : List (String × D)} {suffixes found : List String}
  {label : String} {labels : List String} {d : D}

theorem not_longestMatch_of_short (h : labels.length < 2) :
    ¬ LongestMatch netlocMap suffixes labels found d := by
  intro hmatch
  have htwo := hmatch.two
  have hle := hmatch.suffix.length_le
  omega

/-- A public suffix bars all that is shorter. -/
theorem not_longestMatch_of_public (h : ".".intercalate labels ∈ suffixes) :
    ¬ LongestMatch netlocMap suffixes labels found d := fun hmatch =>
  hmatch.notPublic labels (List.suffix_refl labels) hmatch.suffix.length_le h

/-- What the whole host is mapped to comes first. -/
theorem longestMatch_of_lookup (htwo : 2 ≤ labels.length) (hopen : ".".intercalate labels ∉ suffixes)
    (hlookup : netlocMap.lookup (".".intercalate labels) = some d) {d' : D} :
    LongestMatch netlocMap suffixes labels found d' ↔ found = labels ∧ d' = d := by
  constructor
  · intro hmatch
    have hwhole : found = labels := by
      refine hmatch.suffix.eq_of_length_le (Nat.le_of_not_lt fun hlt => ?_)
      rw [hmatch.longest labels (List.suffix_refl labels) hlt] at hlookup
      cases hlookup
    obtain rfl := hwhole
    have hentry := hmatch.entry
    rw [hlookup] at hentry
    exact ⟨rfl, (Option.some.inj hentry).symm⟩
  · rintro ⟨rfl, rfl⟩
    refine ⟨List.suffix_refl _, htwo, hlookup, fun other hother hlt => ?_, fun other hother hle => ?_⟩
    · exact absurd hother.length_le (Nat.not_le_of_lt hlt)
    · rwa [hother.eq_of_length_le hle]

/-- What is neither public nor in the map is passed over. -/
theorem longestMatch_cons (hopen : ".".intercalate (label :: labels) ∉ suffixes)
    (hlookup : netlocMap.lookup (".".intercalate (label :: labels)) = none) :
    LongestMatch netlocMap suffixes (label :: labels) found d ↔
      LongestMatch netlocMap suffixes labels found d := by
  constructor
  · intro hmatch
    have hsuffix : found <:+ labels := by
      rcases List.suffix_cons_iff.mp hmatch.suffix with rfl | hsuffix
      · have hentry := hmatch.entry
        rw [hlookup] at hentry
        cases hentry
      · exact hsuffix
    exact ⟨hsuffix, hmatch.two, hmatch.entry,
      fun other hother => hmatch.longest other (hother.trans (List.suffix_cons ..)),
      fun other hother => hmatch.notPublic other (hother.trans (List.suffix_cons ..))⟩
  · intro hmatch
    refine ⟨hmatch.suffix.trans (List.suffix_cons ..), hmatch.two, hmatch.entry,
      fun other hother hlt => ?_, fun other hother hle => ?_⟩
    · rcases List.suffix_cons_iff.mp hother with rfl | hother
      · exact hlookup
      · exact hmatch.longest other hother hlt
    · rcases List.suffix_cons_iff.mp hother with rfl | hother
      · exact hopen
      · exact hmatch.notPublic other hother hle

/-- The loop finds the longest match. -/
theorem walkUp_eq_some_iff (labels : List String) :
    walkUp netlocMap suffixes labels = some d ↔
      ∃ found, LongestMatch netlocMap suffixes labels found d := by
  induction labels with
  | nil => exact ⟨nofun, fun ⟨_, h⟩ => absurd h (not_longestMatch_of_short (by decide))⟩
  | cons label labels ih =>
      cases labels with
      | nil => exact ⟨nofun, fun ⟨_, h⟩ => absurd h (not_longestMatch_of_short (by simp))⟩
      | cons label' labels =>
          rw [walkUp]
          by_cases hpublic : ".".intercalate (label :: label' :: labels) ∈ suffixes
          · rw [if_pos (List.contains_iff_mem.mpr hpublic)]
            exact ⟨nofun, fun ⟨_, h⟩ => absurd h (not_longestMatch_of_public hpublic)⟩
          · rw [if_neg fun h => hpublic (List.contains_iff_mem.mp h)]
            cases hlookup : netlocMap.lookup (".".intercalate (label :: label' :: labels)) with
            | some hit =>
                have hfound := @longestMatch_of_lookup D netlocMap suffixes
                constructor
                · intro h
                  exact ⟨_, (hfound (by simp) hpublic hlookup).mpr ⟨rfl, (Option.some.inj h).symm⟩⟩
                · rintro ⟨found, h⟩
                  rw [((hfound (by simp) hpublic hlookup).mp h).2]
            | none =>
                exact ih.trans (exists_congr fun found => (longestMatch_cons hpublic hlookup).symm)

end Walk

/-- What is found for a URL, by its host. -/
theorem resolveDomainForUrl_eq {D : Type} (rules : LeadRules) (sourceUrl : String)
    (netlocMap : List (String × D)) (targetSuffixes : List String) :
    resolveDomainForUrl rules sourceUrl netlocMap targetSuffixes =
      (hostOf rules sourceUrl).bind fun host =>
        walkUp netlocMap (targetSuffixes.map (lstrip '.')) (labelsOf host) := by
  unfold resolveDomainForUrl hostOf
  cases rules.netloc sourceUrl with
  | none => rfl
  | some netloc =>
      dsimp only
      generalize removePrefix "www." _ = host
      by_cases hempty : host = ""
      · rw [if_pos hempty, if_pos hempty, Option.bind_none]
      · rw [if_neg hempty, if_neg hempty, Option.bind_some]
        rfl

/--
**Longest suffix, with a barrier.**  A URL is resolved to the entry of the longest match of its
host, to none where there is no match, and never to the entry of a public suffix.
-/
theorem resolve_longest_suffix {D : Type} (rules : LeadRules) (sourceUrl : String)
    (netlocMap : List (String × D)) (targetSuffixes : List String) :
    (∀ d, resolveDomainForUrl rules sourceUrl netlocMap targetSuffixes = some d ↔
        ∃ host found, hostOf rules sourceUrl = some host ∧
          LongestMatch netlocMap (targetSuffixes.map (lstrip '.')) (labelsOf host) found d) ∧
      (resolveDomainForUrl rules sourceUrl netlocMap targetSuffixes = none ↔
        ∀ host found d, hostOf rules sourceUrl = some host →
          ¬ LongestMatch netlocMap (targetSuffixes.map (lstrip '.')) (labelsOf host) found d) ∧
      ∀ host found d,
        LongestMatch netlocMap (targetSuffixes.map (lstrip '.')) (labelsOf host) found d →
          ".".intercalate found ∉ targetSuffixes.map (lstrip '.') := by
  have hsome : ∀ d, resolveDomainForUrl rules sourceUrl netlocMap targetSuffixes = some d ↔
      ∃ host found, hostOf rules sourceUrl = some host ∧
        LongestMatch netlocMap (targetSuffixes.map (lstrip '.')) (labelsOf host) found d := by
    intro d
    rw [resolveDomainForUrl_eq, Option.bind_eq_some_iff]
    refine exists_congr fun host => ?_
    rw [walkUp_eq_some_iff, exists_and_left]
  refine ⟨hsome, ?_, fun host found d h => h.notPublic found h.suffix (Nat.le_refl _)⟩
  rw [Option.eq_none_iff_forall_ne_some]
  constructor
  · intro hnone host found d hhost hmatch
    exact hnone d ((hsome d).mpr ⟨host, found, hhost, hmatch⟩)
  · intro hnone d h
    obtain ⟨host, found, hhost, hmatch⟩ := (hsome d).mp h
    exact hnone host found d hhost hmatch

end GovCrawler
