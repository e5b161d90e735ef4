/-
Which leads get a phone number that stands on the page more than once.

The loop that attaches the numbers runs once for each occurrence and passes over the entities that
have one, so a second occurrence of a number goes to a second entity.  An occurrence goes nowhere
only when each entity has a number: what counts are the first occurrences, as many of them as there
are addresses.
-/
import Mathlib.Data.List.Dedup
import GovCrawler.Crawler.Addresses

namespace GovCrawler

namespace Parser

/-! ### The loop -/

/-- The entities that have a number. -/
def holders (number : String) (entities : List Entity) : Nat :=
  entities.countP fun e => e.phone == some number

/-- The entities that have none. -/
def phoneless (entities : List Entity) : Nat := entities.countP fun e => !truthy e.phone

/-- The occurrences of a number. -/
def calls (number : String) (phones : List Candidate) : Nat :=
  phones.countP fun c => c.phone == some number

section Loop

variable {soup : Soup} {number : String}

/-- **One occurrence** goes to one entity, if there is one without a phone. -/
theorem attachPhone_counts (hnumber : number ≠ "") {phoneC : Candidate}
    (htruthy : truthy phoneC.phone = true) (entities : List Entity) :
    (phoneless entities = 0 ∧ attachPhone soup entities phoneC = entities) ∨
      (phoneless entities = phoneless (attachPhone soup entities phoneC) + 1 ∧
        holders number (attachPhone soup entities phoneC) =
          holders number entities + calls number [phoneC]) := by
  obtain ⟨heq, hall⟩ | ⟨before, e, after, rfl, hphone, heq⟩ :=
    attachPhone_cases soup entities phoneC
  · exact Or.inl ⟨List.countP_eq_zero.mpr fun e he => by simp [hall e he], heq⟩
  · have hother : (e.phone == some number) = false := by
      refine beq_eq_false_iff_ne.mpr fun h => ?_
      rw [h] at hphone
      exact of_decide_eq_false hphone hnumber
    rw [heq]
    unfold phoneless holders calls
    refine Or.inr ⟨?_, ?_⟩
    · simp only [List.countP_append, List.countP_cons, htruthy, hphone]
      simp
      omega
    · simp only [List.countP_append, List.countP_cons, hother, List.countP_nil]
      simp
      omega

/-- **The loop**: a number gets to as many entities as it has occurrences among the first ones, as
many of these as there are entities without a phone. -/
theorem holders_attachPhones (hnumber : number ≠ "") {phones : List Candidate}
    (htruthy : ∀ c ∈ phones, truthy c.phone = true) (entities : List Entity) :
    holders number (phones.foldl (attachPhone soup) entities) =
      holders number entities + calls number (phones.take (phoneless entities)) := by
  induction phones generalizing entities with
  | nil => simp [calls]
  | cons phoneC phones ih =>
      have hrest : ∀ c ∈ phones, truthy c.phone = true := fun c hc =>
        htruthy c (List.mem_cons_of_mem _ hc)
      rw [List.foldl_cons, ih hrest]
      obtain ⟨hfull, heq⟩ | ⟨hfree, hholders⟩ :=
        @attachPhone_counts soup number hnumber phoneC (htruthy phoneC List.mem_cons_self) entities
      · rw [heq, hfull, List.take_zero, List.take_zero]
      · rw [hfree, hholders, List.take_succ_cons]
        unfold calls
        rw [List.countP_cons, List.countP_cons, List.countP_nil]
        omega

end Loop

/-! ### The entities of a page -/

/-- The addresses of a page, each once. -/
def addressesOf (candidates : List Candidate) : List String :=
  ((candidates.filterMap fun c => c.address).filter fun addr => addr ≠ "").dedup

/-- The occurrences of phone numbers that find an entity: the first ones, as many as there are
addresses. -/
def attached (candidates : List Candidate) : List Candidate :=
  (candidates.filter isPhone).take (addressesOf candidates).length

section Entities

variable {rules : Rules} {soup : Soup} {roleLocalParts govSuffixes : List String}
  {candidates : List Candidate} {number : String}

/-- There is one entity for each address. -/
theorem length_addressed :
    (addressed rules roleLocalParts govSuffixes candidates).length =
      (addressesOf candidates).length := by
  have hm := (bindings_of candidates).emailMap
  unfold addressed
  rw [List.length_map, ← List.length_map Prod.fst]
  refine ((List.perm_ext_iff_of_nodup hm.nodup (List.nodup_dedup _)).mpr fun addr => ?_).length_eq
  rw [List.mem_dedup, List.mem_filter, List.mem_filterMap, decide_eq_true_iff]
  constructor
  · intro hmem
    obtain ⟨⟨_, w⟩, hw, rfl⟩ := List.mem_map.mp hmem
    obtain ⟨hne, hmerge⟩ := (hm.entry _ w).mp hw
    exact ⟨exists_merge_iff.mp ⟨w, hmerge⟩, hne⟩
  · rintro ⟨hc, hne⟩
    obtain ⟨w, hmerge⟩ := exists_merge_iff.mpr hc
    exact List.mem_map.mpr ⟨(addr, w), (hm.entry addr w).mpr ⟨hne, hmerge⟩, rfl⟩

/-- Stage 2 begins without phones. -/
theorem phone_addressed (hfound : ∀ c ∈ candidates, c.Found) :
    ∀ e ∈ addressed rules roleLocalParts govSuffixes candidates, e.phone = none := by
  intro e he
  obtain ⟨addr, w, -, hmerge, rfl⟩ := mem_addressed.mp he
  refine @merge_induction (fun c => c.phone = none) _ w (fun _ _ => phone_displace) (fun c hc => ?_)
    hmerge
  obtain ⟨hc, haddress⟩ := List.mem_filter.mp hc
  exact (hfound c hc).phone (by rw [beq_iff_eq.mp haddress]; rfl)

/-- **The entities with a number** are as many as its occurrences that find one. -/
theorem holders_bindChannels (hfound : ∀ c ∈ candidates, c.Found) (hnumber : number ≠ "") :
    holders number ((candidates.filter isPhone).foldl (attachPhone soup)
        (addressed rules roleLocalParts govSuffixes candidates)) =
      calls number (attached candidates) := by
  have hnone := @phone_addressed rules roleLocalParts govSuffixes candidates hfound
  have htruthy : ∀ c ∈ candidates.filter isPhone, truthy c.phone = true := fun c hc =>
    (Bool.and_eq_true_iff.mp (List.mem_filter.mp hc).2).2
  have hstart : holders number (addressed rules roleLocalParts govSuffixes candidates) = 0 :=
    List.countP_eq_zero.mpr fun e he => by simp [hnone e he]
  have hfree : phoneless (addressed rules roleLocalParts govSuffixes candidates) =
      (addressesOf candidates).length := by
    rw [← @length_addressed rules roleLocalParts govSuffixes candidates]
    exact List.countP_eq_length.mpr fun e he => by rw [hnone e he]; rfl
  rw [holders_attachPhones hnumber htruthy, hstart, hfree, Nat.zero_add]
  rfl

end Entities

/-! ### The leads of a page -/

/-- The leads that carry a number. -/
def carriers (number : String) (leads : List ParsedLead) : Nat :=
  leads.countP fun lead => lead.phone == some number

section Leads

variable {rules : Rules} {ecfg : EmailConfig} {roleLocalParts : List String} {number : String}

theorem firstPerEmail_sublist (seenEmails : List String) (entities : List ScoredEntity) :
    (firstPerEmail seenEmails entities).Sublist entities := by
  induction entities generalizing seenEmails with
  | nil => exact List.Sublist.slnil
  | cons e rest ih =>
      obtain ⟨-, heq⟩ | ⟨addr, -, -, -, heq⟩ := firstPerEmail_cons seenEmails e rest
      · rw [heq]
        exact (ih seenEmails).cons e
      · rw [heq]
        exact (ih _).cons_cons e

/-- Entities with different addresses that have not been seen are all taken. -/
theorem firstPerEmail_append {first : List ScoredEntity} (rest : List ScoredEntity)
    {seenEmails : List String}
    (hfirst : ∀ e ∈ first, ∃ addr, e.email = some addr ∧ addr ≠ "" ∧ addr ∉ seenEmails)
    (hnodup : (first.map fun e => e.email).Nodup) :
    ∃ seen, firstPerEmail seenEmails (first ++ rest) = first ++ firstPerEmail seen rest := by
  induction first generalizing seenEmails with
  | nil => exact ⟨seenEmails, rfl⟩
  | cons e first ih =>
      rw [List.map_cons, List.nodup_cons] at hnodup
      obtain ⟨addr, hemail, hne, hunseen⟩ := hfirst e List.mem_cons_self
      obtain ⟨hold, -⟩ | ⟨addr', hemail', -, -, heq⟩ :=
        firstPerEmail_cons seenEmails e (first ++ rest)
      · exact ((hold addr hemail).elim hne hunseen).elim
      · obtain rfl : addr' = addr := Option.some.inj (hemail'.symm.trans hemail)
        have hlater : ∀ e' ∈ first, ∃ a, e'.email = some a ∧ a ≠ "" ∧ a ∉ addr' :: seenEmails := by
          intro e' he'
          obtain ⟨a, ha, hane, haunseen⟩ := hfirst e' (List.mem_cons_of_mem _ he')
          refine ⟨a, ha, hane, fun hmem => ?_⟩
          rcases List.mem_cons.mp hmem with rfl | hmem
          · exact hnodup.1 (List.mem_map.mpr ⟨e', he', ha.trans hemail.symm⟩)
          · exact haunseen hmem
        obtain ⟨seen, hseen⟩ := ih hlater hnodup.2
        exact ⟨seen, by rw [List.cons_append, heq, hseen]; rfl⟩

/-- Stage 4 adds no phones. -/
theorem countP_normaliseFrom_le (taken : List String) (entities : List EnrichedEntity) :
    (normaliseFrom rules ecfg roleLocalParts taken entities).countP
        (fun e => e.phone == some number) ≤
      entities.countP fun e => e.phone == some number := by
  induction entities generalizing taken with
  | nil => simp [normaliseFrom]
  | cons e rest ih =>
      obtain ⟨-, heq⟩ | ⟨-, -, heq⟩ | ⟨-, addr, e', -, -, -, hphone, -, -, heq⟩ :=
        normaliseFrom_cons rules ecfg roleLocalParts taken e rest
      · rw [heq, List.countP_cons, List.countP_cons]
        exact Nat.add_le_add_right (ih taken) _
      · rw [heq, List.countP_cons]
        exact Nat.le_trans (ih taken) (Nat.le_add_right _ _)
      · rw [heq, List.countP_cons, List.countP_cons, hphone]
        exact Nat.add_le_add_right (ih _) _

theorem normaliseFrom_append {first : List EnrichedEntity} (rest : List EnrichedEntity)
    {taken : List String} (hfirst : ∀ e ∈ first, passes rules ecfg e.toCandidate = true) :
    normaliseFrom rules ecfg roleLocalParts taken (first ++ rest) =
      first ++ normaliseFrom rules ecfg roleLocalParts taken rest := by
  induction first with
  | nil => rfl
  | cons e first ih =>
      have hpasses := hfirst e List.mem_cons_self
      obtain ⟨-, heq⟩ | ⟨hnot, -⟩ | ⟨hnot, -⟩ :=
        normaliseFrom_cons rules ecfg roleLocalParts taken e (first ++ rest)
      · rw [List.cons_append, heq, ih fun e' he' => hfirst e' (List.mem_cons_of_mem _ he')]
        rfl
      · rw [hpasses] at hnot
        cases hnot
      · rw [hpasses] at hnot
        cases hnot

end Leads

section Page

variable {rules : Rules} {config : ExtractionConfig} {soup : Soup} {sourceUrl : String}
  {candidates : List Candidate} {number : String}

theorem carriers_leadsOf :
    carriers number (leadsOf rules config soup sourceUrl candidates) =
      (firstPerEmail [] ((normaliseSpans rules config.email config.roleLocalParts
        ((bindChannels rules soup config.roleLocalParts config.email.validSuffixes candidates).map
          (enrichFields rules soup sourceUrl config.person config.email))).map
            (EnrichedEntity.score config.highRungs))).countP fun e => e.phone == some number := by
  unfold carriers leadsOf flattenEmit
  rw [List.countP_map]
  rfl

/-- The numbers of the entities of stage 2. -/
theorem holders_enriched (hfound : ∀ c ∈ candidates, c.Found) (hnumber : number ≠ "") :
    ((bindChannels rules soup config.roleLocalParts config.email.validSuffixes candidates).map
        (enrichFields rules soup sourceUrl config.person config.email)).countP
          (fun e => e.phone == some number) = calls number (attached candidates) := by
  have hphone : ∀ e : Entity, (enrichFields rules soup sourceUrl config.person config.email
      e).phone = e.phone := fun e => by rw [enrichFields_toEntity]
  have hpending : ((candidates.filter isPending).map fun c => ({ toCandidate := c } : Entity)).countP
      (fun e => e.phone == some number) = 0 := by
    refine List.countP_eq_zero.mpr fun e he => ?_
    obtain ⟨c, hc, rfl⟩ := List.mem_map.mp he
    obtain ⟨hc, hpending⟩ := List.mem_filter.mp hc
    have hnone := ((hfound c hc).bracketed (Bool.and_eq_true_iff.mp hpending).1).2
    simp [hnone]
  rw [List.countP_map, bindChannels_eq, List.countP_append]
  simp only [Function.comp_def, hphone]
  rw [hpending, Nat.add_zero]
  exact holders_bindChannels hfound hnumber

/-- **A number is not on more leads** than it has occurrences that find an entity. -/
theorem carriers_le (hfound : ∀ c ∈ candidates, c.Found) (hnumber : number ≠ "") :
    carriers number (leadsOf rules config soup sourceUrl candidates) ≤
      calls number (attached candidates) := by
  rw [carriers_leadsOf]
  refine Nat.le_trans (firstPerEmail_sublist _ _).countP_le ?_
  rw [List.countP_map]
  exact Nat.le_trans (countP_normaliseFrom_le _ _)
    (Nat.le_of_eq (holders_enriched hfound hnumber))

/-- The addressed entities have the addresses, each once. -/
theorem emails_attachPhones (phones : List Candidate) :
    ((phones.foldl (attachPhone soup) (addressed rules config.roleLocalParts
      config.email.validSuffixes candidates)).map fun e => e.email) =
        ((candidates.foldl Bindings.bind {}).emailMap.map Prod.fst).map some := by
  have hsilent := congrArg (List.map fun e : Entity => e.email) (silent_attachPhones soup phones
    (addressed rules config.roleLocalParts config.email.validSuffixes candidates))
  rw [List.map_map, List.map_map] at hsilent
  rw [List.map_map]
  unfold addressed at hsilent ⊢
  rw [List.map_map] at hsilent
  exact hsilent

/-- Where the detector matches no address, no entity with an address is dropped. -/
theorem calls_le_carriers (hfound : ∀ c ∈ candidates, c.Found) (hnumber : number ≠ "")
    (hdetector : ∀ c ∈ candidates, ∀ a, c.address = some a →
      (buildBracketedEmailRe rules.re config.email.obfuscation).search a = none) :
    calls number (attached candidates) ≤
      carriers number (leadsOf rules config soup sourceUrl candidates) := by
  rw [carriers_leadsOf, ← @holders_bindChannels rules soup config.roleLocalParts
    config.email.validSuffixes candidates number hfound hnumber]
  generalize hbound : (candidates.filter isPhone).foldl (attachPhone soup)
    (addressed rules config.roleLocalParts config.email.validSuffixes candidates) = bound
  have hemails : (bound.map fun e => e.email) =
      ((candidates.foldl Bindings.bind {}).emailMap.map Prod.fst).map some :=
    hbound ▸ emails_attachPhones _
  have hm := (bindings_of candidates).emailMap
  have hsplit : bindChannels rules soup config.roleLocalParts config.email.validSuffixes candidates =
      bound ++ (candidates.filter isPending).map fun c => { toCandidate := c } :=
    hbound ▸ bindChannels_eq rules soup config.roleLocalParts config.email.validSuffixes candidates
  have haddress : ∀ e ∈ bound, ∃ addr, e.email = some addr ∧ addr ≠ "" := by
    intro e he
    have hmem : e.email ∈ bound.map fun e => e.email := List.mem_map_of_mem he
    rw [hemails] at hmem
    obtain ⟨addr, haddr, heq⟩ := List.mem_map.mp hmem
    obtain ⟨⟨_, w⟩, hw, rfl⟩ := List.mem_map.mp haddr
    exact ⟨_, heq.symm, ((hm.entry _ w).mp hw).1⟩
  have hpasses : ∀ e ∈ bound.map (enrichFields rules soup sourceUrl config.person config.email),
      passes rules config.email e.toCandidate = true := by
    intro e he
    obtain ⟨e', he', rfl⟩ := List.mem_map.mp he
    obtain ⟨addr, haddr, -⟩ := haddress e' he'
    rw [enrichFields_toEntity]
    exact passes_of_email hfound hdetector (hsplit ▸ List.mem_append_left _ he') haddr
  generalize hscored : (bound.map (enrichFields rules soup sourceUrl config.person
    config.email)).map (EnrichedEntity.score config.highRungs) = scored
  have hemail : ∀ e : Entity, (enrichFields rules soup sourceUrl config.person config.email
      e).email = e.email := fun e => by rw [enrichFields_toEntity]
  have hphone : ∀ e : Entity, (enrichFields rules soup sourceUrl config.person config.email
      e).phone = e.phone := fun e => by rw [enrichFields_toEntity]
  have hsame : (scored.map fun e => e.email) = bound.map fun e => e.email := by
    rw [← hscored, List.map_map, List.map_map]
    exact List.map_congr_left fun e _ => hemail e
  have hfirst : ∀ e ∈ scored, ∃ addr, e.email = some addr ∧ addr ≠ "" ∧ addr ∉ ([] : List String) := by
    intro e he
    have hmem : e.email ∈ scored.map fun e => e.email := List.mem_map_of_mem he
    rw [hsame] at hmem
    obtain ⟨e', he', heq⟩ := List.mem_map.mp hmem
    obtain ⟨addr, haddr, hne⟩ := haddress e' he'
    exact ⟨addr, heq.symm.trans haddr, hne, List.not_mem_nil⟩
  have hnodup : (scored.map fun e => e.email).Nodup := by
    rw [hsame, hemails]
    exact hm.nodup.map (Option.some_injective _)
  rw [hsplit, List.map_append]
  unfold normaliseSpans
  rw [normaliseFrom_append _ hpasses, List.map_append, hscored]
  obtain ⟨seen, hseen⟩ := firstPerEmail_append _ hfirst hnodup
  rw [hseen, List.countP_append]
  refine Nat.le_trans (Nat.le_of_eq ?_) (Nat.le_add_right _ _)
  rw [← hscored, List.countP_map, List.countP_map]
  unfold holders
  exact List.countP_congr fun e _ => by
    rw [Function.comp_apply, Function.comp_apply]
    show _ ↔ ((enrichFields rules soup sourceUrl config.person config.email e).phone ==
      some number) = true
    rw [hphone]

end Page

/-- A number none of whose occurrences has an address in its container. -/
def Stray (soup : Soup) (candidates : List Candidate) (number : String) : Prop :=
  ∀ p ∈ candidates, p.phone = some number → ∀ c ∈ candidates, c.address.isSome = true →
    ∀ node ∈ p.contextNode, ∀ node' ∈ c.contextNode, nodesShareContainer soup node node' = false

/-- **Where a number is on one lead at most**: it is if it has at most one occurrence among the
first ones, as many as the page has addresses; and only then, where the detector matches no
address. -/
theorem carriers_le_one_iff (rules : Rules) (config : ExtractionConfig) (soup : Soup)
    (sourceUrl : String) {candidates : List Candidate} (hfound : ∀ c ∈ candidates, c.Found)
    {number : String} (hnumber : number ≠ "") :
    (calls number (attached candidates) ≤ 1 →
      carriers number (leadsOf rules config soup sourceUrl candidates) ≤ 1) ∧
    ((∀ c ∈ candidates, ∀ a, c.address = some a →
        (buildBracketedEmailRe rules.re config.email.obfuscation).search a = none) →
      (carriers number (leadsOf rules config soup sourceUrl candidates) ≤ 1 ↔
        calls number (attached candidates) ≤ 1)) := by
  have hle := @carriers_le rules config soup sourceUrl candidates number hfound hnumber
  refine ⟨fun hone => Nat.le_trans hle hone, fun hdetector => ?_⟩
  have hge := @calls_le_carriers rules config soup sourceUrl candidates number hfound hnumber hdetector
  exact ⟨fun hone => Nat.le_trans hge hone, fun hone => Nat.le_trans hle hone⟩


/-! A number in the header, and the same number in the footer. -/

/-- Two addresses and a number for each of these nodes. -/
def callPage (calls : List Node) : Soup :=
  linkPage ([(1, "mailto:a@tn.gov.in"), (2, "mailto:b@tn.gov.in")] ++
    calls.map fun node => (node, "tel:+911234567890"))

/-- The candidates of the page. -/
def callCandidates (calls : List Node) : List Candidate :=
  extractCandidates linkRules {} 0 (callPage calls)

theorem header_on_one_lead :
    carriers "+911234567890"
      (leadsOf linkRules {} (callPage [3]) "https://tn.gov.in" (callCandidates [3])) ≤ 1 := by
  have hfound : ∀ c ∈ callCandidates [3], c.Found :=
    (extractCandidates_downTo linkRules {} 0 (callPage [3])).found
  exact ((@carriers_le_one_iff linkRules {} (callPage [3]) "https://tn.gov.in" _ hfound
    "+911234567890" (by decide)).2 fun _ _ _ _ => rfl).mpr (by decide +kernel)

/-- The number of header and footer is on both leads, and shares its container with none. -/
theorem footer_copies :
    Stray (callPage [3, 4]) (callCandidates [3, 4]) "+911234567890" ∧
      carriers "+911234567890" (extractLeads linkRules {} (callPage [3, 4]) "https://tn.gov.in") =
        2 := by
  refine ⟨?_, by decide +kernel⟩
  unfold Stray
  decide +kernel

end Parser

end GovCrawler
