/-
What `_bind_channels` makes of the candidates of a page: one entity for each address.

The first loop is a fold over a map.  `BindingsOf` says what the map is after any number of
candidates: its keys are the addresses so far, and the entry of an address is the merge of the
candidates for it, in their order.  Phones are attached afterwards, and change nothing else.
-/
import Mathlib.Data.List.Induction
import Mathlib.Data.List.Nodup
import GovCrawler.Crawler.Parser

namespace GovCrawler

namespace Parser

/-! ### Stage 1 -/

/-- The candidates are in the order in which stage 1 has them. -/
def Ordered (candidates : List Candidate) : Prop :=
  candidates.Pairwise fun a b => b.source.rung.rank ≤ a.source.rung.rank

/-- Nothing has been displaced by the candidate. -/
def Candidate.Fresh (c : Candidate) : Prop := c.fallbackTable = none ∧ c.fallbackText = none

/-- What there is to know of a candidate that stage 1 has found: an address is the span it was read
from, and comes without a phone; a bracketed form has no address. -/
structure Candidate.Found (c : Candidate) : Prop where
  fresh : c.Fresh
  span : ∀ a, c.address = some a → c.rawSpan = a
  phone : c.address.isSome = true → c.phone = none
  bracketed : c.source.isBracketed = true → c.address = none ∧ c.phone = none

section StageOne

variable {rules : Rules} {emailRe telRe : Pattern}

/-- A candidate has been found on a rung. -/
def Candidate.FoundOn (rung : Rung) (c : Candidate) : Prop := c.Found ∧ c.source.rung = rung

theorem foundOn_of_address {source : Source} (hsource : source.isBracketed = false) (addr : String)
    (node : Option Node) :
    Candidate.FoundOn source.rung
      { address := some addr, source := source, contextNode := node, rawSpan := addr } :=
  ⟨{ fresh := ⟨rfl, rfl⟩
     span := fun _ h => Option.some.inj h
     phone := fun _ => rfl
     bracketed := fun h => absurd h (by rw [hsource]; exact Bool.false_ne_true) }, rfl⟩

theorem foundOn_of_phone {source : Source} (hsource : source.isBracketed = false) (phone : String)
    (node : Option Node) :
    Candidate.FoundOn source.rung
      { address := none, source := source, contextNode := node, rawSpan := phone,
        phone := some phone } :=
  ⟨{ fresh := ⟨rfl, rfl⟩
     span := fun _ h => nomatch h
     phone := fun h => nomatch h
     bracketed := fun h => absurd h (by rw [hsource]; exact Bool.false_ne_true) }, rfl⟩

theorem foundOn_anchor {a : Node × String} {c : Candidate}
    (hc : c ∈ anchorCandidates rules emailRe telRe a) : c.FoundOn .mailtoTel := by
  unfold anchorCandidates at hc
  split at hc
  · obtain ⟨addr, -, rfl⟩ := List.mem_map.mp hc
    exact @foundOn_of_address .mailtoTel rfl addr (some a.1)
  · split at hc
    · split at hc
      · cases hc
      · obtain rfl := List.mem_singleton.mp hc
        exact @foundOn_of_phone .mailtoTel rfl _ (some a.1)
    · cases hc

theorem foundOn_itemprop {el : Itemprop} {c : Candidate}
    (hc : c ∈ itempropCandidates rules emailRe el) : c.FoundOn .microdata := by
  unfold itempropCandidates at hc
  dsimp only at hc
  generalize (if truthy el.content then el.content.getD "" else el.text) = content at hc
  split at hc
  · obtain ⟨addr, -, rfl⟩ := List.mem_map.mp hc
    exact @foundOn_of_address .microdata rfl addr (some el.node)
  · split at hc
    · obtain rfl := List.mem_singleton.mp hc
      exact @foundOn_of_phone .microdata rfl _ (some el.node)
    · cases hc

theorem foundOn_row {validSuffixes : List String} {col : ColMap} {row : Node × List Cell}
    {c : Candidate} (hc : c ∈ rowCandidates rules emailRe validSuffixes col row) :
    c.FoundOn .tableBlock := by
  unfold rowCandidates at hc
  dsimp only at hc
  split at hc
  · cases hc
  · split at hc
    · cases hc
    · obtain ⟨m, -, rfl⟩ := List.mem_map.mp hc
      exact @foundOn_of_address (.tableBlock _) rfl _ (some row.1)

theorem foundOn_table {validSuffixes : List String} {soup : Soup} {c : Candidate}
    (hc : c ∈ extractTableCandidates rules emailRe validSuffixes soup) :
    c.FoundOn .tableBlock := by
  obtain ⟨rows, -, hc⟩ := List.mem_flatMap.mp hc
  split at hc
  · obtain ⟨row, -, hc⟩ := List.mem_flatMap.mp hc
    exact foundOn_row hc
  · cases hc

/-- What the matches of a pattern add has been found, if each of them has. -/
theorem foundOn_takeMatch {key : Match → String} {candidate : Match → Candidate} {rung : Rung}
    (hcandidate : ∀ m, (candidate m).FoundOn rung) (ms : List Match)
    {acc : List String × List Candidate} (hacc : ∀ c ∈ acc.2, c.FoundOn rung) :
    ∀ c ∈ (ms.foldl (takeMatch key candidate) acc).2, c.FoundOn rung := by
  induction ms generalizing acc with
  | nil => exact hacc
  | cons m ms ih =>
      refine ih ?_
      unfold takeMatch
      split
      · exact hacc
      · intro c hc
        rcases List.mem_append.mp hc with hc | hc
        · exact hacc c hc
        · rw [List.mem_singleton.mp hc]
          exact hcandidate m

theorem foundOn_proximity {ecfg : EmailConfig} {text : String} {c : Candidate}
    (hc : c ∈ extractProximityCandidates rules emailRe ecfg text) : c.FoundOn .proximityText := by
  refine foundOn_takeMatch (fun m => ?_) _ (foundOn_takeMatch (fun m => ?_) _ ?_) c hc
  · exact ⟨{ fresh := ⟨rfl, rfl⟩
             span := fun _ h => nomatch h
             phone := fun h => nomatch h
             bracketed := fun _ => ⟨rfl, rfl⟩ }, rfl⟩
  · exact @foundOn_of_address (.proximityText _ false) rfl _ none
  · intro c hc
    cases hc

/-- Candidates in order, none of them below a rung. -/
structure DownTo (rung : Rung) (candidates : List Candidate) : Prop where
  ordered : Ordered candidates
  found : ∀ c ∈ candidates, c.Found
  above : ∀ c ∈ candidates, rung.rank ≤ c.source.rung.rank

namespace DownTo

variable {high low : Rung} {candidates more : List Candidate}

theorem of_foundOn (hon : ∀ c ∈ candidates, c.FoundOn high) : DownTo high candidates where
  ordered := List.pairwise_of_forall_mem_list fun a ha b hb => by
    rw [(hon a ha).2, (hon b hb).2]
  found := fun c hc => (hon c hc).1
  above := fun c hc => by rw [(hon c hc).2]

theorem append (hdown : DownTo high candidates) (hrank : low.rank ≤ high.rank)
    (hon : ∀ c ∈ more, c.FoundOn low) : DownTo low (candidates ++ more) where
  ordered := by
    refine List.pairwise_append.mpr ⟨hdown.ordered, (of_foundOn hon).ordered, ?_⟩
    intro a ha b hb
    rw [(hon b hb).2]
    exact Nat.le_trans hrank (hdown.above a ha)
  found := fun c hc => (List.mem_append.mp hc).elim (hdown.found c) fun hc => (hon c hc).1
  above := fun c hc => (List.mem_append.mp hc).elim
    (fun hc => Nat.le_trans hrank (hdown.above c hc)) fun hc => by rw [(hon c hc).2]

end DownTo

/-- **Stage 1** goes down the rungs. -/
theorem extractCandidates_downTo (rules : Rules) (ecfg : EmailConfig) (maxInputChars : Nat)
    (soup : Soup) : DownTo .proximityText (extractCandidates rules ecfg maxInputChars soup) := by
  unfold extractCandidates
  split
  · exact DownTo.of_foundOn fun c hc => nomatch hc
  · have hanchors : DownTo .mailtoTel (soup.anchors.flatMap (anchorCandidates rules
        (rules.re.compileIgnoreCase ecfg.regex)
        (rules.re.compileIgnoreCase "tel:(\\+?[\\d\\s\\-().]\x7b7,20\x7d)"))) := by
      refine DownTo.of_foundOn fun c hc => ?_
      obtain ⟨a, -, hc⟩ := List.mem_flatMap.mp hc
      exact foundOn_anchor hc
    have hitemprops : ∀ c ∈ soup.itemprops.flatMap (itempropCandidates rules
        (rules.re.compileIgnoreCase ecfg.regex)), c.FoundOn .microdata := by
      intro c hc
      obtain ⟨el, -, hc⟩ := List.mem_flatMap.mp hc
      exact foundOn_itemprop hc
    exact ((hanchors.append (by decide) hitemprops).append (by decide)
      fun c => foundOn_table).append (by decide) fun c => foundOn_proximity

end StageOne

/-! ### The first loop -/

/-- The candidates for an address. -/
def candidatesFor (addr : String) (candidates : List Candidate) : List Candidate :=
  candidates.filter fun c => c.address == some addr

/-- What becomes of the candidates for one address. -/
def merge : List Candidate → Option Candidate
  | [] => none
  | c :: rest => some (rest.foldl displace c)

theorem merge_append_singleton (candidates : List Candidate) (c : Candidate) :
    merge (candidates ++ [c]) = some (match merge candidates with
      | none => c
      | some existing => displace existing c) := by
  cases candidates with
  | nil => rfl
  | cons first rest => simp [merge]

/-- The candidates for an address make something, if there are any. -/
theorem exists_merge_iff {addr : String} {candidates : List Candidate} :
    (∃ w, merge (candidatesFor addr candidates) = some w) ↔
      ∃ c ∈ candidates, c.address = some addr := by
  have hmem : ∀ c, c ∈ candidatesFor addr candidates ↔ c ∈ candidates ∧ c.address = some addr := by
    intro c
    unfold candidatesFor
    rw [List.mem_filter, beq_iff_eq]
  simp only [← hmem]
  cases candidatesFor addr candidates with
  | nil => exact ⟨(fun ⟨_, h⟩ => nomatch h), fun ⟨_, h⟩ => nomatch h⟩
  | cons first rest => exact ⟨fun _ => ⟨first, List.mem_cons_self⟩, fun _ => ⟨_, rfl⟩⟩

/-- What all candidates have, and a displacement keeps. -/
theorem merge_induction {P : Candidate → Prop} {candidates : List Candidate} {w : Candidate}
    (hdisplace : ∀ existing c, P existing → P c → P (displace existing c))
    (hall : ∀ c ∈ candidates, P c) (hmerge : merge candidates = some w) : P w := by
  cases candidates with
  | nil => cases hmerge
  | cons first rest =>
      obtain rfl : rest.foldl displace first = w := Option.some.inj hmerge
      exact List.foldlRecOn rest displace (hall first List.mem_cons_self) fun existing hexisting c hc =>
        hdisplace existing c hexisting (hall c (List.mem_cons_of_mem _ hc))

theorem carryFallbackContext_keeps (winner loser : Candidate) :
    (carryFallbackContext winner loser).rawSpan = winner.rawSpan ∧
      (carryFallbackContext winner loser).phone = winner.phone := by
  unfold carryFallbackContext
  split <;> exact ⟨rfl, rfl⟩

/-- Spans are taken over. -/
theorem rawSpan_displace (existing c : Candidate) :
    (displace existing c).rawSpan = c.rawSpan ∨
      (displace existing c).rawSpan = existing.rawSpan := by
  unfold displace
  split
  · exact Or.inl (carryFallbackContext_keeps _ _).1
  · split
    · exact Or.inr (carryFallbackContext_keeps _ _).1
    · exact Or.inr rfl

theorem phone_displace {existing c : Candidate} (hexisting : existing.phone = none)
    (hc : c.phone = none) : (displace existing c).phone = none := by
  unfold displace
  split
  · rw [(carryFallbackContext_keeps _ _).2]
    dsimp only
    rw [hc]
    exact hexisting
  · split
    · exact (carryFallbackContext_keeps _ _).2.trans hexisting
    · exact hexisting

theorem candidatesFor_append (addr : String) (candidates : List Candidate) (c : Candidate) :
    candidatesFor addr (candidates ++ [c]) =
      if c.address = some addr then candidatesFor addr candidates ++ [c]
      else candidatesFor addr candidates := by
  unfold candidatesFor
  rw [List.filter_append]
  by_cases hc : c.address = some addr
  · simp [hc]
  · simp [hc]

/-- What the map is after some candidates. -/
structure MapOf (candidates : List Candidate) (m : EmailMap) : Prop where
  nodup : (m.map Prod.fst).Nodup
  entry : ∀ addr w, (addr, w) ∈ m ↔ addr ≠ "" ∧ merge (candidatesFor addr candidates) = some w

namespace EmailMap

variable {addr : String} {c : Candidate} {m : EmailMap}

theorem keys_add (addr : String) (c : Candidate) (m : EmailMap) :
    (m.add addr c).map Prod.fst =
      if addr ∈ m.map Prod.fst then m.map Prod.fst else m.map Prod.fst ++ [addr] := by
  induction m with
  | nil => simp [add]
  | cons entry rest ih =>
      unfold add
      by_cases hkey : entry.1 = addr
      · simp [hkey]
      · have hne : ¬addr = entry.1 := fun h => hkey h.symm
        simp only [if_neg hkey, List.map_cons, ih, List.mem_cons, hne, false_or]
        split <;> rfl

theorem nodup_add (hnodup : (m.map Prod.fst).Nodup) :
    ((m.add addr c).map Prod.fst).Nodup := by
  rw [keys_add]
  split
  · exact hnodup
  · rename_i hnew
    exact List.nodup_append.mpr ⟨hnodup, List.nodup_singleton _, fun a ha b hb hab =>
      hnew (List.mem_singleton.mp hb ▸ hab ▸ ha)⟩

/-- Another address keeps its entry. -/
theorem mem_add_of_ne {key : String} {w : Candidate} (hne : key ≠ addr) :
    (key, w) ∈ m.add addr c ↔ (key, w) ∈ m := by
  induction m with
  | nil => simp [add, hne]
  | cons entry rest ih =>
      unfold add
      by_cases hkey : entry.1 = addr
      · have hhead : ∀ v, (key, w) ≠ (entry.1, v) := fun v h =>
          hne ((congrArg Prod.fst h).trans hkey)
        rw [if_pos hkey, List.mem_cons, List.mem_cons]
        simp only [hhead entry.2, hhead (displace entry.2 c), false_or]
      · rw [if_neg hkey, List.mem_cons, List.mem_cons, ih]

/-- A new address gets the candidate. -/
theorem mem_add_new {w : Candidate} (hnew : addr ∉ m.map Prod.fst) :
    (addr, w) ∈ m.add addr c ↔ w = c := by
  induction m with
  | nil => simp [add]
  | cons entry rest ih =>
      rw [List.map_cons, List.mem_cons, not_or] at hnew
      unfold add
      have hhead : (addr, w) ≠ (entry.1, entry.2) := fun h => hnew.1 (congrArg Prod.fst h)
      rw [if_neg (Ne.symm hnew.1), List.mem_cons, ih hnew.2]
      simp only [hhead, false_or]

/-- An address that is there gets what the two candidates make. -/
theorem mem_add_old {w existing : Candidate} (hnodup : (m.map Prod.fst).Nodup)
    (hold : (addr, existing) ∈ m) : (addr, w) ∈ m.add addr c ↔ w = displace existing c := by
  induction m with
  | nil => cases hold
  | cons entry rest ih =>
      rw [List.map_cons, List.nodup_cons] at hnodup
      unfold add
      by_cases hkey : entry.1 = addr
      · have habsent : ∀ v, (addr, v) ∉ rest := fun v hv =>
          hnodup.1 (hkey ▸ List.mem_map.mpr ⟨_, hv, rfl⟩)
        obtain rfl : entry.2 = existing := by
          rcases List.mem_cons.mp hold with heq | hrest
          · exact (congrArg Prod.snd heq).symm
          · exact absurd hrest (habsent existing)
        rw [if_pos hkey, List.mem_cons, hkey]
        simp [habsent]
      · have hhead : ∀ v, (addr, v) ≠ (entry.1, entry.2) := fun v h =>
          hkey (congrArg Prod.fst h).symm
        rw [if_neg hkey, List.mem_cons]
        rcases List.mem_cons.mp hold with heq | hrest
        · exact absurd heq (hhead existing)
        · simp only [hhead w, false_or]
          exact ih hnodup.2 hrest

end EmailMap

/-- **A candidate for an address** keeps what the map is. -/
theorem MapOf.add {candidates : List Candidate} {m : EmailMap} {addr : String} {c : Candidate}
    (hm : MapOf candidates m) (hc : c.address = some addr) (haddr : addr ≠ "") :
    MapOf (candidates ++ [c]) (m.add addr c) where
  nodup := EmailMap.nodup_add hm.nodup
  entry := by
    intro key w
    rw [candidatesFor_append, hc]
    by_cases hkey : key = addr
    · subst hkey
      rw [if_pos rfl, merge_append_singleton]
      cases hmerge : merge (candidatesFor key candidates) with
      | none =>
          have hnew : key ∉ m.map Prod.fst := by
            intro hkey
            obtain ⟨⟨_, v⟩, hv, rfl⟩ := List.mem_map.mp hkey
            rw [((hm.entry _ v).mp hv).2] at hmerge
            cases hmerge
          rw [EmailMap.mem_add_new hnew, Option.some.injEq]
          exact ⟨fun h => ⟨haddr, h.symm⟩, fun h => h.2.symm⟩
      | some existing =>
          rw [EmailMap.mem_add_old hm.nodup ((hm.entry _ _).mpr ⟨haddr, hmerge⟩),
            Option.some.injEq]
          exact ⟨fun h => ⟨haddr, h.symm⟩, fun h => h.2.symm⟩
    · rw [EmailMap.mem_add_of_ne hkey, hm.entry, if_neg fun h => hkey (Option.some.inj h).symm]

/-- A candidate without an address leaves the map alone. -/
theorem MapOf.skip {candidates : List Candidate} {m : EmailMap} {c : Candidate}
    (hm : MapOf candidates m) (hc : truthy c.address = false) : MapOf (candidates ++ [c]) m where
  nodup := hm.nodup
  entry := by
    intro key w
    rw [hm.entry, candidatesFor_append]
    by_cases hkey : c.address = some key
    · obtain rfl : key = "" := by
        rw [hkey] at hc
        simpa [truthy] using hc
      simp
    · rw [if_neg hkey]

/-- The candidates that wait for stage 4. -/
def isPending (c : Candidate) : Bool := c.source.isBracketed && c.address.isNone

/-- The candidates that are a phone number. -/
def isPhone (c : Candidate) : Bool := !isPending c && !truthy c.address && truthy c.phone

/-- What the first loop has made of some candidates. -/
structure BindingsOf (candidates : List Candidate) (b : Bindings) : Prop where
  emailMap : MapOf candidates b.emailMap
  bracketedPending : b.bracketedPending = candidates.filter isPending
  phoneCandidates : b.phoneCandidates = candidates.filter isPhone

theorem BindingsOf.bind {candidates : List Candidate} {b : Bindings}
    (hb : BindingsOf candidates b) (c : Candidate) : BindingsOf (candidates ++ [c]) (b.bind c) := by
  have hmap := hb.emailMap
  unfold Bindings.bind
  cases hpending : isPending c with
  | true =>
      have haddress : c.address = none := by
        simpa using (Bool.and_eq_true_iff.mp hpending).2
      have hbranch : (c.source.isBracketed && c.address.isNone) = true := hpending
      rw [if_pos hbranch]
      exact ⟨hmap.skip (by rw [haddress]; rfl), by simp [hb.bracketedPending, hpending],
        by simp [hb.phoneCandidates, isPhone, hpending]⟩
  | false =>
      have hbranch : ¬(c.source.isBracketed && c.address.isNone) = true := fun h =>
        Bool.false_ne_true (hpending.symm.trans h)
      rw [if_neg hbranch]
      cases haddress : truthy c.address with
      | true =>
          rw [if_pos rfl]
          refine ⟨?_, by simp [hb.bracketedPending, hpending],
            by simp [hb.phoneCandidates, isPhone, haddress]⟩
          cases hc : c.address with
          | none =>
              rw [hc] at haddress
              cases haddress
          | some addr =>
              rw [hc] at haddress
              exact hmap.add hc (by simpa [truthy] using haddress)
      | false =>
          rw [if_neg Bool.false_ne_true]
          cases hphone : truthy c.phone with
          | true =>
              exact ⟨hmap.skip haddress, by simp [hb.bracketedPending, hpending],
                by simp [hb.phoneCandidates, isPhone, hpending, haddress, hphone]⟩
          | false =>
              exact ⟨hmap.skip haddress, by simp [hb.bracketedPending, hpending],
                by simp [hb.phoneCandidates, isPhone, hphone]⟩

theorem bindings_of (candidates : List Candidate) :
    BindingsOf candidates (candidates.foldl Bindings.bind {}) := by
  induction candidates using List.reverseRecOn with
  | nil => exact ⟨⟨List.nodup_nil, fun _ _ => by simp [merge, candidatesFor]⟩, rfl, rfl⟩
  | append_singleton candidates c ih =>
      rw [List.foldl_append]
      exact ih.bind c

/-! ### Phones -/

/-- **What a phone number does**: it goes to one entity without a phone, unless each has one. -/
theorem attachPhone_cases (soup : Soup) (entities : List Entity) (phoneC : Candidate) :
    (attachPhone soup entities phoneC = entities ∧ ∀ e ∈ entities, truthy e.phone = true) ∨
      ∃ before e after, entities = before ++ e :: after ∧ truthy e.phone = false ∧
        attachPhone soup entities phoneC = before ++
          { e with phone := phoneC.phone, phoneRung := some phoneC.source.rung } :: after := by
  unfold attachPhone
  dsimp only
  generalize hshares : (fun e : Entity => !truthy e.phone && _) = shares
  have hnone : entities.findIdx? (fun e : Entity => !truthy e.phone) = none →
      ∀ e ∈ entities, truthy e.phone = true := fun h e he => by
    simpa using List.findIdx?_eq_none_iff.mp h e he
  have hsome : ∀ i f, (∃ e, entities[i]? = some e ∧ truthy e.phone = false) →
      ∃ before e after, entities = before ++ e :: after ∧ truthy e.phone = false ∧
        entities.modify i f = before ++ f e :: after := by
    rintro i f ⟨e, hget, hphone⟩
    obtain ⟨hlt, rfl⟩ := List.getElem?_eq_some_iff.mp hget
    refine ⟨entities.take i, entities[i], entities.drop (i + 1), ?_, hphone, ?_⟩
    · rw [← List.drop_eq_getElem_cons hlt, List.take_append_drop]
    · exact List.modify_eq_take_cons_drop hlt
  cases hbest : (entities.findIdx? shares).orElse fun _ =>
      entities.findIdx? fun e : Entity => !truthy e.phone with
  | none =>
      refine Or.inl ⟨rfl, hnone ?_⟩
      cases hfirst : entities.findIdx? shares with
      | none => rwa [hfirst] at hbest
      | some i => rw [hfirst] at hbest; cases hbest
  | some i =>
      refine Or.inr (hsome i _ ?_)
      cases hfirst : entities.findIdx? shares with
      | none =>
          rw [hfirst] at hbest
          obtain ⟨hlt, hphone, -⟩ := List.findIdx?_eq_some_iff_getElem.mp hbest
          exact ⟨_, List.getElem?_eq_getElem hlt, by simpa using hphone⟩
      | some j =>
          rw [hfirst] at hbest
          obtain rfl : j = i := Option.some.inj hbest
          obtain ⟨hlt, hphone, -⟩ := List.findIdx?_eq_some_iff_getElem.mp hfirst
          rw [← hshares] at hphone
          exact ⟨_, List.getElem?_eq_getElem hlt, by
            simpa using (Bool.and_eq_true_iff.mp hphone).1⟩

/-- An entity before it has a phone. -/
def Entity.silent (e : Entity) : Entity := { e with phone := none, phoneRung := none }

theorem silent_attachPhone (soup : Soup) (entities : List Entity) (phoneC : Candidate) :
    (attachPhone soup entities phoneC).map Entity.silent = entities.map Entity.silent := by
  obtain ⟨heq, -⟩ | ⟨before, e, after, rfl, -, heq⟩ := attachPhone_cases soup entities phoneC
  · rw [heq]
  · rw [heq, List.map_append, List.map_append]
    rfl

theorem silent_attachPhones (soup : Soup) (phones : List Candidate) (entities : List Entity) :
    (phones.foldl (attachPhone soup) entities).map Entity.silent =
      entities.map Entity.silent := by
  induction phones generalizing entities with
  | nil => rfl
  | cons phoneC phones ih => rw [List.foldl_cons, ih, silent_attachPhone]

/-! ### The entities -/

section Bind

variable {rules : Rules} {soup : Soup} {roleLocalParts govSuffixes : List String}
  {candidates : List Candidate}

variable (rules roleLocalParts govSuffixes candidates) in
/-- What the map becomes, before the phones. -/
def addressed : List Entity :=
  (candidates.foldl Bindings.bind {}).emailMap.map (entityOf rules roleLocalParts govSuffixes)

variable (rules soup roleLocalParts govSuffixes candidates) in
/-- **The entities**: the addressed ones, with phones, and those that wait for stage 4. -/
theorem bindChannels_eq : bindChannels rules soup roleLocalParts govSuffixes candidates =
    (candidates.filter isPhone).foldl (attachPhone soup)
        (addressed rules roleLocalParts govSuffixes candidates) ++
      (candidates.filter isPending).map fun c => { toCandidate := c } := by
  have hb := bindings_of candidates
  rw [← hb.phoneCandidates, ← hb.bracketedPending]
  rfl

theorem mem_addressed {e : Entity} :
    e ∈ addressed rules roleLocalParts govSuffixes candidates ↔
      ∃ addr w, addr ≠ "" ∧ merge (candidatesFor addr candidates) = some w ∧
        entityOf rules roleLocalParts govSuffixes (addr, w) = e := by
  have hm := (bindings_of candidates).emailMap
  unfold addressed
  rw [List.mem_map]
  constructor
  · rintro ⟨⟨addr, w⟩, hmem, rfl⟩
    obtain ⟨haddr, hmerge⟩ := (hm.entry addr w).mp hmem
    exact ⟨addr, w, haddr, hmerge, rfl⟩
  · rintro ⟨addr, w, haddr, hmerge, rfl⟩
    exact ⟨(addr, w), (hm.entry addr w).mpr ⟨haddr, hmerge⟩, rfl⟩

variable (soup) in
/-- The phones change nothing else. -/
theorem mem_of_attachPhones {e : Entity}
    (he : e ∈ (candidates.filter isPhone).foldl (attachPhone soup)
      (addressed rules roleLocalParts govSuffixes candidates)) :
    ∃ addr w, addr ≠ "" ∧ merge (candidatesFor addr candidates) = some w ∧
      e.silent = (entityOf rules roleLocalParts govSuffixes (addr, w)).silent := by
  have hmem := List.mem_map_of_mem (f := Entity.silent) he
  rw [silent_attachPhones] at hmem
  obtain ⟨e', he', heq⟩ := List.mem_map.mp hmem
  obtain ⟨addr, w, haddr, hmerge, rfl⟩ := mem_addressed.mp he'
  exact ⟨addr, w, haddr, hmerge, heq.symm⟩

/-- An entity with an address is what the candidates for it make. -/
theorem entity_of_email {e : Entity} {addr : String}
    (he : e ∈ bindChannels rules soup roleLocalParts govSuffixes candidates)
    (hemail : e.email = some addr) :
    ∃ w, merge (candidatesFor addr candidates) = some w ∧
      e.silent = (entityOf rules roleLocalParts govSuffixes (addr, w)).silent := by
  rw [bindChannels_eq, List.mem_append] at he
  rcases he with he | he
  · obtain ⟨addr', w, -, hmerge, heq⟩ := mem_of_attachPhones soup he
    have hsame : e.email = some addr' := congrArg Entity.email heq
    obtain rfl : addr' = addr := Option.some.inj (hsame.symm.trans hemail)
    exact ⟨w, hmerge, heq⟩
  · obtain ⟨c, -, rfl⟩ := List.mem_map.mp he
    cases hemail

/-- An entity has an address, or waits for one. -/
theorem bindChannels_cases {e : Entity}
    (he : e ∈ bindChannels rules soup roleLocalParts govSuffixes candidates) :
    (∃ addr, e.email = some addr) ∨
      ∃ c ∈ candidates, isPending c = true ∧ { toCandidate := c } = e := by
  rw [bindChannels_eq, List.mem_append] at he
  rcases he with he | he
  · obtain ⟨addr, w, -, -, heq⟩ := mem_of_attachPhones soup he
    have hemail := congrArg Entity.email heq
    exact Or.inl ⟨addr, hemail⟩
  · obtain ⟨c, hc, rfl⟩ := List.mem_map.mp he
    obtain ⟨hc, hpending⟩ := List.mem_filter.mp hc
    exact Or.inr ⟨c, hc, hpending, rfl⟩

/-- Each address has an entity. -/
theorem exists_entity {c : Candidate} {addr : String} (hc : c ∈ candidates)
    (hcaddr : c.address = some addr) (haddr : addr ≠ "") :
    ∃ e ∈ bindChannels rules soup roleLocalParts govSuffixes candidates, e.email = some addr := by
  obtain ⟨w, hmerge⟩ := exists_merge_iff.mpr ⟨c, hc, hcaddr⟩
  have hmem : entityOf rules roleLocalParts govSuffixes (addr, w) ∈
      addressed rules roleLocalParts govSuffixes candidates :=
    mem_addressed.mpr ⟨addr, w, haddr, hmerge, rfl⟩
  have hsilent := List.mem_map_of_mem (f := Entity.silent) hmem
  rw [← silent_attachPhones soup (candidates.filter isPhone)] at hsilent
  obtain ⟨e, he, heq⟩ := List.mem_map.mp hsilent
  refine ⟨e, ?_, congrArg Entity.email heq⟩
  rw [bindChannels_eq]
  exact List.mem_append_left _ he

end Bind

/-! ### A page of links -/

/-- The patterns, where an address or a number stands in a link only. -/
def linkPattern : Pattern where
  finditer := fun _ => []
  search := fun _ => none
  prefixMatch := fun text =>
    if startsWith "tel:" text then
      some ⟨0, text.length, [text, String.ofList (text.toList.drop 4)]⟩
    else none
  fullmatch := fun text => text.toList.contains '@'
  sub := fun _ text => text

/-- The library, on pages in lower case with nothing to decode. -/
def linkRules : Rules where
  re := ⟨fun _ => linkPattern, fun _ => linkPattern, id⟩
  lower := id
  unquote := id
  netloc := fun _ => some "tn.gov.in"

/-- A page with these links, each in a container of its own. -/
def linkPage (anchors : List (Node × String)) : Soup where
  title := none
  anchors := anchors
  itemprops := []
  tables := []
  text := ""
  names := []
  parent := fun node => some (node + 100)
  nodeText := fun _ => ""

end Parser

end GovCrawler
