/-
Which candidate an entity is, and what it still knows of the others.

Stage 1 goes down the rungs, so the first candidate for an address is never displaced.  Its
fallback takes the first context that a later one has, and once there is one no other is taken: the
merge has a context as soon as a candidate has one.  Stage 3 reads what is kept wherever the
entity's own context is blank.
-/
import GovCrawler.Crawler.Binding

namespace GovCrawler

namespace Parser

/-! ### Contexts -/

/-- What a name and a designation are read from. -/
abbrev Context := TableContext ⊕ TextContext

/-- The context of a candidate that was found in a table or in text. -/
def Source.context : Source → Option Context
  | .mailtoTel | .microdata => none
  | .tableBlock ctx => some (.inl ctx)
  | .proximityText ctx _ => some (.inr ctx)

/-- The contexts that a candidate has kept of others. -/
def Candidate.keptContexts (c : Candidate) : List Context :=
  c.fallbackTable.toList.map .inl ++ c.fallbackText.toList.map .inr

/-- The contexts that a candidate has, its own and the kept ones. -/
def Candidate.contexts (c : Candidate) : List Context :=
  c.source.context.toList ++ c.keptContexts

/-- The first of the candidates on the highest rung. -/
def firstBest (candidates : List Candidate) : Option Candidate :=
  candidates.find? fun c =>
    candidates.all fun other => decide (other.source.rung.rank ≤ c.source.rung.rank)

/-- The first candidate of an ordered list is the first of the highest rung. -/
theorem firstBest_of_ordered {c : Candidate} {rest : List Candidate} (hordered : Ordered (c :: rest)) :
    firstBest (c :: rest) = some c := by
  have hbest : ((c :: rest).all fun other =>
      decide (other.source.rung.rank ≤ c.source.rung.rank)) = true := by
    refine List.all_eq_true.mpr fun other hother => decide_eq_true ?_
    rcases List.mem_cons.mp hother with rfl | hother
    · exact Nat.le_refl _
    · exact List.rel_of_pairwise_cons hordered hother
  exact List.find?_cons_of_pos hbest

/-- `w` is the candidate `first`, and a context is kept if one of the candidates has one. -/
structure Keeps (first : Candidate) (candidates : List Candidate) (w : Candidate) : Prop where
  source : w.source = first.source
  contextNode : w.contextNode = first.contextNode
  rawSpan : w.rawSpan = first.rawSpan
  own : ∀ ctx ∈ w.contexts, ∃ c ∈ candidates, c.source.context = some ctx
  kept : ∀ c ∈ candidates, c.source.context.isSome = true → w.contexts ≠ []

namespace Keeps

variable {first w c : Candidate} {candidates : List Candidate}

theorem single (hfresh : c.Fresh) : Keeps c [c] c where
  source := rfl
  contextNode := rfl
  rawSpan := rfl
  own := by
    intro ctx hctx
    unfold Candidate.contexts Candidate.keptContexts at hctx
    rw [hfresh.1, hfresh.2] at hctx
    exact ⟨c, List.mem_singleton_self c, Option.mem_toList.mp (by simpa using hctx)⟩
  kept := by
    intro c' hc' hsome hnil
    obtain rfl := List.mem_singleton.mp hc'
    obtain ⟨ctx, hctx⟩ := Option.isSome_iff_exists.mp hsome
    have hmem : ctx ∈ c'.contexts := List.mem_append_left _ (by rw [hctx]; exact List.mem_singleton_self ctx)
    rw [hnil] at hmem
    cases hmem

/-- A candidate that brings nothing new, or comes too late. -/
theorem skip (hw : Keeps first candidates w)
    (hc : c.source.context.isSome = true → w.contexts ≠ []) : Keeps first (candidates ++ [c]) w where
  source := hw.source
  contextNode := hw.contextNode
  rawSpan := hw.rawSpan
  own := fun ctx hctx => by
    obtain ⟨c', hc', heq⟩ := hw.own ctx hctx
    exact ⟨c', List.mem_append_left _ hc', heq⟩
  kept := by
    intro c' hc' hsome
    rcases List.mem_append.mp hc' with hc' | hc'
    · exact hw.kept c' hc' hsome
    · obtain rfl := List.mem_singleton.mp hc'
      exact hc hsome

/-- The first context that can be kept. -/
theorem keep {ctx : Context} {w' : Candidate} (hw : Keeps first candidates w)
    (hctx : c.source.context = some ctx) (hsource : w'.source = w.source)
    (hnode : w'.contextNode = w.contextNode) (hspan : w'.rawSpan = w.rawSpan)
    (hcontexts : w'.contexts = w.source.context.toList ++ [ctx]) :
    Keeps first (candidates ++ [c]) w' where
  source := hsource.trans hw.source
  contextNode := hnode.trans hw.contextNode
  rawSpan := hspan.trans hw.rawSpan
  own := by
    intro ctx' hctx'
    rw [hcontexts, List.mem_append] at hctx'
    rcases hctx' with hctx' | hctx'
    · obtain ⟨c', hc', heq⟩ := hw.own ctx' (List.mem_append_left _ hctx')
      exact ⟨c', List.mem_append_left _ hc', heq⟩
    · obtain rfl := List.mem_singleton.mp hctx'
      exact ⟨c, List.mem_append_right _ (List.mem_singleton_self c), hctx⟩
  kept := fun _ _ _ hnil => by
    rw [hcontexts] at hnil
    exact absurd hnil (List.append_ne_nil_of_right_ne_nil _ (List.cons_ne_nil _ _))

/-- **One more candidate**, on a rung that is not higher. -/
theorem displace (hw : Keeps first candidates w)
    (hrank : c.source.rung.rank ≤ first.source.rung.rank) :
    Keeps first (candidates ++ [c]) (displace w c) := by
  unfold Parser.displace
  rw [hw.source, if_neg (Nat.not_lt_of_le hrank)]
  cases hfallback : hasFallbackContext w with
  | true =>
      refine hw.skip fun _ hnil => ?_
      unfold Candidate.contexts at hnil
      obtain ⟨-, hnil⟩ := List.append_eq_nil_iff.mp hnil
      unfold Candidate.keptContexts at hnil
      obtain ⟨htable, htext⟩ := List.append_eq_nil_iff.mp hnil
      unfold hasFallbackContext at hfallback
      cases htable' : w.fallbackTable with
      | some ctx => rw [htable'] at htable; cases htable
      | none =>
          cases htext' : w.fallbackText with
          | some ctx => rw [htext'] at htext; cases htext
          | none =>
              rw [htable', htext'] at hfallback
              cases hfallback
  | false =>
      obtain ⟨htable, htext⟩ : w.fallbackTable = none ∧ w.fallbackText = none := by
        simpa [hasFallbackContext] using hfallback
      rw [if_pos (by rfl)]
      unfold carryFallbackContext
      cases hsource : c.source with
      | mailtoTel => exact hw.skip fun h => by rw [hsource] at h; cases h
      | microdata => exact hw.skip fun h => by rw [hsource] at h; cases h
      | tableBlock ctx =>
          have hctx : c.source.context = some (.inl ctx) := by rw [hsource]; rfl
          exact hw.keep hctx rfl rfl rfl (by simp [Candidate.contexts, Candidate.keptContexts, htext])
      | proximityText ctx bracketed =>
          have hctx : c.source.context = some (.inr ctx) := by rw [hsource]; rfl
          exact hw.keep hctx rfl rfl rfl (by simp [Candidate.contexts, Candidate.keptContexts, htable])

end Keeps

/-- What the candidates for an address make, in the order of stage 1. -/
theorem merge_keeps {candidates : List Candidate} {w : Candidate} (hordered : Ordered candidates)
    (hfresh : ∀ c ∈ candidates, c.Fresh) (hmerge : merge candidates = some w) :
    ∃ first, firstBest candidates = some first ∧ Keeps first candidates w := by
  cases candidates with
  | nil => cases hmerge
  | cons first rest =>
      refine ⟨first, firstBest_of_ordered hordered, ?_⟩
      obtain rfl : rest.foldl Parser.displace first = w := Option.some.inj hmerge
      have hbelow : ∀ c ∈ rest, c.source.rung.rank ≤ first.source.rung.rank := fun c hc =>
        List.rel_of_pairwise_cons hordered hc
      have hfirst : first.Fresh := hfresh first List.mem_cons_self
      clear hordered hfresh hmerge
      induction rest using List.reverseRecOn with
      | nil => exact Keeps.single hfirst
      | append_singleton rest c ih =>
          rw [List.foldl_append, ← List.cons_append]
          exact (ih fun c' hc' => hbelow c' (List.mem_append_left _ hc')).displace
            (hbelow c (List.mem_append_right _ (List.mem_singleton_self c)))

/-! ### Stage 3 sees what is kept -/

/-- The name that a context gives. -/
def Context.name (re : Re) (pcfg : PersonConfig) : Context → Option String
  | .inl ctx => orFill (cellValue ctx.cellTexts ctx.col.name) fun _ =>
      matchName re pcfg ctx.rowText
  | .inr ctx => matchName re pcfg
      (slice (ctx.start - pcfg.proximityChars) (ctx.stop + pcfg.proximityChars) ctx.fullText)

/-- The designation that a context gives. -/
def Context.designation (re : Re) (pcfg : PersonConfig) : Context → Option String
  | .inl ctx => orFill (clipDesignation re (cellValue ctx.cellTexts ctx.col.designation)) fun _ =>
      matchDesignation re pcfg ctx.rowText
  | .inr ctx => matchDesignation re pcfg
      (slice (ctx.start - pcfg.proximityChars) (ctx.stop + pcfg.proximityChars) ctx.fullText)

section Enrich

variable {rules : Rules} {re : Re} {pcfg : PersonConfig} {soup : Soup} {ecfg : EmailConfig}
  {ctx : Context}

@[simp] theorem truthy_orFill (value : Option String) (other : Unit → Option String) :
    truthy (orFill value other) = (truthy value || truthy (other ())) := by
  unfold orFill
  cases hvalue : truthy value with
  | true => simp [hvalue]
  | false => simp

/-- A pattern that is not there finds nothing. -/
theorem truthy_orFill_guarded (value found : Option String) (absent : Bool)
    (hfound : absent = true → found = none) :
    truthy (orFill value fun _ => if absent then value else found) =
      (truthy value || truthy found) := by
  rw [truthy_orFill]
  cases absent with
  | true => simp [hfound rfl, truthy]
  | false => rfl

theorem matchName_absent {text : String} (h : pcfg.titlePrefixes.isEmpty = true) :
    matchName re pcfg text = none := if_pos h

theorem matchDesignation_absent {text : String} (h : pcfg.designationKeywords.isEmpty = true) :
    matchDesignation re pcfg text = none := if_pos h

/-- **The context an entity was found in** gives what it has. -/
theorem readContext_own {e : Entity} (henabled : pcfg.enabled = true)
    (hctx : e.source.context = some ctx) :
    truthy (readContext re soup pcfg ecfg e).personName = truthy (ctx.name re pcfg) ∧
      truthy (readContext re soup pcfg ecfg e).designation = truthy (ctx.designation re pcfg) := by
  unfold readContext
  cases hsource : e.source with
  | mailtoTel => rw [hsource] at hctx; cases hctx
  | microdata => rw [hsource] at hctx; cases hctx
  | tableBlock t =>
      rw [hsource] at hctx
      obtain rfl : Sum.inl t = ctx := Option.some.inj hctx
      simp only [henabled, Bool.not_true, Bool.false_eq_true, if_false, Context.name,
        Context.designation]
      constructor
      · rw [truthy_orFill_guarded _ _ _ matchName_absent, truthy_orFill]
      · rw [truthy_orFill_guarded _ _ _ matchDesignation_absent, truthy_orFill]
  | proximityText t bracketed =>
      rw [hsource] at hctx
      obtain rfl : Sum.inr t = ctx := Option.some.inj hctx
      simp only [henabled, Bool.not_true, Bool.false_eq_true, if_false, Context.name,
        Context.designation, and_self]

/-- The contexts stay with the entity. -/
theorem readContext_toEntity (e : Entity) :
    (readContext re soup pcfg ecfg e).toEntity = e := by
  unfold readContext
  cases e.source <;> dsimp only <;> split <;> rfl

/-- **A kept context** fills in what is blank. -/
theorem truthy_applyFallbackContext (e : EnrichedEntity) :
    truthy (applyFallbackContext re pcfg e).personName = (truthy e.personName ||
        e.keptContexts.any fun ctx => truthy (ctx.name re pcfg)) ∧
      truthy (applyFallbackContext re pcfg e).designation = (truthy e.designation ||
        e.keptContexts.any fun ctx => truthy (ctx.designation re pcfg)) := by
  have hname := fun (value : Option String) (text : String) =>
    truthy_orFill_guarded value _ _ (@matchName_absent re pcfg text)
  have hdesignation := fun (value : Option String) (text : String) =>
    truthy_orFill_guarded value _ _ (@matchDesignation_absent re pcfg text)
  unfold applyFallbackContext Candidate.keptContexts
  cases htable : e.fallbackTable with
  | none =>
      cases htext : e.fallbackText with
      | none => simp [htext]
      | some text => simp [htext, Context.name, Context.designation]
  | some table =>
      dsimp only
      cases htext : e.fallbackText with
      | none =>
          simp only [hname, hdesignation]
          simp [Context.name, Context.designation, Bool.or_assoc]
      | some text =>
          simp only [truthy_orFill _ fun _ => matchName _ _ _,
            truthy_orFill _ fun _ => matchDesignation _ _ _, hname, hdesignation]
          simp [Context.name, Context.designation, Bool.or_assoc]

/-- **Stage 3 sees** every context of an entity. -/
theorem enrichFields_sees {sourceUrl : String} {e : Entity} (henabled : pcfg.enabled = true)
    (hctx : ctx ∈ e.contexts) :
    (truthy (ctx.name rules.re pcfg) = true →
        truthy (enrichFields rules soup sourceUrl pcfg ecfg e).personName = true) ∧
      (truthy (ctx.designation rules.re pcfg) = true →
        truthy (enrichFields rules soup sourceUrl pcfg ecfg e).designation = true) := by
  unfold enrichFields
  dsimp only
  rw [henabled, Bool.true_and]
  have hkept : (readContext rules.re soup pcfg ecfg e).keptContexts = e.keptContexts :=
    congrArg (fun e : Entity => e.keptContexts) (readContext_toEntity e)
  obtain ⟨hname, hdesignation⟩ :=
    @truthy_applyFallbackContext rules.re pcfg (readContext rules.re soup pcfg ecfg e)
  rw [hkept] at hname hdesignation
  rcases List.mem_append.mp hctx with hown | hfallback
  · obtain ⟨hname', hdesignation'⟩ :=
      @readContext_own rules.re pcfg soup ecfg ctx e henabled (Option.mem_toList.mp hown)
    split
    · rw [hname, hdesignation, hname', hdesignation']
      exact ⟨fun h => by rw [h]; rfl, fun h => by rw [h]; rfl⟩
    · exact ⟨fun h => hname'.trans h, fun h => hdesignation'.trans h⟩
  · split
    · rw [hname, hdesignation]
      refine ⟨fun h => ?_, fun h => ?_⟩
      · rw [List.any_eq_true.mpr ⟨ctx, hfallback, h⟩, Bool.or_true]
      · rw [List.any_eq_true.mpr ⟨ctx, hfallback, h⟩, Bool.or_true]
    · rename_i hfull
      obtain ⟨hname'', hdesignation''⟩ := by simpa using hfull
      exact ⟨fun _ => hname'', fun _ => hdesignation''⟩

theorem applyFallbackContext_toEntity (e : EnrichedEntity) :
    (applyFallbackContext re pcfg e).toEntity = e.toEntity := by
  unfold applyFallbackContext
  cases e.fallbackTable with
  | none => dsimp only; split <;> rfl
  | some ctx => dsimp only; split <;> rfl

/-- Stage 3 adds its fields. -/
theorem enrichFields_toEntity (sourceUrl : String) (e : Entity) :
    (enrichFields rules soup sourceUrl pcfg ecfg e).toEntity = e := by
  unfold enrichFields
  dsimp only
  split
  · exact (applyFallbackContext_toEntity _).trans (readContext_toEntity e)
  · exact readContext_toEntity e

end Enrich

/-! ### The entity of an address -/

/-- A phone makes no difference. -/
theorem Keeps.congr {first w w' : Candidate} {candidates : List Candidate}
    (hw : Keeps first candidates w) (hsource : w'.source = w.source)
    (hnode : w'.contextNode = w.contextNode) (hspan : w'.rawSpan = w.rawSpan)
    (hcontexts : w'.contexts = w.contexts) : Keeps first candidates w' where
  source := hsource.trans hw.source
  contextNode := hnode.trans hw.contextNode
  rawSpan := hspan.trans hw.rawSpan
  own := by
    rw [hcontexts]
    exact hw.own
  kept := by
    rw [hcontexts]
    exact hw.kept

/-- **Rung precedence keeps context.**  An address has an entity.  It is the first candidate on the
highest rung for the address, it has a context of one of the candidates as soon as one of them has
a context, and stage 3 has a name and a designation for it if a context of it gives one. -/
theorem bindChannels_keeps (rules : Rules) (soup : Soup) (roleLocalParts govSuffixes : List String)
    {candidates : List Candidate} (hordered : Ordered candidates)
    (hfresh : ∀ c ∈ candidates, c.Fresh) {addr : String} (haddr : addr ≠ "")
    (hsome : ∃ c ∈ candidates, c.address = some addr) :
    (∃ e ∈ bindChannels rules soup roleLocalParts govSuffixes candidates, e.email = some addr) ∧
      ∃ first, firstBest (candidatesFor addr candidates) = some first ∧
        ∀ e ∈ bindChannels rules soup roleLocalParts govSuffixes candidates, e.email = some addr →
          Keeps first (candidatesFor addr candidates) e.toCandidate ∧
          ∀ sourceUrl pcfg ecfg, pcfg.enabled = true → ∀ ctx ∈ e.contexts,
            (truthy (ctx.name rules.re pcfg) = true →
              truthy (enrichFields rules soup sourceUrl pcfg ecfg e).personName = true) ∧
            (truthy (ctx.designation rules.re pcfg) = true →
              truthy (enrichFields rules soup sourceUrl pcfg ecfg e).designation = true) := by
  have hordered' : Ordered (candidatesFor addr candidates) := hordered.filter _
  have hfresh' : ∀ c ∈ candidatesFor addr candidates, c.Fresh := fun c hc =>
    hfresh c (List.mem_filter.mp hc).1
  obtain ⟨c, hc, hcaddr⟩ := hsome
  have hexists := @exists_entity rules soup roleLocalParts govSuffixes candidates c addr hc hcaddr haddr
  refine ⟨hexists, ?_⟩
  obtain ⟨e, he, hemail⟩ := hexists
  obtain ⟨w, hmerge, -⟩ := entity_of_email he hemail
  obtain ⟨first, hfirst, hkeeps⟩ := merge_keeps hordered' hfresh' hmerge
  refine ⟨first, hfirst, fun e' he' hemail' => ?_⟩
  obtain ⟨w', hmerge', hsilent⟩ := entity_of_email he' hemail'
  obtain rfl : w' = w := Option.some.inj (hmerge'.symm.trans hmerge)
  have hsource := congrArg (fun e : Entity => e.source) hsilent
  have hnode := congrArg (fun e : Entity => e.contextNode) hsilent
  have hspan := congrArg (fun e : Entity => e.rawSpan) hsilent
  have hcontexts := congrArg (fun e : Entity => e.contexts) hsilent
  exact ⟨hkeeps.congr hsource hnode hspan hcontexts, fun _ _ _ henabled ctx hctx =>
    enrichFields_sees henabled hctx⟩

/-! The address of a row that is also a link. -/

/-- The row. -/
def ramContext : TableContext where
  col := ⟨some 0, some 1, none, some 2⟩
  cellTexts := ["Ram Kumar", "Director", "ram.kumar@tn.gov.in"]
  rowText := "Ram Kumar Director ram.kumar@tn.gov.in"

def ramFound (source : Source) : Candidate :=
  ⟨some "ram.kumar@tn.gov.in", source, some 2, "ram.kumar@tn.gov.in", none, none, none⟩

/-- The link, then the row. -/
def ramCandidates : List Candidate := [ramFound .mailtoTel, ramFound (.tableBlock ramContext)]

theorem ram_has_name :
    ∃ e ∈ bindChannels linkRules (linkPage []) [] [".gov.in"] ramCandidates,
      e.email = some "ram.kumar@tn.gov.in" ∧ e.source = .mailtoTel ∧
      truthy (enrichFields linkRules (linkPage []) "https://tn.gov.in" {} {} e).personName =
        true := by
  have hordered : Ordered ramCandidates := by
    show List.Pairwise _ ramCandidates
    decide
  have hfresh : ∀ c ∈ ramCandidates, c.Fresh := by
    intro c hc
    rcases List.mem_cons.mp hc with rfl | hc
    · exact ⟨rfl, rfl⟩
    · obtain rfl := List.mem_singleton.mp hc
      exact ⟨rfl, rfl⟩
  obtain ⟨⟨e, he, hemail⟩, first, hfirst, hall⟩ :=
    bindChannels_keeps linkRules (linkPage []) [] [".gov.in"] hordered hfresh (by decide)
      ⟨_, List.mem_cons_self, rfl⟩
  obtain ⟨hkeeps, hsees⟩ := hall e he hemail
  have hsource : first.source = .mailtoTel := by
    have hmap := congrArg (Option.map fun c : Candidate => c.source) hfirst
    exact (Option.some.inj hmap).symm
  have hrow : ∀ c ∈ candidatesFor "ram.kumar@tn.gov.in" ramCandidates,
      ∀ ctx, c.source.context = some ctx → ctx = .inl ramContext := by
    intro c hc ctx hctx
    rcases List.mem_cons.mp (List.mem_filter.mp hc).1 with rfl | hc
    · cases hctx
    · obtain rfl := List.mem_singleton.mp hc
      exact (Option.some.inj hctx).symm
  have hcontexts : e.contexts ≠ [] :=
    hkeeps.kept (ramFound (.tableBlock ramContext))
      (List.mem_filter.mpr ⟨List.mem_cons_of_mem _ List.mem_cons_self, rfl⟩) rfl
  obtain ⟨ctx, hctx⟩ := List.exists_mem_of_ne_nil _ hcontexts
  obtain ⟨c, hc, hown⟩ := hkeeps.own ctx hctx
  obtain rfl := hrow c hc ctx hown
  exact ⟨e, he, hemail, hkeeps.source.trans hsource,
    (hsees "https://tn.gov.in" {} {} rfl _ hctx).1 (by decide +kernel)⟩

end Parser

end GovCrawler
