/-
Which addresses a page gets a lead for.

Each stage after the first is followed by what it makes of the set of addresses: the entities have
those of the candidates, the fields of stage 3 do not touch them, stage 4 adds what the bracketed
forms resolve to, and stage 6 takes each address once.
-/
import GovCrawler.Crawler.KeptContext

namespace GovCrawler

namespace Parser

/-- Stages 2 to 6. -/
def leadsOf (rules : Rules) (config : ExtractionConfig) (soup : Soup) (sourceUrl : String)
    (candidates : List Candidate) : List ParsedLead :=
  let entities :=
    bindChannels rules soup config.roleLocalParts config.email.validSuffixes candidates
  let enriched := entities.map (enrichFields rules soup sourceUrl config.person config.email)
  flattenEmit ((normaliseSpans rules config.email config.roleLocalParts enriched).map
    (EnrichedEntity.score config.highRungs)) sourceUrl (strip (soup.title.getD ""))

theorem extractLeads_eq_leadsOf (rules : Rules) (config : ExtractionConfig) (soup : Soup)
    (sourceUrl : String) : extractLeads rules config soup sourceUrl =
      leadsOf rules config soup sourceUrl
        (extractCandidates rules config.email config.maxInputChars soup) := rfl

/-! ### Stage 6 -/

/-- **What stage 6 does** with an entity: it goes, or it is the first with its address. -/
theorem firstPerEmail_cons (seenEmails : List String) (e : ScoredEntity) (rest : List ScoredEntity) :
    ((∀ addr, e.email = some addr → addr = "" ∨ addr ∈ seenEmails) ∧
        firstPerEmail seenEmails (e :: rest) = firstPerEmail seenEmails rest) ∨
      ∃ addr, e.email = some addr ∧ addr ≠ "" ∧ addr ∉ seenEmails ∧
        firstPerEmail seenEmails (e :: rest) = e :: firstPerEmail (addr :: seenEmails) rest := by
  rw [firstPerEmail]
  cases hemail : e.email with
  | none => exact Or.inl ⟨(fun addr h => nomatch h), rfl⟩
  | some addr =>
      by_cases hold : addr = "" ∨ addr ∈ seenEmails
      · refine Or.inl ⟨fun addr' h => Option.some.inj h ▸ hold, if_pos ?_⟩
        simpa [truthy] using hold
      · refine Or.inr ⟨addr, rfl, fun h => hold (Or.inl h), fun h => hold (Or.inr h), if_neg ?_⟩
        simpa [truthy] using hold

theorem firstPerEmail_nodup (seenEmails : List String) (entities : List ScoredEntity) :
    ((firstPerEmail seenEmails entities).map fun e => e.email).Nodup ∧
      ∀ addr ∈ seenEmails, some addr ∉ (firstPerEmail seenEmails entities).map fun e => e.email := by
  induction entities generalizing seenEmails with
  | nil => exact ⟨List.nodup_nil, fun _ _ h => nomatch h⟩
  | cons e rest ih =>
      obtain ⟨-, heq⟩ | ⟨addr, hemail, -, hunseen, heq⟩ := firstPerEmail_cons seenEmails e rest
      · rw [heq]
        exact ih seenEmails
      · obtain ⟨hnodup, hfresh⟩ := ih (addr :: seenEmails)
        rw [heq, List.map_cons, hemail]
        refine ⟨List.nodup_cons.mpr ⟨hfresh addr List.mem_cons_self, hnodup⟩, ?_⟩
        intro addr' haddr' hmem
        rcases List.mem_cons.mp hmem with hsame | hmem
        · exact hunseen (Option.some.inj hsame ▸ haddr')
        · exact hfresh addr' (List.mem_cons_of_mem _ haddr') hmem

theorem exists_email_firstPerEmail (seenEmails : List String) (entities : List ScoredEntity) :
    ∀ e ∈ firstPerEmail seenEmails entities, ∃ addr, e.email = some addr := by
  induction entities generalizing seenEmails with
  | nil => exact fun _ he => nomatch he
  | cons e rest ih =>
      intro e' he'
      obtain ⟨-, heq⟩ | ⟨addr, hemail, -, -, heq⟩ := firstPerEmail_cons seenEmails e rest
      · rw [heq] at he'
        exact ih seenEmails e' he'
      · rw [heq] at he'
        rcases List.mem_cons.mp he' with rfl | he'
        · exact ⟨addr, hemail⟩
        · exact ih _ e' he'

/-- What stage 6 takes is what there is. -/
theorem mem_firstPerEmail_iff (seenEmails : List String) (entities : List ScoredEntity)
    (addr : String) : some addr ∈ (firstPerEmail seenEmails entities).map (fun e => e.email) ↔
      addr ≠ "" ∧ addr ∉ seenEmails ∧ some addr ∈ entities.map fun e => e.email := by
  induction entities generalizing seenEmails with
  | nil => simp [firstPerEmail]
  | cons e rest ih =>
      obtain ⟨hold, heq⟩ | ⟨addr', hemail, hne, hunseen, heq⟩ :=
        firstPerEmail_cons seenEmails e rest
      · rw [heq, ih, List.map_cons, List.mem_cons]
        refine and_congr_right fun hne => and_congr_right fun hunseen => ?_
        refine ⟨Or.inr, fun h => h.resolve_left fun hsame => ?_⟩
        exact (hold addr hsame.symm).elim hne hunseen
      · rw [heq, List.map_cons, List.mem_cons, ih, List.map_cons, List.mem_cons, hemail,
          Option.some.injEq, List.mem_cons, not_or]
        by_cases hsame : addr = addr'
        · subst hsame
          simp [hne, hunseen]
        · simp [hsame]

/-! ### Stage 4 -/

/-- What stage 4 leaves as it is. -/
def passes (rules : Rules) (ecfg : EmailConfig) (c : Candidate) : Bool :=
  let isText := match c.source with
    | .proximityText _ _ => true
    | _ => false
  !isText || ((buildBracketedEmailRe rules.re ecfg.obfuscation).search c.rawSpan).isNone

/-- The address that a span resolves to. -/
def resolvedAddress (rules : Rules) (ecfg : EmailConfig) (rawSpan : String) : Option String :=
  ((rules.re.compileIgnoreCase ecfg.regex).search (ecfg.obfuscation.foldl
    (fun text p => (rules.re.compileIgnoreCase p.1).sub p.2 text) rawSpan)).map
      (matchedAddress rules ecfg.validSuffixes)

/-- **What stage 4 does** with an entity. -/
theorem normaliseFrom_cons (rules : Rules) (ecfg : EmailConfig) (roleLocalParts taken : List String)
    (e : EnrichedEntity) (rest : List EnrichedEntity) :
    (passes rules ecfg e.toCandidate = true ∧
        normaliseFrom rules ecfg roleLocalParts taken (e :: rest) =
          e :: normaliseFrom rules ecfg roleLocalParts taken rest) ∨
      (passes rules ecfg e.toCandidate = false ∧
        (∀ addr, resolvedAddress rules ecfg e.rawSpan = some addr → addr ∈ taken) ∧
        normaliseFrom rules ecfg roleLocalParts taken (e :: rest) =
          normaliseFrom rules ecfg roleLocalParts taken rest) ∨
      (passes rules ecfg e.toCandidate = false ∧
        ∃ addr e', resolvedAddress rules ecfg e.rawSpan = some addr ∧ addr ∉ taken ∧
          e'.email = some addr ∧ e'.phone = e.phone ∧ e'.source = e.source ∧
          e'.department = e.department ∧
          normaliseFrom rules ecfg roleLocalParts taken (e :: rest) =
            e' :: normaliseFrom rules ecfg roleLocalParts (addr :: taken) rest) := by
  rw [normaliseFrom]
  cases hpasses : passes rules ecfg e.toCandidate with
  | true => exact Or.inl ⟨rfl, if_pos hpasses⟩
  | false =>
      refine Or.inr ?_
      have hbranch := fun (whole after : List EnrichedEntity) =>
        @if_neg _ (instDecidableEqBool _ true) (fun h => Bool.false_ne_true (hpasses.symm.trans h))
          (List EnrichedEntity) whole after
      dsimp only at hbranch ⊢
      unfold resolvedAddress
      cases hm : (rules.re.compileIgnoreCase ecfg.regex).search (ecfg.obfuscation.foldl
          (fun text p => (rules.re.compileIgnoreCase p.1).sub p.2 text) e.rawSpan) with
      | none => exact Or.inl ⟨rfl, (fun _ h => nomatch h), hbranch _ _⟩
      | some m =>
          dsimp only
          by_cases hold : matchedAddress rules ecfg.validSuffixes m ∈ taken
          · rw [if_pos (List.contains_iff_mem.mpr hold)]
            exact Or.inl ⟨rfl, fun _ h => Option.some.inj h ▸ hold, hbranch _ _⟩
          · rw [if_neg fun h => hold (List.contains_iff_mem.mp h)]
            refine Or.inr ⟨rfl, _, _, rfl, hold, ?_, ?_, ?_, ?_, hbranch _ _⟩
            · rfl
            · rfl
            · rfl
            · rfl

section Normalise

variable {rules : Rules} {ecfg : EmailConfig} {roleLocalParts : List String}

/-- The addresses after stage 4. -/
theorem mem_email_normaliseFrom (taken : List String) (entities : List EnrichedEntity)
    (addr : String) :
    some addr ∈ (normaliseFrom rules ecfg roleLocalParts taken entities).map (fun e => e.email) ↔
      (∃ e ∈ entities, passes rules ecfg e.toCandidate = true ∧ e.email = some addr) ∨
        (addr ∉ taken ∧ ∃ e ∈ entities, passes rules ecfg e.toCandidate = false ∧
          resolvedAddress rules ecfg e.rawSpan = some addr) := by
  induction entities generalizing taken with
  | nil => simp [normaliseFrom]
  | cons e rest ih =>
      simp only [List.exists_mem_cons_iff]
      obtain ⟨hpasses, heq⟩ | ⟨hpasses, hold, heq⟩ |
          ⟨hpasses, addr', e', hresolved, hnew, hemail, -, -, -, heq⟩ :=
        normaliseFrom_cons rules ecfg roleLocalParts taken e rest
      · rw [heq, List.map_cons, List.mem_cons, ih, hpasses, @eq_comm _ (some addr)]
        simp only [true_and, Bool.true_eq_false, false_and, false_or, or_assoc]
      · rw [heq, ih, hpasses]
        have hother : addr ∉ taken → resolvedAddress rules ecfg e.rawSpan ≠ some addr :=
          fun hnew h => hnew (hold addr h)
        simp only [Bool.false_eq_true, false_and, false_or, true_and]
        refine or_congr_right (and_congr_right fun hnew => ?_)
        simp only [hother hnew, false_or]
      · rw [heq, List.map_cons, List.mem_cons, ih, hpasses, hemail, hresolved]
        simp only [Bool.false_eq_true, false_and, false_or, true_and, Option.some.injEq,
          List.mem_cons, not_or]
        by_cases hsame : addr = addr'
        · subst hsame
          simp [hnew]
        · have hsame' : addr' ≠ addr := Ne.symm hsame
          simp [hsame, hsame']

/-- The addresses that are taken before stage 4. -/
theorem mem_taken {entities : List EnrichedEntity} {addr : String} (hne : addr ≠ "") :
    addr ∈ (entities.filter fun e => truthy e.email).map (fun e => e.email.getD "") ↔
      ∃ e ∈ entities, e.email = some addr := by
  constructor
  · intro hmem
    obtain ⟨e, he, haddr⟩ := List.mem_map.mp hmem
    obtain ⟨he, htruthy⟩ := List.mem_filter.mp he
    refine ⟨e, he, ?_⟩
    cases hemail : e.email with
    | none => rw [hemail] at htruthy; cases htruthy
    | some a => rw [← haddr, hemail]; rfl
  · rintro ⟨e, he, hemail⟩
    refine List.mem_map.mpr ⟨e, List.mem_filter.mpr ⟨he, ?_⟩, ?_⟩
    · rw [hemail]
      exact decide_eq_true hne
    · rw [hemail]
      rfl

theorem mem_email_normaliseSpans (entities : List EnrichedEntity) {addr : String} (hne : addr ≠ "") :
    some addr ∈ (normaliseSpans rules ecfg roleLocalParts entities).map (fun e => e.email) ↔
      (∃ e ∈ entities, passes rules ecfg e.toCandidate = true ∧ e.email = some addr) ∨
        ((¬∃ e ∈ entities, e.email = some addr) ∧ ∃ e ∈ entities,
          passes rules ecfg e.toCandidate = false ∧
            resolvedAddress rules ecfg e.rawSpan = some addr) := by
  unfold normaliseSpans
  rw [mem_email_normaliseFrom, mem_taken hne]

end Normalise

/-! ### The addresses of a page -/

/-- The address that a bracketed form resolves to. -/
def bracketedAddress (rules : Rules) (ecfg : EmailConfig) (c : Candidate) : Option String :=
  if isPending c && !passes rules ecfg c then resolvedAddress rules ecfg c.rawSpan else none

section Page

variable {rules : Rules} {config : ExtractionConfig} {soup : Soup} {sourceUrl : String}
  {candidates : List Candidate} {addr : String}

/-- An entity with an address is left as it is, where the detector matches no address. -/
theorem passes_of_email {roleLocalParts govSuffixes : List String} {ecfg : EmailConfig} {e : Entity}
    (hfound : ∀ c ∈ candidates, c.Found)
    (hdetector : ∀ c ∈ candidates, ∀ a, c.address = some a →
      (buildBracketedEmailRe rules.re ecfg.obfuscation).search a = none)
    (he : e ∈ bindChannels rules soup roleLocalParts govSuffixes candidates)
    (hemail : e.email = some addr) : passes rules ecfg e.toCandidate = true := by
  obtain ⟨w, hmerge, heq⟩ := entity_of_email he hemail
  have hnone : (buildBracketedEmailRe rules.re ecfg.obfuscation).search w.rawSpan = none := by
    refine @merge_induction
      (fun c => (buildBracketedEmailRe rules.re ecfg.obfuscation).search c.rawSpan = none) _ w
      (fun existing c hexisting hc => ?_) (fun c hc => ?_) hmerge
    · rcases rawSpan_displace existing c with h | h
      · rw [h]
        exact hc
      · rw [h]
        exact hexisting
    · obtain ⟨hc, haddress⟩ := List.mem_filter.mp hc
      rw [(hfound c hc).span addr (beq_iff_eq.mp haddress)]
      exact hdetector c hc addr (beq_iff_eq.mp haddress)
  have hspan : e.rawSpan = w.rawSpan := congrArg (fun e : Entity => e.rawSpan) heq
  unfold passes
  rw [hspan, hnone]
  exact Bool.or_true _

/-- An entity is as stage 2 made it when stage 4 gets it. -/
theorem exists_enriched (P : Entity → Prop) (entities : List Entity) :
    (∃ e ∈ entities.map (enrichFields rules soup sourceUrl config.person config.email), P e.toEntity) ↔
      ∃ e ∈ entities, P e := by
  simp only [List.mem_map, exists_exists_and_eq_and, enrichFields_toEntity]

/-- The addresses after stage 4 are those of the candidates and those that are resolved. -/
theorem mem_email_of_candidates (hfound : ∀ c ∈ candidates, c.Found)
    (hdetector : ∀ c ∈ candidates, ∀ a, c.address = some a →
      (buildBracketedEmailRe rules.re config.email.obfuscation).search a = none) (hne : addr ≠ "") :
    some addr ∈ (normaliseSpans rules config.email config.roleLocalParts
        ((bindChannels rules soup config.roleLocalParts config.email.validSuffixes candidates).map
          (enrichFields rules soup sourceUrl config.person config.email))).map (fun e => e.email) ↔
      ∃ c ∈ candidates, c.address = some addr ∨ bracketedAddress rules config.email c = some addr := by
  rw [mem_email_normaliseSpans _ hne,
    exists_enriched fun e => passes rules config.email e.toCandidate = true ∧ e.email = some addr,
    exists_enriched fun e => e.email = some addr,
    exists_enriched fun e => passes rules config.email e.toCandidate = false ∧
      resolvedAddress rules config.email e.rawSpan = some addr]
  constructor
  · rintro (⟨e, he, -, haddr⟩ | ⟨-, e, he, hpasses, hresolved⟩)
    · obtain ⟨w, hmerge, -⟩ := entity_of_email he haddr
      obtain ⟨c, hc, haddress⟩ := exists_merge_iff.mp ⟨w, hmerge⟩
      exact ⟨c, hc, Or.inl haddress⟩
    · rcases bindChannels_cases he with ⟨a, ha⟩ | ⟨c, hc, hpending, rfl⟩
      · rw [passes_of_email hfound hdetector he ha] at hpasses
        cases hpasses
      · refine ⟨c, hc, Or.inr ?_⟩
        unfold bracketedAddress
        rw [hpending, hpasses]
        exact hresolved
  · rintro ⟨c, hc, haddr | haddr⟩
    · obtain ⟨e, he, he'⟩ := @exists_entity rules soup config.roleLocalParts
        config.email.validSuffixes candidates c addr hc haddr hne
      exact Or.inl ⟨e, he, passes_of_email hfound hdetector he he', he'⟩
    · by_cases htaken : ∃ e ∈ bindChannels rules soup config.roleLocalParts
          config.email.validSuffixes candidates, e.email = some addr
      · obtain ⟨e, he, he'⟩ := htaken
        exact Or.inl ⟨e, he, passes_of_email hfound hdetector he he', he'⟩
      · unfold bracketedAddress at haddr
        split at haddr
        · rename_i hbracketed
          obtain ⟨hpending, hpasses⟩ := Bool.and_eq_true_iff.mp hbracketed
          refine Or.inr ⟨htaken, { toCandidate := c }, ?_, Bool.not_eq_true' _ ▸ hpasses, haddr⟩
          rw [bindChannels_eq]
          exact List.mem_append_right _
            (List.mem_map.mpr ⟨c, List.mem_filter.mpr ⟨hc, hpending⟩, rfl⟩)
        · cases haddr

/-- **No address is lost or duplicated**: the leads of a page have different addresses, and these
are the addresses of the candidates and those that the bracketed forms resolve to.  An empty string
is no address. -/
theorem leadsOf_addresses (rules : Rules) (config : ExtractionConfig) (soup : Soup)
    (sourceUrl : String) {candidates : List Candidate} (hfound : ∀ c ∈ candidates, c.Found)
    (hdetector : ∀ c ∈ candidates, ∀ a, c.address = some a →
      (buildBracketedEmailRe rules.re config.email.obfuscation).search a = none) :
    ((leadsOf rules config soup sourceUrl candidates).map fun lead => lead.email).Nodup ∧
      ∀ email, email ∈ (leadsOf rules config soup sourceUrl candidates).map (fun lead => lead.email) ↔
        ∃ addr, email = some addr ∧ addr ≠ "" ∧ ∃ c ∈ candidates,
          c.address = some addr ∨ bracketedAddress rules config.email c = some addr := by
  have hemails : (leadsOf rules config soup sourceUrl candidates).map (fun lead => lead.email) =
      (firstPerEmail [] ((normaliseSpans rules config.email config.roleLocalParts
        ((bindChannels rules soup config.roleLocalParts config.email.validSuffixes candidates).map
          (enrichFields rules soup sourceUrl config.person config.email))).map
            (EnrichedEntity.score config.highRungs))).map fun e => e.email := by
    unfold leadsOf flattenEmit
    rw [List.map_map]
    rfl
  rw [hemails]
  refine ⟨(firstPerEmail_nodup _ _).1, fun email => ?_⟩
  cases email with
  | none =>
      refine iff_of_false (fun hmem => ?_) fun ⟨_, h, _⟩ => nomatch h
      obtain ⟨e, he, hnone⟩ := List.mem_map.mp hmem
      obtain ⟨addr, hemail⟩ := exists_email_firstPerEmail _ _ e he
      rw [hnone] at hemail
      cases hemail
  | some addr =>
      rw [mem_firstPerEmail_iff, List.map_map]
      constructor
      · rintro ⟨hne, -, hmem⟩
        exact ⟨addr, rfl, hne, (mem_email_of_candidates hfound hdetector hne).mp hmem⟩
      · rintro ⟨addr', heq, hne, hc⟩
        obtain rfl := Option.some.inj heq
        exact ⟨hne, List.not_mem_nil, (mem_email_of_candidates hfound hdetector hne).mpr hc⟩

end Page

/-! A link and a bracketed form. -/

/-- What the patterns find in `web[at]nic[dot]in`, and what they make of it. -/
def markerPattern (pattern : String) : Pattern :=
  { linkPattern with
    search := fun text =>
      if pattern = ({} : EmailConfig).regex then
        if text = "web@nic.in" then some ⟨0, 10, ["web@nic.in"]⟩ else none
      else if text = "web[at]nic[dot]in" then some ⟨0, 17, ["web[at]nic[dot]in"]⟩ else none
    sub := fun replacement text =>
      if replacement = "@" && text = "web[at]nic[dot]in" then "web@nic[dot]in"
      else if replacement = "." && text = "web@nic[dot]in" then "web@nic.in"
      else text }

def markerRules : Rules := { linkRules with re := ⟨markerPattern, markerPattern, id⟩ }

def markerConfig : ExtractionConfig where
  email := { obfuscation := [("\\[at\\]", "@"), ("\\[dot\\]", ".")] }

def markerCandidates : List Candidate :=
  [⟨some "a@nic.in", .mailtoTel, some 1, "a@nic.in", none, none, none⟩,
    ⟨none, .proximityText ⟨9, 26, "Email us web[at]nic[dot]in"⟩ true, none, "web[at]nic[dot]in", none,
      none, none⟩]

theorem marker_addresses :
    let emails := (leadsOf markerRules markerConfig (linkPage []) "https://nic.in"
      markerCandidates).map fun lead => lead.email
    emails.Nodup ∧ some "a@nic.in" ∈ emails ∧ some "web@nic.in" ∈ emails := by
  have hfound : ∀ c ∈ markerCandidates, c.Found := by
    intro c hc
    rcases List.mem_cons.mp hc with rfl | hc
    · exact (@foundOn_of_address .mailtoTel rfl "a@nic.in" (some 1)).1
    · obtain rfl := List.mem_singleton.mp hc
      exact ⟨⟨rfl, rfl⟩, (fun _ h => nomatch h), (fun h => nomatch h), fun _ => ⟨rfl, rfl⟩⟩
  have hdetector : ∀ c ∈ markerCandidates, ∀ a, c.address = some a →
      (buildBracketedEmailRe markerRules.re markerConfig.email.obfuscation).search a = none := by
    intro c hc a ha
    rcases List.mem_cons.mp hc with rfl | hc
    · obtain rfl := Option.some.inj ha
      decide +kernel
    · obtain rfl := List.mem_singleton.mp hc
      cases ha
  obtain ⟨hnodup, hemails⟩ :=
    leadsOf_addresses markerRules markerConfig (linkPage []) "https://nic.in" hfound hdetector
  refine ⟨hnodup, (hemails _).mpr ⟨_, rfl, by decide, _, List.mem_cons_self, Or.inl rfl⟩,
    (hemails _).mpr ⟨_, rfl, by decide, _, List.mem_cons_of_mem _ List.mem_cons_self, Or.inr ?_⟩⟩
  decide +kernel

end Parser

end GovCrawler
