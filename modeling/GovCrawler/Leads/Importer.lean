/-
The live import of the catalog, `cloud/services/importer.py`.

`import_all` asks the directory for its categories and then for the entries of each, page after
page.  A category whose pages fail is skipped with a line in the log.  What came in is then put in
the place of the whole catalog, and with it go the rows of the categories that were skipped, were
filtered out, or were not on the list.

The directory is a parameter: what it answers, at each place of the list and to each request, or
that the call raises.  A fetch may go on for ever if the totals it is told keep growing; it is
given so many pages, and an import that has not ended has not touched the catalog yet.  The counts
of `import_status`, and the log, are left out.
-/
import GovCrawler.Leads.CatalogReplace
import GovCrawler.Lib.UrlSplit

namespace GovCrawler

namespace Importer

open Relational OrderedDict UrlSplit LastWins

/-! ### The directory -/

/-- What `get_categories` lists: `none` for a member that is not there, `some none` for null. -/
structure CategoryItem where
  category : Option String
  title : Option (Option String) := none
  deriving DecidableEq, Repr

structure OrgTypeItem where
  organizationType : Option String
  title : Option (Option String) := none
  deriving DecidableEq, Repr

/-- An entry, with `none` also for null. -/
structure RawEntry where
  url : Option String := none
  url1 : Option String := none
  title : Option String := none
  stateName : Option String := none
  organizationType : Option String := none
  npiSanitizedId : Option String := none
  deriving DecidableEq, Repr

/-- A page of entries; `total` is zero if it is not there, and `none` if it is no number. -/
structure Page where
  results : List RawEntry
  total : Option Int
  deriving DecidableEq, Repr

structure EntriesRequest where
  category : String
  organizationType : Option String
  pageno : Nat
  deriving DecidableEq, Repr

/-- What the calls of a run return, `none` if they raise.  The calls for a category are told apart
by its place in the list.  `commits` says whether the database takes the new catalog. -/
structure Directory where
  categories : Option (List CategoryItem)
  organizationTypes : Nat → String → Option (List OrgTypeItem)
  entries : Nat → EntriesRequest → Option Page
  commits : Bool := true

/-- The `scraper` part of the configuration. -/
structure ScraperConfig where
  categoryFilter : String := ""
  orgTypeFilter : String := ""
  deriving DecidableEq, Repr

/-- Why there is no result: an exception, or the pages have not come to an end. -/
inductive Halt
  | raised
  | running
  deriving DecidableEq, Repr

/-! ### One category -/

/-- The loop of `get_entries_for_category`, for so many pages. -/
def fetchPages (answer : Nat → Option Page) : Nat → Nat → List RawEntry →
    Except Halt (List RawEntry)
  | 0, _, _ => .error .running
  | fuel + 1, page, allEntries =>
      match answer page with
      | none => .error .raised
      | some payload =>
          let allEntries := allEntries ++ payload.results
          if payload.results.isEmpty then .ok allEntries
          else
            match payload.total with
            | none => .error .raised
            | some total =>
                if total ≤ allEntries.length then .ok allEntries
                else fetchPages answer fuel (page + 1) allEntries

/-- `get_entries_for_category`. -/
def getEntriesForCategory (dir : Directory) (cfg : ScraperConfig) (fuel place : Nat)
    (code : String) : Except Halt (List RawEntry) :=
  fetchPages (fun page => dir.entries place
    ⟨code, if cfg.orgTypeFilter = "" then none else some cfg.orgTypeFilter, page⟩) fuel 1 []

def TARGET_SUFFIXES : List String := [".gov.in", ".nic.in"]

section Entries

variable (accepts : String → Bool)

/-- `_is_target`; `none` if `urlparse` raises. -/
def isTarget (url : String) : Option Bool :=
  if url = "" ∨ ¬ "http".toList.isPrefixOf url.toList then some false
  else (urlsplit accepts url).map fun p => TARGET_SUFFIXES.any fun s => endsWith s p.netloc

/-- `_root_url`. -/
def rootUrl (url : String) : Option String :=
  (urlsplit accepts url).map fun p => p.scheme ++ "://" ++ p.netloc

/-- The main and the contact URL that an entry gets. -/
def entryUrls (rawMain rawContact : String) : Option (Option String × Option String) :=
  match isTarget accepts rawMain with
  | none => none
  | some true =>
      match rootUrl accepts rawMain, isTarget accepts rawContact with
      | some mainUrl, some contact => some (some mainUrl, if contact then some rawContact else none)
      | _, _ => none
  | some false =>
      match isTarget accepts rawContact with
      | none => none
      | some true => (rootUrl accepts rawContact).map fun mainUrl => (some mainUrl, none)
      | some false => some (none, none)

/-- The titles of the kinds of organisation, by code; none if they could not be fetched. -/
def orgMap (answer : Option (List OrgTypeItem)) : Dict String (Option String) :=
  match answer with
  | none => Dict.empty
  | some orgTypes =>
      let named := orgTypes.filter fun ot => truthy ot.organizationType
      if named.all fun ot => ot.title.isSome then
        named.foldl (fun d ot => d.insert (ot.organizationType.getD "") (ot.title.getD none) false)
          Dict.empty
      else Dict.empty

/-- The body of the loop over the entries of a category. -/
def importEntry (code : String) (title : Option String) (orgMap : Dict String (Option String))
    (entry : RawEntry) : Except Halt DomainFields :=
  let orgCode := if truthy entry.organizationType then entry.organizationType.getD "" else "UNKNOWN"
  match entryUrls accepts (entry.url.getD "") (entry.url1.getD "") with
  | none => .error .raised
  | some (mainUrl, contactUrl) => .ok {
      externalId := if truthy entry.npiSanitizedId then entry.npiSanitizedId else none
      categoryCode := code
      categoryTitle := title
      state := some (if truthy entry.stateName then entry.stateName.getD "" else "National / Unknown")
      orgType := some orgCode
      orgTypeTitle := (orgMap.items.lookup orgCode).getD (some orgCode)
      title := some (entry.title.getD "")
      mainUrl := mainUrl
      contactUrl := contactUrl }

/-- Whether the filter lets a category through. -/
def ScraperConfig.wants (cfg : ScraperConfig) (code : String) : Bool :=
  cfg.categoryFilter == "" || code == cfg.categoryFilter

/-- The body of the loop over the categories: the entries that it adds. -/
def importCategory (cfg : ScraperConfig) (dir : Directory) (fuel : Nat) (cat : CategoryItem × Nat) :
    Except Halt (List DomainFields) :=
  match cat.1.category with
  | none => .error .raised
  | some code =>
      if !cfg.wants code then .ok []
      else
        match getEntriesForCategory dir cfg fuel cat.2 code with
        | .error .raised => .ok []
        | .error .running => .error .running
        | .ok entries => entries.mapM (importEntry accepts code (cat.1.title.getD (some code))
            (orgMap (dir.organizationTypes cat.2 code)))

/-- `import_all`: the new catalog. -/
def importAll (cfg : ScraperConfig) (dir : Directory) (fuel : Nat)
    (domains : Table CatalogDomain) : Except Halt (Table CatalogDomain) :=
  match dir.categories with
  | none => .error .raised
  | some categories =>
      match categories.zipIdx.mapM (importCategory accepts cfg dir fuel) with
      | .error halt => .error halt
      | .ok entriesOut =>
          if dir.commits then .ok (replaceCatalog domains entriesOut.flatten) else .error .raised

/-- The catalog after that; what raises is caught, and leaves it as it was. -/
def catalogAfter (cfg : ScraperConfig) (dir : Directory) (fuel : Nat)
    (domains : Table CatalogDomain) : Table CatalogDomain :=
  match importAll accepts cfg dir fuel domains with
  | .ok after => after
  | .error _ => domains

end Entries

/-! ### What a run has fetched -/

section Loops

variable {α β ε : Type*} {f : α → Except ε β}

/-- What a loop has made, it has made of something. -/
theorem exists_of_mem_mapM {l : List α} {ys : List β} (h : l.mapM f = .ok ys) :
    ∀ y ∈ ys, ∃ x ∈ l, f x = .ok y := by
  induction l generalizing ys with
  | nil =>
      obtain rfl : [] = ys := Except.ok.inj h
      exact fun y hy => nomatch hy
  | cons x l ih =>
      rw [List.mapM_cons] at h
      cases hx : f x with
      | error e =>
          rw [hx] at h
          cases h
      | ok y =>
          cases hl : l.mapM f with
          | error e =>
              rw [hx, hl] at h
              cases h
          | ok rest =>
              rw [hx, hl] at h
              obtain rfl : y :: rest = ys := Except.ok.inj h
              intro y' hy'
              rcases List.mem_cons.mp hy' with rfl | hy'
              · exact ⟨x, List.mem_cons_self, hx⟩
              · obtain ⟨x', hx', hf⟩ := ih hl y' hy'
                exact ⟨x', List.mem_cons_of_mem _ hx', hf⟩

/-- A loop comes to its end if its body does every time. -/
theorem mapM_ends_iff {l : List α} :
    (∃ ys, l.mapM f = .ok ys) ↔ ∀ x ∈ l, ∃ y, f x = .ok y := by
  induction l with
  | nil => exact ⟨(fun _ x hx => nomatch hx), fun _ => ⟨[], rfl⟩⟩
  | cons x l ih =>
      rw [List.mapM_cons, List.forall_mem_cons, ← ih]
      cases hx : f x with
      | error e => exact ⟨(fun ⟨ys, h⟩ => nomatch h), fun ⟨⟨y, h⟩, _⟩ => nomatch h⟩
      | ok y =>
          cases hl : l.mapM f with
          | error e => exact ⟨(fun ⟨ys, h⟩ => nomatch h), fun ⟨_, ys, h⟩ => nomatch h⟩
          | ok ys => exact ⟨fun _ => ⟨⟨y, rfl⟩, ys, rfl⟩, fun _ => ⟨y :: ys, rfl⟩⟩

end Loops

/-- A fetch ends if the totals do not grow for ever. -/
theorem fetchPages_ends {answer : Nat → Option Page} {bound : Nat}
    (hbound : ∀ page payload total, answer page = some payload → payload.total = some total →
      total ≤ bound) (fuel page : Nat) (allEntries : List RawEntry)
    (hfuel : bound < fuel + allEntries.length) (hpos : 0 < fuel) :
    fetchPages answer fuel page allEntries ≠ .error .running := by
  induction fuel generalizing page allEntries with
  | zero => exact absurd hpos (Nat.lt_irrefl 0)
  | succ fuel ih =>
      unfold fetchPages
      cases hanswer : answer page with
      | none => exact fun h => nomatch h
      | some payload =>
          dsimp only
          cases hresults : payload.results with
          | nil => exact fun h => nomatch h
          | cons entry results =>
              rw [if_neg (by simp)]
              cases htotal : payload.total with
              | none => exact fun h => nomatch h
              | some total =>
                  dsimp only
                  split
                  · exact fun h => nomatch h
                  · rename_i hmore
                    have hle := hbound page payload total hanswer htotal
                    rw [List.length_append, List.length_cons] at hmore
                    refine ih (page + 1) _ ?_ ?_
                    · rw [List.length_append, List.length_cons]
                      omega
                    · omega

/-- The pages of the category came in, and no call for them raised. -/
def Fetched (cfg : ScraperConfig) (dir : Directory) (fuel : Nat) (code : String) : Prop :=
  ∃ categories, dir.categories = some categories ∧ ∃ cat ∈ categories.zipIdx,
    cat.1.category = some code ∧ cfg.wants code = true ∧
      ∃ entries, getEntriesForCategory dir cfg fuel cat.2 code = .ok entries

section Runs

variable (accepts : String → Bool) (cfg : ScraperConfig) (dir : Directory) (fuel : Nat)

/-- The URLs of an entry can be parsed. -/
def Parses (entry : RawEntry) : Prop :=
  (isTarget accepts (entry.url.getD "")).isSome ∧ (isTarget accepts (entry.url1.getD "")).isSome

/-- The import goes on after a category: it has a code, and if it is fetched, then the fetch ends,
and the entries can be parsed. -/
def GoesOn (cat : CategoryItem × Nat) : Prop :=
  ∃ code, cat.1.category = some code ∧ (cfg.wants code = true →
    getEntriesForCategory dir cfg fuel cat.2 code ≠ .error .running ∧
      ∀ entries, getEntriesForCategory dir cfg fuel cat.2 code = .ok entries →
        ∀ entry ∈ entries, Parses accepts entry)

/-- The import comes to replace the catalog. -/
structure Replaces : Prop where
  listed : ∃ categories, dir.categories = some categories ∧
    ∀ cat ∈ categories.zipIdx, GoesOn accepts cfg dir fuel cat
  commits : dir.commits = true

variable {accepts cfg dir fuel}

theorem isSome_entryUrls_iff {rawMain rawContact : String} :
    (entryUrls accepts rawMain rawContact).isSome ↔
      (isTarget accepts rawMain).isSome ∧ (isTarget accepts rawContact).isSome := by
  have hroot : ∀ url, isTarget accepts url = some true → ∃ root, rootUrl accepts url = some root := by
    intro url htarget
    unfold isTarget at htarget
    split at htarget
    · cases htarget
    · obtain ⟨p, hp, -⟩ := Option.map_eq_some_iff.mp htarget
      unfold rootUrl
      rw [hp]
      exact ⟨_, rfl⟩
  unfold entryUrls
  cases hmain : isTarget accepts rawMain with
  | none => simp
  | some main =>
      cases main with
      | true =>
          obtain ⟨root, hr⟩ := hroot rawMain hmain
          rw [hr]
          cases isTarget accepts rawContact <;> simp
      | false =>
          cases hcontact : isTarget accepts rawContact with
          | none => simp
          | some contact =>
              cases contact with
              | true =>
                  obtain ⟨root, hr⟩ := hroot rawContact hcontact
                  simp [hr]
              | false => simp

theorem importEntry_ends_iff {code : String} {title : Option String}
    {orgMap : Dict String (Option String)} {entry : RawEntry} :
    (∃ e, importEntry accepts code title orgMap entry = .ok e) ↔ Parses accepts entry := by
  unfold Parses
  rw [← isSome_entryUrls_iff]
  unfold importEntry
  cases entryUrls accepts (entry.url.getD "") (entry.url1.getD "") with
  | none => exact ⟨(fun ⟨_, h⟩ => nomatch h), fun h => nomatch h⟩
  | some urls => exact ⟨fun _ => rfl, fun _ => ⟨_, rfl⟩⟩

/-- An entry gets the code of the category that it was fetched for. -/
theorem categoryCode_importEntry {code : String} {title : Option String}
    {orgMap : Dict String (Option String)} {entry : RawEntry} {e : DomainFields}
    (h : importEntry accepts code title orgMap entry = .ok e) : e.categoryCode = code := by
  unfold importEntry at h
  cases hurls : entryUrls accepts (entry.url.getD "") (entry.url1.getD "") with
  | none =>
      rw [hurls] at h
      cases h
  | some urls =>
      rw [hurls] at h
      rw [← Except.ok.inj h]

theorem importCategory_ends_iff {cat : CategoryItem × Nat} :
    (∃ es, importCategory accepts cfg dir fuel cat = .ok es) ↔ GoesOn accepts cfg dir fuel cat := by
  unfold importCategory GoesOn
  cases hcode : cat.1.category with
  | none => exact ⟨fun ⟨_, h⟩ => (nomatch h), fun ⟨_, h, _⟩ => nomatch h⟩
  | some code =>
      simp only [Option.some.injEq, exists_eq_left']
      cases hwants : cfg.wants code with
      | false => simp
      | true =>
          cases hfetch : getEntriesForCategory dir cfg fuel cat.2 code with
          | error halt =>
              cases halt with
              | raised => simp
              | running => simp
          | ok entries =>
              simp only [Bool.not_true, Bool.false_eq_true, if_false, mapM_ends_iff,
                importEntry_ends_iff]
              simp

/-- What a category adds are entries of it, and only if it was fetched. -/
theorem of_mem_importCategory {cat : CategoryItem × Nat} {es : List DomainFields}
    (h : importCategory accepts cfg dir fuel cat = .ok es) {e : DomainFields} (he : e ∈ es) :
    cat.1.category = some e.categoryCode ∧ cfg.wants e.categoryCode = true ∧
      ∃ entries, getEntriesForCategory dir cfg fuel cat.2 e.categoryCode = .ok entries := by
  unfold importCategory at h
  cases hcode : cat.1.category with
  | none =>
      rw [hcode] at h
      cases h
  | some code =>
      rw [hcode] at h
      dsimp only at h
      cases hwants : cfg.wants code with
      | false =>
          rw [hwants, Bool.not_false, if_pos rfl] at h
          obtain rfl : [] = es := Except.ok.inj h
          cases he
      | true =>
          rw [hwants, Bool.not_true, if_neg Bool.false_ne_true] at h
          cases hfetch : getEntriesForCategory dir cfg fuel cat.2 code with
          | error halt =>
              rw [hfetch] at h
              cases halt with
              | raised =>
                  obtain rfl : [] = es := Except.ok.inj h
                  cases he
              | running => cases h
          | ok entries =>
              rw [hfetch] at h
              obtain ⟨entry, -, hentry⟩ := exists_of_mem_mapM h e he
              obtain rfl := categoryCode_importEntry hentry
              exact ⟨rfl, hwants, entries, hfetch⟩

/-- Either the catalog stays, or entries of fetched categories take its place. -/
theorem catalogAfter_cases (domains : Table CatalogDomain) :
    (¬ Replaces accepts cfg dir fuel ∧ catalogAfter accepts cfg dir fuel domains = domains) ∨
      (Replaces accepts cfg dir fuel ∧ ∃ entries,
        catalogAfter accepts cfg dir fuel domains = replaceCatalog domains entries ∧
          ∀ e ∈ entries, Fetched cfg dir fuel e.categoryCode) := by
  unfold catalogAfter importAll
  cases hcategories : dir.categories with
  | none =>
      refine Or.inl ⟨fun h => ?_, rfl⟩
      obtain ⟨categories, h, -⟩ := h.listed
      exact nomatch hcategories.symm.trans h
  | some categories =>
      dsimp only
      have hends := mapM_ends_iff (f := importCategory accepts cfg dir fuel)
        (l := categories.zipIdx)
      simp only [importCategory_ends_iff] at hends
      cases hmap : categories.zipIdx.mapM (importCategory accepts cfg dir fuel) with
      | error halt =>
          refine Or.inl ⟨fun h => ?_, rfl⟩
          obtain ⟨categories', h, hall⟩ := h.listed
          obtain rfl := Option.some.inj (hcategories.symm.trans h)
          obtain ⟨ys, hys⟩ := hends.mpr hall
          exact nomatch hmap.symm.trans hys
      | ok entriesOut =>
          dsimp only
          cases hcommits : dir.commits with
          | false => exact Or.inl ⟨fun h => Bool.false_ne_true (hcommits.symm.trans h.commits), rfl⟩
          | true =>
              have hall := hends.mp ⟨entriesOut, hmap⟩
              refine Or.inr ⟨⟨⟨categories, hcategories, hall⟩, hcommits⟩, _, rfl, fun e he => ?_⟩
              obtain ⟨es, hes, hmem⟩ := List.mem_flatten.mp he
              obtain ⟨cat, hcat, hrun⟩ := exists_of_mem_mapM hmap es hes
              exact ⟨categories, hcategories, cat, hcat, of_mem_importCategory hrun hmem⟩

end Runs

/-- **What a failed fetch leaves**: the rows of the categories that were not fetched are still in
the catalog if the catalog is not replaced at all, or if there are none.  As for the rows
themselves, and not what is in them, the same is so whatever is called a complete fetch. -/
theorem unfetched_kept_iff (accepts : String → Bool) (cfg : ScraperConfig) (dir : Directory)
    (fuel : Nat) (domains : Table CatalogDomain) :
    ((∀ d ∈ domains.rows, ¬ Fetched cfg dir fuel d.fields.categoryCode →
        d.fields ∈ contents (catalogAfter accepts cfg dir fuel domains)) ↔
      (¬ Replaces accepts cfg dir fuel ∨
        ∀ d ∈ domains.rows, Fetched cfg dir fuel d.fields.categoryCode)) ∧
    ∀ Complete : String → Prop,
      ((∀ d ∈ domains.rows, ¬ Complete d.fields.categoryCode →
          d ∈ (catalogAfter accepts cfg dir fuel domains).rows) ↔
        (¬ Replaces accepts cfg dir fuel ∨
          ∀ d ∈ domains.rows, Complete d.fields.categoryCode)) := by
  rcases catalogAfter_cases domains with ⟨hnot, hafter⟩ | ⟨hreplaces, entries, hafter, hfetched⟩
  · rw [hafter]
    refine ⟨⟨fun _ => Or.inl hnot, fun _ d hd _ => List.mem_map_of_mem hd⟩, fun Complete => ?_⟩
    exact ⟨fun _ => Or.inl hnot, fun _ d hd _ => hd⟩
  · rw [hafter]
    refine ⟨⟨fun hkept => Or.inr fun d hd => ?_, ?_⟩, fun Complete =>
      ⟨fun hkept => Or.inr fun d hd => ?_, ?_⟩⟩
    · by_contra hunfetched
      have hmem := (settled_replaceCatalog domains entries).subset (hkept d hd hunfetched)
      exact hunfetched (hfetched d.fields hmem)
    · rintro (hnot | hall) d hd hunfetched
      · exact absurd hreplaces hnot
      · exact absurd (hall d hd) hunfetched
    · by_contra hincomplete
      exact not_mem_replaceCatalog hd (hkept d hd hincomplete)
    · rintro (hnot | hall) d hd hincomplete
      · exact absurd hreplaces hnot
      · exact absurd (hall d hd) hincomplete

/-! Two categories, of which the directory does not give the first one's page. -/

def haryana : DomainFields :=
  { externalId := some "npi-1", categoryCode := "sg", title := some "Haryana" }

def healthMinistry : DomainFields :=
  { externalId := some "npi-2", categoryCode := "ug", title := some "Ministry of Health" }

def bothCategories : Table CatalogDomain :=
  upsertDomain insertionOrder (upsertDomain insertionOrder Table.empty haryana) healthMinistry

def firstFails : Directory where
  categories := some [⟨some "sg", none⟩, ⟨some "ug", none⟩]
  organizationTypes := fun _ _ => some []
  entries := fun place _ =>
    if place = 0 then none
    else some ⟨[{ title := some "Ministry of Health", npiSanitizedId := some "npi-2" }], some 1⟩

/-- The import comes to its end, and Haryana is gone. -/
theorem failed_page_erases :
    (importAll (fun _ => true) {} firstFails 1 bothCategories).isOk = true ∧
      (contents (catalogAfter (fun _ => true) {} firstFails 1 bothCategories)).map
        DomainFields.externalId = [some "npi-2"] ∧
      ¬ ∀ d ∈ bothCategories.rows, ¬ Fetched {} firstFails 1 d.fields.categoryCode →
        d.fields ∈ contents (catalogAfter (fun _ => true) {} firstFails 1 bothCategories) := by
  have hafter : (contents (catalogAfter (fun _ => true) {} firstFails 1 bothCategories)).map
      DomainFields.externalId = [some "npi-2"] := by decide +kernel
  have hunfetched : ¬ Fetched {} firstFails 1 haryana.categoryCode := by
    rintro ⟨categories, hcategories, cat, hcat, hcode, -, entries, hentries⟩
    obtain rfl := Option.some.inj hcategories
    rcases List.mem_cons.mp hcat with rfl | hcat
    · cases hentries
    · obtain rfl := List.mem_singleton.mp hcat
      exact absurd hcode (by decide)
  have hrow : (⟨1, haryana⟩ : CatalogDomain) ∈ bothCategories.rows := by decide +kernel
  refine ⟨by decide +kernel, hafter, fun hkept => ?_⟩
  have hmem := List.mem_map_of_mem (f := DomainFields.externalId) (hkept _ hrow hunfetched)
  rw [hafter] at hmem
  exact absurd hmem (by decide)

end Importer

end GovCrawler
