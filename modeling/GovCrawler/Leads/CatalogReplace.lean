/-
Replacing the catalog at once, against clearing it and writing it row by row.

`replace_catalog` gives each entry one key, its external id or else its URL.  `upsert_domain`
looks an entry without an external id up by its URL, and may find the row of an entry that has
one.  It then takes the row over, and the external id is gone from the catalog; the bulk load
keeps both entries.

The two agree again if the external id comes back later, as a row of its own, and if there was no
row yet for the URL alone, for otherwise there are two of them from then on.  `Heals` says this of
every entry that takes a row over, and `replaceCatalog_perm_iff` that nothing else sets the two
apart.
-/
import GovCrawler.Leads.Catalog
import GovCrawler.Lib.LastWins
import GovCrawler.Lib.Numbering

namespace GovCrawler

open Relational OrderedDict LastWins

/-! ### Keys -/

/-- What two entries for the same row share. -/
inductive CatalogKey
  | ext (externalId : String)
  | url (mainUrl : String)
  deriving DecidableEq, Repr

def catalogKey (e : DomainFields) : Option CatalogKey :=
  if truthy e.externalId then e.externalId.map .ext
  else if truthy e.mainUrl then e.mainUrl.map .url
  else none

/-- How `replace_catalog` writes the key of the entry at a place. -/
def keyName (i : Nat) : Option CatalogKey → String
  | some (.ext x) => "ext:" ++ x
  | some (.url u) => "url:" ++ u
  | none => "row:" ++ toString i

theorem CatalogKey.url_ne_ext (u x : String) : CatalogKey.url u ≠ .ext x := CatalogKey.noConfusion

section Keys

variable {e : DomainFields} {x u : String}

theorem catalogKey_eq_ext_iff :
    catalogKey e = some (.ext x) ↔ e.externalId = some x ∧ truthy e.externalId = true := by
  unfold catalogKey
  cases hext : truthy e.externalId with
  | true => simp
  | false =>
      cases hurl : truthy e.mainUrl <;> simp

theorem catalogKey_eq_url_iff :
    catalogKey e = some (.url u) ↔
      truthy e.externalId = false ∧ e.mainUrl = some u ∧ truthy e.mainUrl = true := by
  unfold catalogKey
  cases hext : truthy e.externalId with
  | true => simp
  | false =>
      cases hurl : truthy e.mainUrl <;> simp

theorem catalogKey_isSome_iff :
    (catalogKey e).isSome ↔ truthy e.externalId = true ∨ truthy e.mainUrl = true := by
  unfold catalogKey
  cases hext : truthy e.externalId with
  | true =>
      obtain ⟨x, hx, -⟩ := truthy_iff.mp hext
      simp [hx]
  | false =>
      cases hurl : truthy e.mainUrl with
      | true =>
          obtain ⟨u, hu, -⟩ := truthy_iff.mp hurl
          simp [hu]
      | false => simp

theorem entryKey_eq (i : Nat) (e : DomainFields) : entryKey i e = keyName i (catalogKey e) := by
  unfold entryKey catalogKey
  cases hext : truthy e.externalId with
  | true =>
      obtain ⟨x, hx, -⟩ := truthy_iff.mp hext
      simp [hx, keyName]
  | false =>
      cases hurl : truthy e.mainUrl with
      | true =>
          obtain ⟨u, hu, -⟩ := truthy_iff.mp hurl
          simp [hu, keyName]
      | false => simp [keyName]

/-- The prefixes keep the kinds of keys apart. -/
theorem ne_of_first {p q : Char} {s t : String} {a b : String} (hp : a.toList.head? = some p)
    (hq : b.toList.head? = some q) (hne : p ≠ q) : a ++ s ≠ b ++ t := by
  intro h
  have hlists := congrArg (fun s : String => s.toList.head?) h
  rw [String.toList_append, String.toList_append, List.head?_append, List.head?_append, hp, hq]
    at hlists
  exact hne (Option.some.inj hlists)

theorem keyName_inj {i j : Nat} {k k' : Option CatalogKey} :
    keyName i k = keyName j k' ↔ k = k' ∧ (k = none → i = j) := by
  have hxu : ∀ s t : String, "ext:" ++ s ≠ "url:" ++ t := fun _ _ => ne_of_first rfl rfl (by decide)
  have hxr : ∀ s t : String, "ext:" ++ s ≠ "row:" ++ t := fun _ _ => ne_of_first rfl rfl (by decide)
  have hur : ∀ s t : String, "url:" ++ s ≠ "row:" ++ t := fun _ _ => ne_of_first rfl rfl (by decide)
  cases k with
  | none =>
      cases k' with
      | none =>
          show "row:" ++ toString i = "row:" ++ toString j ↔ _
          rw [String.append_right_inj, Numbering.toString_injective.eq_iff]
          simp
      | some k' =>
          cases k' with
          | ext x => simp [keyName, (hxr _ _).symm]
          | url u => simp [keyName, (hur _ _).symm]
  | some k =>
      cases k' with
      | none =>
          cases k with
          | ext x => simp [keyName, hxr]
          | url u => simp [keyName, hur]
      | some k' =>
          cases k with
          | ext x =>
              cases k' with
              | ext y => simp [keyName, String.append_right_inj]
              | url v => simp [keyName, hxu]
          | url u =>
              cases k' with
              | ext y => simp [keyName, (hxu _ _).symm]
              | url v => simp [keyName, String.append_right_inj]

theorem names_entryKey : Names catalogKey entryKey := by
  intro i e i' e'
  rw [entryKey_eq, entryKey_eq, keyName_inj]

end Keys

/-! ### The two loads -/

/-- The rows, but for their ids. -/
def contents (domains : Table CatalogDomain) : List DomainFields :=
  domains.rows.map CatalogDomain.fields

/-- `clear_domains`. -/
def clearDomains (domains : Table CatalogDomain) : Table CatalogDomain :=
  domains.deleteWhere fun _ => true

/-- `clear_domains`, and `upsert_domain` of each entry. -/
def rowByRow (order : DomainOrder) (domains : Table CatalogDomain) (entries : List DomainFields) :
    Table CatalogDomain :=
  entries.foldl (upsertDomain order) (clearDomains domains)

@[simp] theorem contents_clearDomains (domains : Table CatalogDomain) :
    contents (clearDomains domains) = [] := by
  simp [contents, clearDomains, Table.deleteWhere]

theorem rowByRow_snoc (order : DomainOrder) (domains : Table CatalogDomain)
    (entries : List DomainFields) (e : DomainFields) :
    rowByRow order domains (entries ++ [e]) =
      upsertDomain order (rowByRow order domains entries) e := by
  unfold rowByRow
  rw [List.foldl_append]
  rfl

theorem contents_replaceCatalog (domains : Table CatalogDomain) (entries : List DomainFields) :
    contents (replaceCatalog domains entries) = dedupedEntries entries := by
  have hinserts : ∀ (es : List DomainFields) (t : Table CatalogDomain),
      contents (es.foldl (fun t e => t.insertNew fun id => ⟨id, e⟩) t) = contents t ++ es := by
    intro es
    induction es with
    | nil => exact fun t => (List.append_nil _).symm
    | cons e es ih =>
        intro t
        rw [List.foldl_cons, ih]
        simp [contents, Table.insertNew]
  unfold replaceCatalog
  rw [hinserts]
  exact congrArg (· ++ dedupedEntries entries) (contents_clearDomains domains)

/-- The bulk load settles the entries. -/
theorem settled_replaceCatalog (domains : Table CatalogDomain) (entries : List DomainFields) :
    Settled catalogKey entries (contents (replaceCatalog domains entries)) := by
  rw [contents_replaceCatalog]
  exact settled_enter names_entryKey entries

/-- None of the rows is one that was there before. -/
theorem not_mem_replaceCatalog {domains : Table CatalogDomain} {entries : List DomainFields}
    {d : CatalogDomain} (hd : d ∈ domains.rows) : d ∉ (replaceCatalog domains entries).rows := by
  have hlt := domains.bounded d hd
  intro hmem
  have hget := Table.get?_of_mem hmem
  unfold replaceCatalog at hget
  rw [Table.get?_foldl_insertNew (fun e id => (⟨id, e⟩ : CatalogDomain)) (fun _ _ => rfl),
    Table.nextKey_deleteWhere, if_neg (Nat.not_le_of_lt hlt), Table.get?_deleteWhere,
    Table.get?_of_mem hd] at hget
  cases hget

/-! ### One row -/

/-- What `upsert_domain` finds, and what becomes of the rows. -/
theorem upsertDomain_cases (order : DomainOrder) (domains : Table CatalogDomain)
    (e : DomainFields) :
    (existingDomain order domains e = none ∧
      (∀ k, catalogKey e = some k → rowsOf catalogKey k (contents domains) = 0) ∧
      contents (upsertDomain order domains e) = contents domains ++ [e]) ∨
    ∃ d before after, existingDomain order domains e = some d ∧
      contents domains = before ++ d.fields :: after ∧
      contents (upsertDomain order domains e) = before ++ e :: after ∧
      (catalogKey e).isSome ∧ (catalogKey d.fields).isSome ∧
      (catalogKey d.fields ≠ catalogKey e →
        ∃ x u, catalogKey d.fields = some (.ext x) ∧ catalogKey e = some (.url u)) := by
  cases hfound : existingDomain order domains e with
  | none =>
      refine Or.inl ⟨rfl, fun k hk => rowsOf_eq_zero_iff.mpr fun r hr hrk => ?_, ?_⟩
      · obtain ⟨d, hd, rfl⟩ := List.mem_map.mp hr
        unfold existingDomain at hfound
        cases k with
        | ext x =>
            obtain ⟨hx, htruthy⟩ := catalogKey_eq_ext_iff.mp hk
            rw [if_pos htruthy, DomainOrder.first?_eq_none_iff] at hfound
            have hne := hfound d hd
            rw [(catalogKey_eq_ext_iff.mp hrk).1, hx] at hne
            simp at hne
        | url u =>
            obtain ⟨hnoext, hu, htruthy⟩ := catalogKey_eq_url_iff.mp hk
            rw [if_neg (by simp [hnoext]), if_pos htruthy, DomainOrder.first?_eq_none_iff] at hfound
            have hne := hfound d hd
            rw [(catalogKey_eq_url_iff.mp hrk).2.1, hu] at hne
            simp at hne
      · unfold upsertDomain
        rw [hfound]
        simp [contents, Table.insertNew]
  | some d =>
      have hd : d ∈ domains.rows ∧ (catalogKey e).isSome ∧ (catalogKey d.fields).isSome ∧
          (catalogKey d.fields ≠ catalogKey e →
            ∃ x u, catalogKey d.fields = some (.ext x) ∧ catalogKey e = some (.url u)) := by
        unfold existingDomain at hfound
        split at hfound
        · rename_i hext
          have hx := DomainOrder.first?_spec hfound
          obtain ⟨x, hxe, -⟩ := truthy_iff.mp hext
          have heq : d.fields.externalId = e.externalId := beq_iff_eq.mp hx.2
          have hke := catalogKey_eq_ext_iff.mpr ⟨hxe, hext⟩
          have hkd := catalogKey_eq_ext_iff.mpr ⟨heq.trans hxe, heq ▸ hext⟩
          exact ⟨hx.1, by rw [hke]; rfl, by rw [hkd]; rfl,
            fun hne => absurd (hkd.trans hke.symm) hne⟩
        split at hfound
        · rename_i hnoext hurl
          have hu := DomainOrder.first?_spec hfound
          obtain ⟨u, hue, -⟩ := truthy_iff.mp hurl
          have heq : d.fields.mainUrl = e.mainUrl := beq_iff_eq.mp hu.2
          have hke := catalogKey_eq_url_iff.mpr ⟨Bool.not_eq_true _ ▸ hnoext, hue, hurl⟩
          refine ⟨hu.1, by rw [hke]; rfl, ?_, fun hne => ?_⟩
          · exact catalogKey_isSome_iff.mpr (Or.inr (heq ▸ hurl))
          · cases hext : truthy d.fields.externalId with
            | true =>
                obtain ⟨x, hx, -⟩ := truthy_iff.mp hext
                exact ⟨x, u, catalogKey_eq_ext_iff.mpr ⟨hx, hext⟩, hke⟩
            | false =>
                have hkd := catalogKey_eq_url_iff.mpr ⟨hext, heq.trans hue, heq ▸ hurl⟩
                exact absurd (hkd.trans hke.symm) hne
        · cases hfound
      obtain ⟨before, after, hrows⟩ := List.append_of_mem hd.1
      refine Or.inr ⟨d, before.map CatalogDomain.fields, after.map CatalogDomain.fields, rfl, ?_, ?_,
        hd.2⟩
      · unfold contents
        rw [hrows, List.map_append, List.map_cons]
      · unfold upsertDomain contents
        rw [hfound]
        have hupdated := domains.rows_updateWhere_key (fun d => { d with fields := e })
          (fun _ => rfl) hrows
        exact (congrArg (List.map CatalogDomain.fields) hupdated).trans (by simp)

/-! ### A run -/

/-- A place in a list that has grown by one: the new one, or one that was there before. -/
theorem exists_split_snoc_iff {α : Type*} {l : List α} {a : α} {P : List α → α → List α → Prop} :
    (∃ before b after, l ++ [a] = before ++ b :: after ∧ P before b after) ↔
      P l a [] ∨ ∃ before b after, l = before ++ b :: after ∧ P before b (after ++ [a]) := by
  constructor
  · rintro ⟨before, b, after, heq, h⟩
    rcases List.eq_nil_or_concat after with rfl | ⟨after, c, rfl⟩
    · obtain ⟨rfl, hb⟩ := List.append_inj' heq rfl
      exact Or.inl ((List.cons.inj hb).1 ▸ h)
    · rw [List.concat_eq_append, ← List.cons_append, ← List.append_assoc] at heq
      obtain ⟨rfl, hc⟩ := List.append_inj' heq rfl
      obtain rfl := (List.cons.inj hc).1
      rw [List.concat_eq_append] at h
      exact Or.inr ⟨before, b, after, rfl, h⟩
  · rintro (h | ⟨before, b, after, rfl, h⟩)
    · exact ⟨l, a, [], rfl, h⟩
    · exact ⟨before, b, after ++ [a], by simp, h⟩

section Runs

variable (order : DomainOrder) (domains : Table CatalogDomain)

/-- The row that `upsert_domain` finds for an entry, after those before it, has another key. -/
def TakesOver (before : List DomainFields) (e : DomainFields) (d : CatalogDomain) : Prop :=
  existingDomain order (rowByRow order domains before) e = some d ∧
    catalogKey d.fields ≠ catalogKey e

/-- An entry that takes a row over is the first of its key, and the key of the row comes again. -/
def Heals (entries : List DomainFields) : Prop :=
  ∀ before e after d, entries = before ++ e :: after → TakesOver order domains before e d →
    (∀ e' ∈ before, catalogKey e' ≠ catalogKey e) ∧ ∃ e' ∈ after, catalogKey e' = catalogKey d.fields

/-- How many rows of a key there are. -/
def rowsAfter (entries : List DomainFields) (k : CatalogKey) : Nat :=
  rowsOf catalogKey k (contents (rowByRow order domains entries))

variable {order} {domains} {es : List DomainFields} {e : DomainFields}

/-- What an entry does to the number of rows of each key. -/
theorem rowsAfter_snoc_cases (order : DomainOrder) (domains : Table CatalogDomain)
    (es : List DomainFields) (e : DomainFields) :
    ((∀ d, ¬ TakesOver order domains es e d) ∧ ∀ k, rowsAfter order domains (es ++ [e]) k =
      if catalogKey e = some k then max 1 (rowsAfter order domains es k)
      else rowsAfter order domains es k) ∨
    ∃ d x u, TakesOver order domains es e d ∧ catalogKey d.fields = some (.ext x) ∧
      catalogKey e = some (.url u) ∧ ∀ k, rowsAfter order domains (es ++ [e]) k +
        (if CatalogKey.ext x = k then 1 else 0) =
          rowsAfter order domains es k + if CatalogKey.url u = k then 1 else 0 := by
  unfold rowsAfter
  rw [rowByRow_snoc]
  rcases upsertDomain_cases order (rowByRow order domains es) e with
    ⟨hfound, hnew, hrows⟩ | ⟨d, before, after, hfound, hold, hrows, he, -, hkind⟩
  · refine Or.inl ⟨(fun d hover => nomatch hfound.symm.trans hover.1), fun k => ?_⟩
    rw [hrows, rowsOf_snoc]
    by_cases hk : catalogKey e = some k
    · rw [if_pos hk, if_pos hk, hnew k hk]
      rfl
    · rw [if_neg hk, if_neg hk]
      rfl
  · by_cases hsame : catalogKey d.fields = catalogKey e
    · refine Or.inl ⟨fun d' hover => ?_, fun k => ?_⟩
      · obtain rfl := Option.some.inj (hfound.symm.trans hover.1)
        exact hover.2 hsame
      · rw [hrows, hold, rowsOf_middle, rowsOf_middle, hsame]
        by_cases hk : catalogKey e = some k
        · rw [if_pos hk, if_pos hk]
          exact (Nat.max_eq_right (Nat.le_add_left 1 _)).symm
        · rw [if_neg hk, if_neg hk]
    · obtain ⟨x, u, hd, hu⟩ := hkind hsame
      refine Or.inr ⟨d, x, u, ⟨hfound, hsame⟩, hd, hu, fun k => ?_⟩
      rw [hrows, hold, rowsOf_middle, rowsOf_middle, hd, hu]
      simp only [Option.some.injEq]
      omega

/-- An external id has one row at most. -/
theorem rowsAfter_ext_le (order : DomainOrder) (domains : Table CatalogDomain)
    (es : List DomainFields) (x : String) :
    rowsAfter order domains es (.ext x) ≤ 1 := by
  induction es using List.reverseRecOn with
  | nil => simp [rowsAfter, rowByRow, rowsOf]
  | append_singleton es e ih =>
      rcases rowsAfter_snoc_cases order domains es e with
        ⟨-, hcount⟩ | ⟨d, y, u, -, -, -, hcount⟩
      · rw [hcount]
        split <;> omega
      · have hk := hcount (.ext x)
        rw [if_neg (CatalogKey.url_ne_ext u x)] at hk
        omega

/-- What the rows are, whatever has been taken over. -/
theorem loaded_rowByRow (order : DomainOrder) (domains : Table CatalogDomain)
    (es : List DomainFields) :
    Loaded catalogKey es (contents (rowByRow order domains es)) := by
  induction es using List.reverseRecOn with
  | nil =>
      have hnil : contents (rowByRow order domains []) = [] := contents_clearDomains domains
      rw [hnil]
      exact Settled.loaded ⟨List.Perm.refl _, fun _ => rfl⟩
  | append_singleton es e ih =>
      have hsingle := rowsAfter_ext_le order domains es
      unfold rowsAfter at hsingle
      rw [rowByRow_snoc]
      rcases upsertDomain_cases order (rowByRow order domains es) e with
        ⟨-, -, hrows⟩ | ⟨d, before, after, -, hold, hrows, he, hd, hkind⟩
      · rw [hrows]
        exact ih.append
      · rw [hold] at ih hsingle
        rw [hrows]
        refine ih.replace he hd fun k hk hne => ?_
        obtain ⟨x, u, hx, -⟩ := hkind fun hsame => hne (hsame ▸ hk)
        obtain rfl := Option.some.inj (hx.symm.trans hk)
        have hle := hsingle x
        rw [rowsOf_middle, if_pos hk] at hle ⊢
        omega

/-- There are rows of a key only if there are entries of it. -/
theorem exists_of_rowsAfter (order : DomainOrder) (domains : Table CatalogDomain) {k : CatalogKey}
    (h : rowsAfter order domains es k ≠ 0) :
    ∃ e ∈ es, catalogKey e = some k := by
  rw [← lastOf_isSome_iff, ← Option.ne_none_iff_isSome]
  exact fun hnone => h ((loaded_rowByRow order domains es).entered k hnone)

/-- A URL keeps its row. -/
theorem rowsAfter_url_pos (order : DomainOrder) (domains : Table CatalogDomain) {u : String}
    (h : ∃ e ∈ es, catalogKey e = some (.url u)) :
    0 < rowsAfter order domains es (.url u) := by
  induction es using List.reverseRecOn with
  | nil => exact absurd h (by simp)
  | append_singleton es e ih =>
      have hold : catalogKey e = some (.url u) ∨ 0 < rowsAfter order domains es (.url u) := by
        obtain ⟨e', he', hkey⟩ := h
        rcases List.mem_append.mp he' with hmem | hmem
        · exact Or.inr (ih ⟨e', hmem, hkey⟩)
        · exact Or.inl (List.mem_singleton.mp hmem ▸ hkey)
      rcases rowsAfter_snoc_cases order domains es e with
        ⟨-, hcount⟩ | ⟨d, x, v, -, -, hv, hcount⟩
      · rw [hcount]
        split
        · omega
        · rename_i hne
          exact hold.resolve_left hne
      · have hk := hcount (.url u)
        rw [if_neg (CatalogKey.url_ne_ext u x).symm] at hk
        rcases hold with heq | hpos
        · rw [hv] at heq
          rw [if_pos (Option.some.inj heq)] at hk
          omega
        · omega

/-! ### What is lost, and what is doubled -/

/-- An entry has taken the row of an external id over, which has not come again. -/
def LostId (order : DomainOrder) (domains : Table CatalogDomain) (es : List DomainFields)
    (x : String) : Prop :=
  ∃ before e after, es = before ++ e :: after ∧
    (∃ d, TakesOver order domains before e d ∧ catalogKey d.fields = some (.ext x)) ∧
      ∀ e' ∈ after, catalogKey e' ≠ some (.ext x)

/-- An entry has taken a row over for a URL that had one already. -/
def DoubledUrl (order : DomainOrder) (domains : Table CatalogDomain) (es : List DomainFields)
    (u : String) : Prop :=
  ∃ before e after, es = before ++ e :: after ∧ (∃ d, TakesOver order domains before e d) ∧
    catalogKey e = some (.url u) ∧ ∃ e' ∈ before, catalogKey e' = some (.url u)

theorem lost_snoc_iff {x : String} : LostId order domains (es ++ [e]) x ↔
    (∃ d, TakesOver order domains es e d ∧ catalogKey d.fields = some (.ext x)) ∨
      (LostId order domains es x ∧ catalogKey e ≠ some (.ext x)) := by
  unfold LostId
  rw [exists_split_snoc_iff]
  simp only [List.not_mem_nil, false_implies, implies_true, and_true, List.forall_mem_append,
    List.forall_mem_singleton]
  refine or_congr Iff.rfl ⟨?_, ?_⟩
  · rintro ⟨before, b, after, heq, hover, hafter, he⟩
    exact ⟨⟨before, b, after, heq, hover, hafter⟩, he⟩
  · rintro ⟨⟨before, b, after, heq, hover, hafter⟩, he⟩
    exact ⟨before, b, after, heq, hover, hafter, he⟩

theorem doubled_snoc_iff {u : String} : DoubledUrl order domains (es ++ [e]) u ↔
    ((∃ d, TakesOver order domains es e d) ∧ catalogKey e = some (.url u) ∧
      ∃ e' ∈ es, catalogKey e' = some (.url u)) ∨ DoubledUrl order domains es u := by
  unfold DoubledUrl
  rw [exists_split_snoc_iff]

theorem not_doubled_nil (u : String) : ¬ DoubledUrl order domains [] u := by
  rintro ⟨before, e, after, heq, -⟩
  exact absurd heq.symm (List.append_ne_nil_of_right_ne_nil _ (List.cons_ne_nil _ _))

/-- An external id that was entered has no row if and only if it is lost. -/
theorem rowsAfter_ext_eq_zero_iff (es : List DomainFields) (x : String) :
    rowsAfter order domains es (.ext x) = 0 ↔
      (∀ e ∈ es, catalogKey e ≠ some (.ext x)) ∨ LostId order domains es x := by
  induction es using List.reverseRecOn with
  | nil => simp [rowsAfter, rowByRow, rowsOf]
  | append_singleton es e ih =>
      rw [lost_snoc_iff, List.forall_mem_append, List.forall_mem_singleton]
      rcases rowsAfter_snoc_cases order domains es e with
        ⟨hnone, hcount⟩ | ⟨d, y, u, hover, hd, hu, hcount⟩
      · have hover : ¬ ∃ d, TakesOver order domains es e d ∧
            catalogKey d.fields = some (.ext x) := by
          rintro ⟨d, h, -⟩
          exact hnone d h
        rw [hcount]
        by_cases hk : catalogKey e = some (.ext x)
        · rw [if_pos hk]
          simp only [hk, hover, ne_eq, not_true, and_false, or_false, iff_false]
          omega
        · rw [if_neg hk, ih]
          simp only [hk, hover, ne_eq, not_false_eq_true, and_true, false_or]
      · have hne : catalogKey e ≠ some (.ext x) := by
          rw [hu]
          exact fun h => CatalogKey.url_ne_ext u x (Option.some.inj h)
        have hk := hcount (.ext x)
        rw [if_neg (CatalogKey.url_ne_ext u x)] at hk
        by_cases hy : y = x
        · subst hy
          have hle := rowsAfter_ext_le order domains es y
          rw [if_pos rfl] at hk
          have hlost : ∃ d, TakesOver order domains es e d ∧ catalogKey d.fields = some (.ext y) :=
            ⟨d, hover, hd⟩
          simp only [hlost, true_or, or_true, iff_true]
          omega
        · have hext : CatalogKey.ext y ≠ .ext x := fun h => hy (CatalogKey.ext.inj h)
          have hother : ¬ ∃ d, TakesOver order domains es e d ∧
              catalogKey d.fields = some (.ext x) := by
            rintro ⟨d', hover', hd'⟩
            obtain rfl := Option.some.inj (hover.1.symm.trans hover'.1)
            exact hext (Option.some.inj (hd.symm.trans hd'))
          rw [if_neg hext, Nat.add_zero, Nat.add_zero] at hk
          rw [hk, ih]
          simp only [hne, hother, ne_eq, not_false_eq_true, and_true, false_or]

/-- A URL has a second row if and only if it has been doubled. -/
theorem one_lt_rowsAfter_url_iff (es : List DomainFields) (u : String) :
    1 < rowsAfter order domains es (.url u) ↔ DoubledUrl order domains es u := by
  induction es using List.reverseRecOn with
  | nil => simp [rowsAfter, rowByRow, rowsOf, not_doubled_nil]
  | append_singleton es e ih =>
      rw [doubled_snoc_iff]
      rcases rowsAfter_snoc_cases order domains es e with
        ⟨hnone, hcount⟩ | ⟨d, x, v, hover, -, hv, hcount⟩
      · have hover : ¬ ∃ d, TakesOver order domains es e d := not_exists.mpr hnone
        rw [hcount]
        simp only [hover, false_and, false_or]
        rw [← ih]
        split
        · omega
        · rfl
      · have hk := hcount (.url u)
        have hover' : ∃ d, TakesOver order domains es e d := ⟨d, hover⟩
        rw [if_neg (CatalogKey.url_ne_ext u x).symm] at hk
        by_cases huv : v = u
        · subst huv
          rw [if_pos rfl] at hk
          simp only [hover', hv, true_and]
          constructor
          · intro hlt
            have hpos : rowsAfter order domains es (.url v) ≠ 0 := by omega
            exact Or.inl (exists_of_rowsAfter order domains hpos)
          · rintro (hentry | hdoubled)
            · have hpos := rowsAfter_url_pos order domains hentry
              omega
            · have hlt := ih.mpr hdoubled
              omega
        · have hurl : CatalogKey.url v ≠ .url u := fun h => huv (CatalogKey.url.inj h)
          have hne : catalogKey e ≠ some (.url u) := by
            rw [hv]
            exact fun h => hurl (Option.some.inj h)
          rw [if_neg hurl, Nat.add_zero, Nat.add_zero] at hk
          simp only [hk, hne, false_and, and_false, false_or]
          exact ih

/-- The row that is taken over is of a key that has been entered. -/
theorem exists_of_takesOver {d : CatalogDomain} (hover : TakesOver order domains es e d) :
    ∃ x u, catalogKey d.fields = some (.ext x) ∧ catalogKey e = some (.url u) ∧
      ∃ e' ∈ es, catalogKey e' = some (.ext x) := by
  rcases upsertDomain_cases order (rowByRow order domains es) e with
    ⟨hfound, -⟩ | ⟨d', before, after, hfound, hold, -, -, -, hkind⟩
  · exact nomatch hfound.symm.trans hover.1
  · obtain rfl := Option.some.inj (hfound.symm.trans hover.1)
    obtain ⟨x, u, hx, hu⟩ := hkind hover.2
    refine ⟨x, u, hx, hu, exists_of_rowsAfter order domains ?_⟩
    unfold rowsAfter
    rw [hold, rowsOf_middle, if_pos hx]
    exact Nat.succ_ne_zero _

/-- Every row is settled where nothing is lost or doubled. -/
theorem settled_rowByRow_iff (es : List DomainFields) :
    Settled catalogKey es (contents (rowByRow order domains es)) ↔
      (∀ x, ¬ LostId order domains es x) ∧ ∀ u, ¬ DoubledUrl order domains es u := by
  have hlost : ∀ x, LostId order domains es x → ∃ e ∈ es, catalogKey e = some (.ext x) := by
    rintro x ⟨before, e, after, rfl, ⟨d, hover, hd⟩, -⟩
    obtain ⟨y, -, hy, -, e', he', hkey⟩ := exists_of_takesOver hover
    obtain rfl := CatalogKey.ext.inj (Option.some.inj (hd.symm.trans hy))
    exact ⟨e', List.mem_append_left _ he', hkey⟩
  rw [(loaded_rowByRow order domains es).settled_iff]
  constructor
  · intro hone
    refine ⟨fun x hx => ?_, fun u hu => ?_⟩
    · have hcount := hone (.ext x) (lastOf_isSome_iff.mpr (hlost x hx))
      have hzero := (rowsAfter_ext_eq_zero_iff es x).mpr (Or.inr hx)
      unfold rowsAfter at hzero
      omega
    · have hlt := (one_lt_rowsAfter_url_iff es u).mpr hu
      have hcount := hone (.url u) (lastOf_isSome_iff.mpr
        (exists_of_rowsAfter order domains (Nat.ne_of_gt (Nat.lt_of_succ_lt hlt))))
      unfold rowsAfter at hlt
      omega
  · rintro ⟨hnolost, hnodouble⟩ k hsome
    have hentry := lastOf_isSome_iff.mp hsome
    cases k with
    | ext x =>
        have hle := rowsAfter_ext_le order domains es x
        have hne : rowsAfter order domains es (.ext x) ≠ 0 := by
          rw [Ne, rowsAfter_ext_eq_zero_iff, not_or]
          obtain ⟨e, he, hkey⟩ := hentry
          exact ⟨fun hnot => hnot e he hkey, hnolost x⟩
        unfold rowsAfter at hle hne
        omega
    | url u =>
        have hpos := rowsAfter_url_pos order domains hentry
        have hle : ¬ 1 < rowsAfter order domains es (.url u) := by
          rw [one_lt_rowsAfter_url_iff]
          exact hnodouble u
        unfold rowsAfter at hpos hle
        omega

/-- Nothing is lost and nothing doubled if everything that is taken over heals. -/
theorem heals_iff (es : List DomainFields) : Heals order domains es ↔
    (∀ x, ¬ LostId order domains es x) ∧ ∀ u, ¬ DoubledUrl order domains es u := by
  constructor
  · intro hheals
    refine ⟨?_, ?_⟩
    · rintro x ⟨before, e, after, rfl, ⟨d, hover, hd⟩, hafter⟩
      obtain ⟨e', he', hkey⟩ := (hheals before e after d rfl hover).2
      exact hafter e' he' (hkey.trans hd)
    · rintro u ⟨before, e, after, rfl, ⟨d, hover⟩, he, e', he', hkey⟩
      exact (hheals before e after d rfl hover).1 e' he' (hkey.trans he.symm)
  · rintro ⟨hnolost, hnodouble⟩ before e after d rfl hover
    obtain ⟨x, u, hd, he, -⟩ := exists_of_takesOver hover
    refine ⟨fun e' he' hkey => ?_, ?_⟩
    · exact hnodouble u ⟨before, e, after, rfl, ⟨d, hover⟩, he, e', he', hkey.trans he⟩
    · by_contra hnone
      refine hnolost x ⟨before, e, after, rfl, ⟨d, hover, hd⟩, fun e' he' hkey => ?_⟩
      exact hnone ⟨e', he', hkey.trans hd.symm⟩

end Runs

/-- **Where the bulk replacement equals the per-row path**: for exactly the entries that heal. -/
theorem replaceCatalog_perm_iff (order : DomainOrder) (domains : Table CatalogDomain)
    (entries : List DomainFields) :
    (contents (replaceCatalog domains entries)).Perm (contents (rowByRow order domains entries)) ↔
      Heals order domains entries := by
  rw [(settled_replaceCatalog domains entries).perm_iff, settled_rowByRow_iff, heals_iff]

/-! A department that is listed twice, once with its id and once by its URL alone. -/

def listedById : DomainFields :=
  { externalId := some "npi-1", categoryCode := "sg", mainUrl := some "https://health.hr.gov.in" }

def listedByUrl : DomainFields :=
  { categoryCode := "sg", mainUrl := some "https://health.hr.gov.in" }

/-- The bulk load keeps both, row by row the second takes the place of the first. -/
theorem listed_twice :
    contents (replaceCatalog Table.empty [listedById, listedByUrl]) = [listedById, listedByUrl] ∧
      contents (rowByRow insertionOrder Table.empty [listedById, listedByUrl]) = [listedByUrl] ∧
      ¬ (contents (replaceCatalog Table.empty [listedById, listedByUrl])).Perm
        (contents (rowByRow insertionOrder Table.empty [listedById, listedByUrl])) := by
  have hbulk : contents (replaceCatalog Table.empty [listedById, listedByUrl]) =
      [listedById, listedByUrl] := by decide +kernel
  have hrows : contents (rowByRow insertionOrder Table.empty [listedById, listedByUrl]) =
      [listedByUrl] := by
    decide +kernel
  refine ⟨hbulk, hrows, fun hperm => ?_⟩
  rw [hbulk, hrows] at hperm
  exact absurd hperm.length_eq (by decide)

end GovCrawler
