/-
Whether a page of a catalogued site is resolved to its row.

The key of the map is the lowercased netloc without `www.`; what is looked up is the lowercased
netloc up to the first colon, without `www.`.  The two are the same but for a port: a row whose
`main_url` has one is in the map under a key that is never looked up.
-/
import GovCrawler.Leads.Catalog
import GovCrawler.Leads.LongestSuffix
import GovCrawler.Lib.UrlSplit

namespace GovCrawler

open Relational UrlSplit

/-! ### Hosts -/

/-- What stands behind the last `@`. -/
def afterUserinfo (netloc : List Char) : List Char :=
  (netloc.reverse.takeWhile (· ≠ '@')).reverse

/-- The host of a netloc, in lower case, without user, port and `www.`. -/
def normalisedHost (lower : String → String) (netloc : String) : String :=
  removePrefix "www."
    (String.ofList ((afterUserinfo (lower netloc).toList).takeWhile (· ≠ ':')))

/-- `urlparse(url).netloc`. -/
def LeadRules.parsing (rules : LeadRules) (accepts : String → Bool) : LeadRules :=
  { rules with netloc := fun url => (urlsplit accepts url).map Split.netloc }

/-- The host of a row that has a URL. -/
def CatalogDomain.host (rules : LeadRules) (d : CatalogDomain) : Option String :=
  (d.fields.mainUrl.bind rules.netloc).map (normalisedHost rules.lower)

/-- The row with the lowest id of those with the host. -/
def rowOfHost (rules : LeadRules) (domains : Table CatalogDomain) (host : String) :
    Option CatalogDomain :=
  domains.first? fun d => d.host rules == some host

/-- The netloc of the row is its host, and at most `www.` before it. -/
def CatalogDomain.NetlocIsHost (rules : LeadRules) (d : CatalogDomain) : Prop :=
  ∀ netloc ∈ d.fields.mainUrl.bind rules.netloc,
    ':' ∉ (rules.lower netloc).toList ∧ '@' ∉ (rules.lower netloc).toList

instance (rules : LeadRules) (d : CatalogDomain) : Decidable (d.NetlocIsHost rules) :=
  inferInstanceAs (Decidable (∀ netloc ∈ d.fields.mainUrl.bind rules.netloc,
    ':' ∉ (rules.lower netloc).toList ∧ '@' ∉ (rules.lower netloc).toList))

/-- An http(s) URL with a host that can be in the catalog, and no user in front of it. -/
structure SiteUrl (rules : LeadRules) (accepts : String → Bool) (targetSuffixes : List String)
    (url netloc : String) : Prop where
  split : urlsplit accepts url = some ⟨"http", netloc⟩ ∨ urlsplit accepts url = some ⟨"https", netloc⟩
  nonempty : netloc ≠ ""
  noUser : '@' ∉ (rules.lower netloc).toList
  notPublic : normalisedHost rules.lower netloc ∉ targetSuffixes.map (lstrip '.')
  labels : 2 ≤ ((normalisedHost rules.lower netloc).toList.splitOn '.').length

/-! ### Keys and hosts -/

theorem mem_removePrefix {p s : String} {c : Char} (h : c ∈ (removePrefix p s).toList) :
    c ∈ s.toList := by
  unfold removePrefix at h
  split at h
  · rw [String.toList_ofList] at h
    exact List.mem_of_mem_drop h
  · exact h

/-- What the prefix does not have, only the rest can have. -/
theorem not_mem_of_removePrefix {p s : String} {c : Char} (hp : c ∉ p.toList)
    (h : c ∉ (removePrefix p s).toList) : c ∉ s.toList := by
  unfold removePrefix at h
  split at h
  · rename_i hprefix
    obtain ⟨rest, hrest⟩ := List.isPrefixOf_iff_prefix.mp hprefix
    rw [String.toList_ofList, ← hrest, ← String.length_toList, List.drop_left] at h
    rw [← hrest, List.mem_append, not_or]
    exact ⟨hp, h⟩
  · exact h

theorem afterUserinfo_of_not_mem {netloc : List Char} (h : '@' ∉ netloc) :
    afterUserinfo netloc = netloc := by
  unfold afterUserinfo
  rw [List.takeWhile_eq_self_iff.mpr, List.reverse_reverse]
  intro c hc
  have hne : c ≠ '@' := fun heq => h (heq ▸ List.mem_reverse.mp hc)
  simpa using hne

/-- Without a user, what is looked up is the host. -/
theorem normalisedHost_of_noUser {lower : String → String} {netloc : String}
    (h : '@' ∉ (lower netloc).toList) :
    normalisedHost lower netloc =
      removePrefix "www." (String.ofList ((lower netloc).toList.takeWhile (· ≠ ':'))) := by
  rw [normalisedHost, afterUserinfo_of_not_mem h]

/-- With neither, it is the key. -/
theorem normalisedHost_eq_key {lower : String → String} {netloc : String}
    (hport : ':' ∉ (lower netloc).toList) (huser : '@' ∉ (lower netloc).toList) :
    normalisedHost lower netloc = removePrefix "www." (lower netloc) := by
  rw [normalisedHost_of_noUser huser, List.takeWhile_eq_self_iff.mpr, String.ofList_toList]
  intro c hc
  have hne : c ≠ ':' := fun heq => hport (heq ▸ hc)
  simpa using hne

theorem not_mem_host {lower : String → String} {netloc : String} :
    ':' ∉ (normalisedHost lower netloc).toList ∧ '@' ∉ (normalisedHost lower netloc).toList := by
  unfold normalisedHost
  refine ⟨fun h => ?_, fun h => ?_⟩
  · have hmem := mem_removePrefix h
    rw [String.toList_ofList] at hmem
    simpa using List.mem_takeWhile_imp hmem
  · have hmem := mem_removePrefix h
    rw [String.toList_ofList] at hmem
    have hafter := List.mem_reverse.mp ((List.takeWhile_prefix _).subset hmem)
    simpa using List.mem_takeWhile_imp hafter

variable {rules : LeadRules} {d : CatalogDomain}

/-- A key without port and user is that of its host. -/
theorem host_of_netloc {key : String} (h : d.netloc rules = some key)
    (hport : ':' ∉ key.toList) (huser : '@' ∉ key.toList) :
    d.host rules = some key ∧ d.NetlocIsHost rules := by
  unfold CatalogDomain.netloc at h
  cases hnetloc : d.fields.mainUrl.bind rules.netloc with
  | none =>
      rw [hnetloc] at h
      cases h
  | some netloc =>
      rw [hnetloc] at h
      dsimp only at h
      split at h
      · cases h
      · obtain rfl := Option.some.inj h
        have hport' := not_mem_of_removePrefix (by decide) hport
        have huser' := not_mem_of_removePrefix (by decide) huser
        refine ⟨?_, fun netloc' hmem => ?_⟩
        · rw [CatalogDomain.host, hnetloc, Option.map_some, normalisedHost_eq_key hport' huser']
        · obtain rfl := Option.some.inj (hnetloc.symm.trans hmem)
          exact ⟨hport', huser'⟩

/-- A row whose netloc is its host is in the map under it. -/
theorem netloc_of_host {host : String} (h : d.host rules = some host) (hne : host ≠ "")
    (hd : d.NetlocIsHost rules) : d.netloc rules = some host := by
  obtain ⟨netloc, hnetloc, rfl⟩ := Option.map_eq_some_iff.mp h
  obtain ⟨hport, huser⟩ := hd netloc hnetloc
  rw [normalisedHost_eq_key hport huser] at hne ⊢
  unfold CatalogDomain.netloc
  rw [hnetloc]
  exact if_neg hne

/-! ### Looking up -/

theorem intercalate_splitOn_dot (host : String) :
    ".".intercalate ((host.toList.splitOn '.').map String.ofList) = host := by
  apply String.toList_injective
  rw [String.toList_intercalate, List.map_map]
  have hid : String.toList ∘ String.ofList = id := by
    funext cs
    exact String.toList_ofList
  rw [hid, List.map_id]
  exact List.intercalate_splitOn '.'

/-- An end of the labels is an end of the host. -/
theorem intercalate_suffix {found labels : List String} (h : found <:+ labels) (hne : found ≠ []) :
    (".".intercalate found).toList <:+ (".".intercalate labels).toList := by
  obtain ⟨front, rfl⟩ := h
  induction front with
  | nil => exact List.suffix_refl _
  | cons label front ih =>
      obtain ⟨label', labels, hcons⟩ :=
        List.exists_cons_of_ne_nil (List.append_ne_nil_of_right_ne_nil front hne)
      rw [List.cons_append, hcons, String.intercalate_cons_cons, ← hcons, String.toList_append]
      exact ih.trans (List.suffix_append _ _)

/-- What is found is found under an end of the host. -/
theorem walkUp_eq_some {D : Type} {netlocMap : List (String × D)} {suffixes labels : List String}
    {d : D} (h : walkUp netlocMap suffixes labels = some d) :
    ∃ candidate, netlocMap.lookup candidate = some d ∧
      candidate.toList <:+ (".".intercalate labels).toList := by
  obtain ⟨found, hmatch⟩ := (walkUp_eq_some_iff labels).mp h
  refine ⟨_, hmatch.entry, intercalate_suffix hmatch.suffix ?_⟩
  rintro rfl
  exact absurd hmatch.two (by decide)

/-- The host itself is looked up first, unless it is a public suffix or has one label. -/
theorem walkUp_of_hit {D : Type} {netlocMap : List (String × D)} {suffixes : List String}
    {host : String} {d : D} (hpublic : host ∉ suffixes) (hlabels : 2 ≤ (host.toList.splitOn '.').length)
    (hlookup : netlocMap.lookup host = some d) :
    walkUp netlocMap suffixes ((host.toList.splitOn '.').map String.ofList) = some d := by
  have hjoin := intercalate_splitOn_dot host
  refine (walkUp_eq_some_iff _).mpr ⟨_, (longestMatch_of_lookup ?_ ?_ ?_).mpr ⟨rfl, rfl⟩⟩
  · rwa [List.length_map]
  · rwa [hjoin]
  · rwa [hjoin]

/-- Of the rows with a host, the row of the host has the lowest id. -/
theorem rowOfHost_spec {domains : Table CatalogDomain} {host : String}
    (h : rowOfHost rules domains host = some d) :
    d ∈ domains.rows ∧ d.host rules = some host ∧
      ∀ d' ∈ domains.rows, d'.host rules = some host → d.id ≤ d'.id := by
  obtain ⟨hhost, hget⟩ := Table.first?_spec h
  refine ⟨Table.get?_mem hget, by simpa using hhost, fun d' hd' hhost' => ?_⟩
  exact Table.key_le_of_first? h hd' (by simpa using hhost')

theorem SiteUrl.host_ne_empty {accepts : String → Bool} {targetSuffixes : List String}
    {url netloc : String} (h : SiteUrl rules accepts targetSuffixes url netloc) :
    normalisedHost rules.lower netloc ≠ "" := by
  intro hempty
  have hlabels := h.labels
  rw [hempty] at hlabels
  exact absurd hlabels (by decide)

/-- A URL of a site, with any path behind it, is looked up by its host. -/
theorem resolveDomainForUrl_site {D : Type} {accepts : String → Bool}
    {targetSuffixes : List String} {url netloc path : String}
    (hsite : SiteUrl rules accepts targetSuffixes url netloc) (hpath : IsPath path.toList)
    (netlocMap : List (String × D)) :
    resolveDomainForUrl (rules.parsing accepts) (url ++ path) netlocMap targetSuffixes =
      walkUp netlocMap (targetSuffixes.map (lstrip '.'))
        (((normalisedHost rules.lower netloc).toList.splitOn '.').map String.ofList) := by
  have hsplit : (rules.parsing accepts).netloc (url ++ path) = some netloc := by
    show (urlsplit accepts (url ++ path)).map Split.netloc = some netloc
    rcases hsite.split with h | h
    · rw [urlsplit_append h (by simp) hsite.nonempty hpath]
      rfl
    · rw [urlsplit_append h (by simp) hsite.nonempty hpath]
      rfl
  unfold resolveDomainForUrl
  rw [hsplit]
  dsimp only [LeadRules.parsing]
  rw [← normalisedHost_of_noUser hsite.noUser, if_neg hsite.host_ne_empty]

/--
**A page of a catalogued site is resolved to the row of its host** exactly where the netloc of that
row is the host.
-/
theorem self_resolution_iff (rules : LeadRules) (accepts : String → Bool)
    (domains : Table CatalogDomain) (targetSuffixes : List String) (row : CatalogDomain)
    (hrow : row ∈ domains.rows) (url netloc path : String) (hurl : row.fields.mainUrl = some url)
    (hsite : SiteUrl rules accepts targetSuffixes url netloc) (hpath : IsPath path.toList) :
    resolveDomainForUrl (rules.parsing accepts) (url ++ path)
        (buildNetlocDomainMap (rules.parsing accepts) domains.rows) targetSuffixes =
        rowOfHost (rules.parsing accepts) domains (normalisedHost rules.lower netloc) ↔
      ∀ d ∈ rowOfHost (rules.parsing accepts) domains (normalisedHost rules.lower netloc),
        d.NetlocIsHost (rules.parsing accepts) := by
  have hhost : row.host (rules.parsing accepts) = some (normalisedHost rules.lower netloc) := by
    unfold CatalogDomain.host
    rw [hurl]
    show ((urlsplit accepts url).map Split.netloc).map _ = _
    rcases hsite.split with h | h
    · rw [h]
      rfl
    · rw [h]
      rfl
  have hne := hsite.host_ne_empty
  have hnot := @not_mem_host rules.lower netloc
  have hpublic := hsite.notPublic
  have hlabels := hsite.labels
  rw [resolveDomainForUrl_site hsite hpath]
  generalize normalisedHost rules.lower netloc = host at *
  cases hfirst : rowOfHost (rules.parsing accepts) domains host with
  | none =>
      have hnone := Table.first?_eq_none_iff.mp hfirst row hrow
      rw [hhost] at hnone
      simp at hnone
  | some d =>
      obtain ⟨hd, hdhost, hlowest⟩ := rowOfHost_spec hfirst
      constructor
      · intro h d' hd'
        obtain rfl := Option.some.inj hd'
        obtain ⟨candidate, hlookup, hsuffix⟩ := walkUp_eq_some h
        rw [intercalate_splitOn_dot] at hsuffix
        have hmaps := mapsTo_buildNetlocDomainMap (rules.parsing accepts) domains.rows candidate
        rw [hlookup] at hmaps
        exact (host_of_netloc hmaps.found (fun hc => hnot.1 (hsuffix.subset hc))
          fun hc => hnot.2 (hsuffix.subset hc)).2
      · intro h
        have hnetloc := netloc_of_host hdhost hne (h d rfl)
        have hmaps := mapsTo_buildNetlocDomainMap (rules.parsing accepts) domains.rows host
        cases hlookup : (buildNetlocDomainMap (rules.parsing accepts) domains.rows).lookup host with
        | none =>
            rw [hlookup] at hmaps
            exact absurd hnetloc (hmaps d hd)
        | some d' =>
            rw [hlookup] at hmaps
            have hle := hlowest d' hmaps.mem (host_of_netloc hmaps.found hnot.1 hnot.2).1
            have hge := hmaps.lowest d hd hnetloc
            obtain rfl := domains.eq_of_key_eq hd hmaps.mem (Nat.le_antisymm hle hge)
            exact walkUp_of_hit hpublic hlabels hlookup

/-! A portal on a port of its own, below a site that is in the catalog too. -/

def portalRules : LeadRules where
  lower := fun s => String.ofList (s.toList.map Char.toLower)
  netloc := fun _ => none
  loads := fun _ => .malformed

def siteRow (mainUrl : String) (id : Nat) : CatalogDomain :=
  ⟨id, { categoryCode := "state", mainUrl := some mainUrl }⟩

def sites (first second : String) : Table CatalogDomain :=
  (Table.empty.insertNew (siteRow first)).insertNew (siteRow second)

/-- Upper case, `www.` and a port that comes later are no matter. -/
theorem thane_resolved :
    resolveDomainForUrl (portalRules.parsing fun _ => true) "https://WWW.Thane.gov.in/contact"
        (buildNetlocDomainMap (portalRules.parsing fun _ => true)
          (sites "https://WWW.Thane.gov.in" "http://thane.gov.in:8080").rows) [".gov.in", ".nic.in"] =
      rowOfHost (portalRules.parsing fun _ => true)
        (sites "https://WWW.Thane.gov.in" "http://thane.gov.in:8080") "thane.gov.in" :=
  (self_resolution_iff portalRules (fun _ => true)
    (sites "https://WWW.Thane.gov.in" "http://thane.gov.in:8080") [".gov.in", ".nic.in"]
    (siteRow "https://WWW.Thane.gov.in" 1) (by decide) "https://WWW.Thane.gov.in"
    "WWW.Thane.gov.in" "/contact" rfl
    ⟨by decide +kernel, by decide +kernel, by decide +kernel, by decide +kernel, by decide +kernel⟩
    (by decide +kernel)).mpr (by decide +kernel)

/-- The page of the portal is resolved to the site above. -/
theorem port_not_resolved :
    SiteUrl portalRules (fun _ => true) [".gov.in", ".nic.in"] "http://portal.thane.gov.in:8080"
        "portal.thane.gov.in:8080" ∧
      resolveDomainForUrl (portalRules.parsing fun _ => true)
        "http://portal.thane.gov.in:8080/contact"
        (buildNetlocDomainMap (portalRules.parsing fun _ => true)
          (sites "http://portal.thane.gov.in:8080" "https://thane.gov.in").rows)
        [".gov.in", ".nic.in"] = some (siteRow "https://thane.gov.in" 2) ∧
      rowOfHost (portalRules.parsing fun _ => true)
        (sites "http://portal.thane.gov.in:8080" "https://thane.gov.in")
        (normalisedHost portalRules.lower "portal.thane.gov.in:8080") =
        some (siteRow "http://portal.thane.gov.in:8080" 1) :=
  ⟨⟨by decide +kernel, by decide +kernel, by decide +kernel, by decide +kernel, by decide +kernel⟩,
    by decide +kernel, by decide +kernel⟩

end GovCrawler
