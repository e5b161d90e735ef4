/-
A page, through `httpx` or through the browser: `_fetch` in `agent/crawler/engine.py`.

Both follow redirects, so where a page comes from is up to the servers.  `_fetch_httpx` looks at
the URL at which it has arrived; `_fetch_playwright` does not, and it is asked exactly when the
other's page is of no use, which a page outside of the scope is not.

`fetch_in_scope_iff` says when what comes back is from inside the scope.  `login_page_fetched` is a
redirect to a login page elsewhere, which `httpx` drops and the browser brings.  How long a fetch
waits, and what it logs, is left out.
-/
import GovCrawler.Crawler.Frontier

namespace GovCrawler

/-! ### What the servers do -/

/-- A response, its redirects followed. -/
structure Response where
  /-- The URL that it comes from. -/
  url : String
  statusCode : Nat
  text : String
  deriving DecidableEq, Repr

/-- What `self._client.get(url)` comes to. -/
inductive GetOutcome
  | response (r : Response)
  | transportError
  | otherError
  deriving DecidableEq, Repr

/-- What `page.goto(url, …)` comes to. -/
inductive GotoOutcome
  | arrives
  | raises (typeName : String)
  deriving DecidableEq, Repr

/-- What a browser does when it is shown a URL: attempt by attempt, and then. -/
structure BrowserVisit where
  opens : Bool := true
  goto : Nat → GotoOutcome
  settles : Bool := true
  /-- `page.content()`, unless it raises. -/
  content : Option String
  /-- The URL that the content comes from. -/
  url : String

/-- Some HTML, and the URL that it comes from. -/
structure FetchedPage where
  html : String
  finalUrl : String
  deriving DecidableEq, Repr

/-! ### The fetch -/

/-- The loop of `_fetch_httpx`, over the attempts that are left. -/
def httpxResponse (get : Nat → GetOutcome) : List Nat → Option Response
  | [] => none
  | attempt :: left =>
      match get attempt with
      | .response r => some r
      | .transportError => if attempt = 0 then httpxResponse get left else none
      | .otherError => none

/-- The two attempts of `goto`. -/
def BrowserVisit.arrives (visit : BrowserVisit) : Bool :=
  match visit.goto 0 with
  | .arrives => true
  | .raises typeName => containsSub "Timeout" typeName && decide (visit.goto 1 = .arrives)

/-- `_fetch_playwright`. -/
def fetchPlaywright (visit : BrowserVisit) : Option FetchedPage :=
  if visit.opens && visit.arrives && visit.settles then
    visit.content.map fun html => ⟨html, visit.url⟩
  else none

structure FetchConfig extends UrlRules where
  httpxFirst : Bool := true
  playwrightFallback : Bool := true
  jsIndicators : List String := []

namespace FetchConfig

variable (cfg : FetchConfig)

/-- `_needs_js`. -/
def needsJs (html : String) : Bool := cfg.jsIndicators.any fun ind => containsSub ind html

/-- What `_fetch_httpx` makes of a response; `none` where it raises. -/
def receive (r : Response) : Option (Option FetchedPage) :=
  if r.statusCode = 200 then do
    let final ← cfg.urlsplit r.url
    let gov ← cfg.isGovDomain r.url
    if gov || final.netloc == "" then some (some ⟨r.text, r.url⟩) else some none
  else some none

/-- `_fetch_httpx`. -/
def fetchHttpx (get : Nat → GetOutcome) : Option (Option FetchedPage) :=
  match httpxResponse get (List.range 2) with
  | none => some none
  | some r => cfg.receive r

/-- `html and not self._needs_js(html)`. -/
def willDo : Option FetchedPage → Bool
  | none => false
  | some page => page.html != "" && !cfg.needsJs page.html

/-- `html`, before the browser is asked. -/
def firstHtml (get : Nat → GetOutcome) : Option (Option FetchedPage) :=
  if cfg.httpxFirst then cfg.fetchHttpx get else some none

/-- `pw_html`. -/
def pwHtml (browserContext : Option BrowserVisit) : Option FetchedPage :=
  if cfg.playwrightFallback then browserContext.bind fetchPlaywright else none

/-- `_fetch`; `none` where it raises. -/
def fetch (url : String) (get : Nat → GetOutcome) (browserContext : Option BrowserVisit) :
    Option (Option FetchedPage) := do
  let _netloc ← cfg.urlsplit url
  let html ← cfg.firstHtml get
  if cfg.willDo html then some html
  else
    match cfg.pwHtml browserContext with
    | some page => if page.html != "" then some (some page) else some html
    | none => some html

end FetchConfig

/-! ### What is promised -/

/-- `httpx` gets a response, at once or after a transport error. -/
def Answers (get : Nat → GetOutcome) (r : Response) : Prop :=
  get 0 = .response r ∨ get 0 = .transportError ∧ get 1 = .response r

namespace FetchConfig

variable (cfg : FetchConfig)

/-- A URL of the scope. -/
def InScope (url : String) : Prop := cfg.isGovDomain url = some true

/-- A response with some HTML from the scope, or from a URL without a host. -/
structure Accepts (r : Response) : Prop where
  ok : r.statusCode = 200
  host : ∃ final, cfg.urlsplit r.url = some final ∧ (cfg.InScope r.url ∨ final.netloc = "")

/-- `httpx` is asked, and gets a response. -/
def Gets (get : Nat → GetOutcome) (r : Response) : Prop := cfg.httpxFirst = true ∧ Answers get r

/-- No browser is needed. -/
def Settled (get : Nat → GetOutcome) : Prop :=
  ∃ r, cfg.Gets get r ∧ cfg.Accepts r ∧ r.text ≠ "" ∧ cfg.needsJs r.text = false

/-- `urlsplit` raises at the URL of the response. -/
def Malformed (get : Nat → GetOutcome) : Prop :=
  ∃ r, cfg.Gets get r ∧ r.statusCode = 200 ∧ cfg.urlsplit r.url = none

/-- The browser is asked, and shows a page with some HTML. -/
structure Rendered (get : Nat → GetOutcome) (browserContext : Option BrowserVisit)
    (visit : BrowserVisit) : Prop where
  asked : ¬ cfg.Settled get ∧ ¬ cfg.Malformed get
  fallback : cfg.playwrightFallback = true
  context : browserContext = some visit
  arrives : visit.opens = true ∧ visit.arrives = true ∧ visit.settles = true
  content : ∃ html, visit.content = some html ∧ html ≠ ""

/-- The redirects lead nowhere else: where the browser is asked it arrives in the scope, and where
it shows nothing `httpx` has not arrived at a URL without a host. -/
structure StaysInScope (get : Nat → GetOutcome) (browserContext : Option BrowserVisit) : Prop where
  browser : ∀ visit, cfg.Rendered get browserContext visit → cfg.InScope visit.url
  httpx : (∀ visit, ¬ cfg.Rendered get browserContext visit) →
    ∀ r, cfg.Gets get r → cfg.Accepts r → cfg.InScope r.url

end FetchConfig

/-! ### The two paths -/

theorem httpxResponse_eq_some_iff {get : Nat → GetOutcome} {r : Response} :
    httpxResponse get (List.range 2) = some r ↔ Answers get r := by
  show httpxResponse get [0, 1] = some r ↔ _
  unfold Answers httpxResponse
  cases get 0 with
  | response r' => simp
  | otherError => simp
  | transportError =>
      unfold httpxResponse
      cases get 1 with
      | response r' => simp
      | transportError => simp
      | otherError => simp

theorem Answers.eq {get : Nat → GetOutcome} {r r' : Response} (h : Answers get r)
    (h' : Answers get r') : r = r' :=
  Option.some.inj ((httpxResponse_eq_some_iff.mpr h).symm.trans (httpxResponse_eq_some_iff.mpr h'))

/-- The browser's page is whatever it shows, wherever it has arrived. -/
theorem fetchPlaywright_eq_some_iff {visit : BrowserVisit} {page : FetchedPage} :
    fetchPlaywright visit = some page ↔
      (visit.opens = true ∧ visit.arrives = true ∧ visit.settles = true) ∧
        visit.content = some page.html ∧ page.finalUrl = visit.url := by
  have hguard : (visit.opens && visit.arrives && visit.settles) = true ↔
      visit.opens = true ∧ visit.arrives = true ∧ visit.settles = true := by
    rw [Bool.and_eq_true, Bool.and_eq_true, and_assoc]
  unfold fetchPlaywright
  by_cases h : (visit.opens && visit.arrives && visit.settles) = true
  · rw [if_pos h, Option.map_eq_some_iff]
    constructor
    · rintro ⟨html, hcontent, rfl⟩
      exact ⟨hguard.mp h, hcontent, rfl⟩
    · rintro ⟨-, hcontent, hurl⟩
      exact ⟨page.html, hcontent, by rw [← hurl]⟩
  · rw [if_neg h]
    exact iff_of_false nofun fun hpage => h (hguard.mpr hpage.1)

namespace FetchConfig

variable {cfg : FetchConfig} {url : String} {get : Nat → GetOutcome}
  {browserContext : Option BrowserVisit} {page : FetchedPage} {r : Response}

theorem isGovDomain_of_split {p : SplitUrl} (h : cfg.urlsplit url = some p) :
    ∃ gov, cfg.isGovDomain url = some gov := by
  unfold UrlRules.isGovDomain
  rw [h]
  split
  · exact ⟨_, rfl⟩
  · exact ⟨_, rfl⟩

/-- **What `httpx` brings**: nothing from outside of the scope, if it has a host. -/
theorem receive_cases (r : Response) :
    (cfg.receive r = none ∧ r.statusCode = 200 ∧ cfg.urlsplit r.url = none) ∨
      (¬ (r.statusCode = 200 ∧ cfg.urlsplit r.url = none) ∧
        ((cfg.receive r = some none ∧ ¬ cfg.Accepts r) ∨
          (cfg.receive r = some (some ⟨r.text, r.url⟩) ∧ cfg.Accepts r))) := by
  unfold receive
  by_cases hok : r.statusCode = 200
  · rw [if_pos hok]
    cases hsplit : cfg.urlsplit r.url with
    | none => exact Or.inl ⟨rfl, hok, rfl⟩
    | some final =>
        obtain ⟨gov, hgov⟩ := isGovDomain_of_split hsplit
        have haccepts : (gov || final.netloc == "") = true ↔ cfg.Accepts r := by
          rw [Bool.or_eq_true, beq_iff_eq]
          constructor
          · intro h
            exact ⟨hok, final, hsplit, h.imp (fun hin => hgov.trans (congrArg some hin)) id⟩
          · rintro ⟨-, p, hp, h⟩
            obtain rfl := Option.some.inj (hsplit.symm.trans hp)
            exact h.imp (fun hin => Option.some.inj (hgov.symm.trans hin)) id
        refine Or.inr ⟨fun h => Option.some_ne_none _ h.2, ?_⟩
        rw [hgov]
        by_cases h : (gov || final.netloc == "") = true
        · exact Or.inr ⟨if_pos h, haccepts.mp h⟩
        · exact Or.inl ⟨if_neg h, fun ha => h (haccepts.mpr ha)⟩
  · rw [if_neg hok]
    exact Or.inr ⟨fun h => hok h.1, Or.inl ⟨rfl, fun h => hok h.ok⟩⟩

/-- What there is before the browser is asked. -/
theorem first_cases (cfg : FetchConfig) (get : Nat → GetOutcome) :
    (cfg.firstHtml get = none ∧ cfg.Malformed get) ∨
      (¬ cfg.Malformed get ∧
        ((cfg.firstHtml get = some none ∧ ∀ r, cfg.Gets get r → ¬ cfg.Accepts r) ∨
          ∃ r, cfg.firstHtml get = some (some ⟨r.text, r.url⟩) ∧ cfg.Gets get r ∧
            cfg.Accepts r)) := by
  by_cases hfirst : cfg.httpxFirst = true
  · have heq : cfg.firstHtml get = cfg.fetchHttpx get := if_pos hfirst
    rw [heq]
    unfold fetchHttpx
    cases hresponse : httpxResponse get (List.range 2) with
    | none =>
        have hnone : ∀ r, ¬ cfg.Gets get r := fun r hr => by
          cases hresponse.symm.trans (httpxResponse_eq_some_iff.mpr hr.2)
        refine Or.inr ⟨?_, Or.inl ⟨rfl, fun r hr => absurd hr (hnone r)⟩⟩
        rintro ⟨r, hr, -⟩
        exact hnone r hr
    | some r =>
        have hgets : cfg.Gets get r := ⟨hfirst, httpxResponse_eq_some_iff.mp hresponse⟩
        dsimp only
        have hreceived := @receive_cases cfg r
        rcases hreceived with ⟨heq, hok, hsplit⟩ | ⟨hsplits, hcases⟩
        · exact Or.inl ⟨heq, r, hgets, hok, hsplit⟩
        · refine Or.inr ⟨?_, ?_⟩
          · rintro ⟨r', hr', hraises⟩
            obtain rfl := hgets.2.eq hr'.2
            exact hsplits hraises
          · rcases hcases with ⟨heq, hnot⟩ | ⟨heq, haccepts⟩
            · refine Or.inl ⟨heq, fun r' hr' => ?_⟩
              obtain rfl := hgets.2.eq hr'.2
              exact hnot
            · exact Or.inr ⟨r, heq, hgets, haccepts⟩
  · refine Or.inr ⟨?_, Or.inl ⟨if_neg hfirst, fun r hr => absurd hr.1 hfirst⟩⟩
    rintro ⟨r, hr, -⟩
    exact hfirst hr.1

/-- What the browser has to add, once it is asked. -/
theorem browser_cases (hasked : ¬ cfg.Settled get ∧ ¬ cfg.Malformed get)
    (browserContext : Option BrowserVisit) :
    (∃ visit html, cfg.Rendered get browserContext visit ∧ visit.content = some html ∧ html ≠ "" ∧
        cfg.pwHtml browserContext = some ⟨html, visit.url⟩) ∨
      ((∀ visit, ¬ cfg.Rendered get browserContext visit) ∧
        ∀ page, cfg.pwHtml browserContext = some page → page.html = "") := by
  by_cases hnone : ∃ visit, cfg.Rendered get browserContext visit
  · left
    obtain ⟨visit, hrendered⟩ := hnone
    obtain ⟨html, hcontent, hhtml⟩ := hrendered.content
    refine ⟨visit, html, hrendered, hcontent, hhtml, ?_⟩
    unfold pwHtml
    rw [if_pos hrendered.fallback, hrendered.context]
    exact fetchPlaywright_eq_some_iff.mpr ⟨hrendered.arrives, hcontent, rfl⟩
  · right
    refine ⟨fun visit h => hnone ⟨visit, h⟩, fun page hpage => ?_⟩
    by_contra hhtml
    unfold pwHtml at hpage
    by_cases hfallback : cfg.playwrightFallback = true
    · rw [if_pos hfallback] at hpage
      obtain ⟨visit, hcontext, hvisit⟩ := Option.bind_eq_some_iff.mp hpage
      obtain ⟨harrives, hcontent, -⟩ := fetchPlaywright_eq_some_iff.mp hvisit
      exact hnone ⟨visit, hasked, hfallback, hcontext, harrives, page.html, hcontent, hhtml⟩
    · rw [if_neg hfallback] at hpage
      cases hpage

/-- The page that `httpx` has brought is enough. -/
theorem willDo_iff (hgets : cfg.Gets get r) (haccepts : cfg.Accepts r) :
    cfg.willDo (some ⟨r.text, r.url⟩) = true ↔ cfg.Settled get := by
  unfold willDo
  rw [Bool.and_eq_true, bne_iff_ne, Bool.not_eq_true']
  constructor
  · exact fun h => ⟨r, hgets, haccepts, h⟩
  · rintro ⟨r', hgets', -, h⟩
    obtain rfl := hgets.2.eq hgets'.2
    exact h

/-- The end of `_fetch`: the browser's page, or else what there was. -/
theorem fetch_of_first {html : Option FetchedPage} {netloc : SplitUrl}
    (hurl : cfg.urlsplit url = some netloc)
    (hfirst : cfg.firstHtml get = some html) :
    cfg.fetch url get browserContext =
      if cfg.willDo html then some html
      else
        match cfg.pwHtml browserContext with
        | some pwHtml => if pwHtml.html != "" then some (some pwHtml) else some html
        | none => some html := by
  unfold fetch
  rw [hurl, hfirst]
  rfl

/-- What is returned where the browser is asked. -/
theorem fetch_of_asked (browserContext : Option BrowserVisit) {html : Option FetchedPage}
    {netloc : SplitUrl} (hurl : cfg.urlsplit url = some netloc)
    (hfirst : cfg.firstHtml get = some html)
    (hwill : cfg.willDo html = false) (hasked : ¬ cfg.Settled get ∧ ¬ cfg.Malformed get) :
    (∃ visit text, cfg.Rendered get browserContext visit ∧ visit.content = some text ∧
        cfg.fetch url get browserContext = some (some ⟨text, visit.url⟩)) ∨
      (∀ visit, ¬ cfg.Rendered get browserContext visit) ∧
        cfg.fetch url get browserContext = some html := by
  rw [fetch_of_first hurl hfirst, hwill, if_neg Bool.false_ne_true]
  rcases browser_cases hasked browserContext with
    ⟨visit, text, hrendered, hcontent, htext, heq⟩ | ⟨hnone, hempty⟩
  · left
    refine ⟨visit, text, hrendered, hcontent, ?_⟩
    rw [heq]
    exact if_pos (bne_iff_ne.mpr htext)
  · right
    refine ⟨hnone, ?_⟩
    cases heq : cfg.pwHtml browserContext with
    | none => rfl
    | some page =>
        dsimp only
        rw [hempty page heq]
        rfl

/-- **What `_fetch` returns**, the URL being well-formed: the browser's page where it is asked and
shows one, and that of `httpx` elsewhere. -/
theorem fetch_eq_some_iff (hurl : cfg.urlsplit url ≠ none) :
    cfg.fetch url get browserContext = some (some page) ↔
      (∃ visit, cfg.Rendered get browserContext visit ∧ page.finalUrl = visit.url ∧
        visit.content = some page.html) ∨
      (∀ visit, ¬ cfg.Rendered get browserContext visit) ∧
        ∃ r, cfg.Gets get r ∧ cfg.Accepts r ∧ page = ⟨r.text, r.url⟩ := by
  obtain ⟨netloc, hurl⟩ := Option.ne_none_iff_exists'.mp hurl
  have hbrowser : ∀ {visit text}, cfg.Rendered get browserContext visit →
      visit.content = some text →
      cfg.fetch url get browserContext = some (some ⟨text, visit.url⟩) →
      (cfg.fetch url get browserContext = some (some page) ↔
        (∃ visit, cfg.Rendered get browserContext visit ∧ page.finalUrl = visit.url ∧
          visit.content = some page.html) ∨
        (∀ visit, ¬ cfg.Rendered get browserContext visit) ∧
          ∃ r, cfg.Gets get r ∧ cfg.Accepts r ∧ page = ⟨r.text, r.url⟩) := by
    intro visit text hrendered hcontent heq
    rw [heq]
    constructor
    · intro h
      obtain rfl := Option.some.inj (Option.some.inj h)
      exact Or.inl ⟨visit, hrendered, rfl, hcontent⟩
    · rintro (⟨visit', hrendered', hfinal, hcontent'⟩ | ⟨hnone, -⟩)
      · obtain rfl := Option.some.inj (hrendered.context.symm.trans hrendered'.context)
        obtain rfl := Option.some.inj (hcontent.symm.trans hcontent')
        rw [← hfinal]
      · exact absurd hrendered (hnone visit)
  rcases cfg.first_cases get with ⟨hfirst, hraises⟩ | ⟨hwell, ⟨hfirst, hnot⟩ | hfirst⟩
  · have hfetch : cfg.fetch url get browserContext = none := by
      unfold fetch
      rw [hurl, hfirst]
      rfl
    rw [hfetch]
    refine iff_of_false nofun ?_
    rintro (⟨visit, hrendered, -⟩ | ⟨-, r, hgets, haccepts, -⟩)
    · exact hrendered.asked.2 hraises
    · obtain ⟨r', hgets', -, hsplit⟩ := hraises
      obtain rfl := hgets.2.eq hgets'.2
      obtain ⟨final, hfinal, -⟩ := haccepts.host
      cases hsplit.symm.trans hfinal
  · have hasked : ¬ cfg.Settled get := by
      rintro ⟨r, hgets, haccepts, -⟩
      exact hnot r hgets haccepts
    rcases fetch_of_asked browserContext hurl hfirst rfl ⟨hasked, hwell⟩ with
      ⟨visit, text, hrendered, hcontent, heq⟩ | ⟨hnone, heq⟩
    · exact hbrowser hrendered hcontent heq
    · rw [heq]
      refine iff_of_false nofun ?_
      rintro (⟨visit, hrendered, -⟩ | ⟨-, r, hgets, haccepts, -⟩)
      · exact hnone visit hrendered
      · exact hnot r hgets haccepts
  · obtain ⟨r, hfirst, hgets, haccepts⟩ := hfirst
    have hhttpx : (∀ visit, ¬ cfg.Rendered get browserContext visit) →
        cfg.fetch url get browserContext = some (some ⟨r.text, r.url⟩) →
        (cfg.fetch url get browserContext = some (some page) ↔
          (∃ visit, cfg.Rendered get browserContext visit ∧ page.finalUrl = visit.url ∧
            visit.content = some page.html) ∨
          (∀ visit, ¬ cfg.Rendered get browserContext visit) ∧
            ∃ r, cfg.Gets get r ∧ cfg.Accepts r ∧ page = ⟨r.text, r.url⟩) := by
      intro hnone heq
      rw [heq]
      constructor
      · intro h
        obtain rfl := Option.some.inj (Option.some.inj h)
        exact Or.inr ⟨hnone, r, hgets, haccepts, rfl⟩
      · rintro (⟨visit, hrendered, -⟩ | ⟨-, r', hgets', -, rfl⟩)
        · exact absurd hrendered (hnone visit)
        · obtain rfl := hgets.2.eq hgets'.2
          rfl
    by_cases hsettled : cfg.Settled get
    · refine hhttpx (fun visit hrendered => hrendered.asked.1 hsettled) ?_
      rw [fetch_of_first hurl hfirst, if_pos ((willDo_iff hgets haccepts).mpr hsettled)]
    · have hwill : cfg.willDo (some ⟨r.text, r.url⟩) = false :=
        Bool.eq_false_iff.mpr fun h => hsettled ((willDo_iff hgets haccepts).mp h)
      rcases fetch_of_asked browserContext hurl hfirst hwill
          ⟨hsettled, hwell⟩ with ⟨visit, text, hrendered, hcontent, heq⟩ | ⟨hnone, heq⟩
      · exact hbrowser hrendered hcontent heq
      · exact hhttpx hnone heq

end FetchConfig

/--
**The scope, when and only when the redirects keep to it.**  What `_fetch` returns is from a URL of
the scope, whatever the servers do: if and only if the browser, where it is asked, does not arrive
outside; and `httpx`, where the browser brings nothing, not at a URL without a host.
-/
theorem fetch_in_scope_iff (cfg : FetchConfig) (url : String) (get : Nat → GetOutcome)
    (browserContext : Option BrowserVisit) :
    (∀ page, cfg.fetch url get browserContext = some (some page) → cfg.InScope page.finalUrl) ↔
      (cfg.urlsplit url ≠ none → cfg.StaysInScope get browserContext) := by
  by_cases hurl : cfg.urlsplit url = none
  · have hraises : cfg.fetch url get browserContext = none := by
      unfold FetchConfig.fetch
      rw [hurl]
      rfl
    refine iff_of_true ?_ fun h => absurd hurl h
    intro page hpage
    cases hraises.symm.trans hpage
  · constructor
    · intro h _
      refine ⟨?_, ?_⟩
      · intro visit hrendered
        obtain ⟨html, hcontent, -⟩ := hrendered.content
        exact h ⟨html, visit.url⟩
          ((FetchConfig.fetch_eq_some_iff hurl).mpr (Or.inl ⟨visit, hrendered, rfl, hcontent⟩))
      · intro hnone r hgets haccepts
        exact h ⟨r.text, r.url⟩
          ((FetchConfig.fetch_eq_some_iff hurl).mpr (Or.inr ⟨hnone, r, hgets, haccepts, rfl⟩))
    · intro h page hpage
      obtain ⟨hbrowser, hhttpx⟩ := h hurl
      rcases (FetchConfig.fetch_eq_some_iff hurl).mp hpage with
        ⟨visit, hrendered, hfinal, -⟩ | ⟨hnone, r, hgets, haccepts, rfl⟩
      · rw [hfinal]
        exact hbrowser visit hrendered
      · exact hhttpx hnone r hgets haccepts

/-! ### A login page elsewhere -/

def townFetch : FetchConfig where
  urlsplit := fun url =>
    if url = "http://thane.gov.in/" then some ⟨"thane.gov.in", "/", ""⟩
    else some ⟨"login.example.com", "/", ""⟩
  lower := id
  targetSuffixes := [".gov.in", ".nic.in"]

/-- The server redirects to its login page. -/
def redirected : GetOutcome := .response ⟨"https://login.example.com/", 200, "<form>"⟩

def redirectedVisit : BrowserVisit where
  goto := fun _ => .arrives
  content := some "<form>"
  url := "https://login.example.com/"

/-- The page that `httpx` does not take the browser brings. -/
theorem login_page_fetched :
    townFetch.targetSuffixes ≠ [] ∧
      townFetch.fetch "http://thane.gov.in/" (fun _ => redirected) none = some none ∧
      ∃ page, townFetch.fetch "http://thane.gov.in/" (fun _ => redirected) (some redirectedVisit) =
        some (some page) ∧ ¬ townFetch.InScope page.finalUrl := by
  refine ⟨by decide, by decide, ⟨"<form>", "https://login.example.com/"⟩, by decide, ?_⟩
  unfold FetchConfig.InScope
  decide

end GovCrawler
