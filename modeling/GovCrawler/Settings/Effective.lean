/-
The settings in effect: the policy that `_build_crawl_policy` puts together from both places, as
`CrawlerEngine` and the parser read it.

What is read is what the reader makes of a value: a number whatever its form, a flag as the
truth value it counts as, a list as what a loop over it sees.  Each reader has a default of its
own for a missing key, and `none` is where it raises.
-/
import GovCrawler.Settings.Config

namespace GovCrawler

open Json StoreProgram Prog

/-! ### `_build_crawl_policy` -/

def asDict : Value → Option Dict
  | .dict d => some d
  | _ => none

/-- `v or w`. -/
def orValue (v : Option Value) (w : Value) : Value :=
  match v with
  | some v => if toBool v then v else w
  | none => w

/-- `_build_crawl_policy`, with the dictionaries themselves. -/
def assembledPolicy (stripTargetSuffixes : Bool) (c policy : Value) : Option Value := do
  let mine ← (item ["crawler"] c).bind asDict
  let stored ← (getOr ["crawler"] (.dict []) policy).bind asDict
  let crawler := merge mine stored
  let crawler :=
    if stripTargetSuffixes then setItem "target_suffixes" (.list []) crawler else crawler
  let own ← read ["extraction"] (some policy)
  let fallback ← getOr ["extraction"] (.dict []) c
  let weights ← getOr ["lead_score", "weights"] (.dict defaultWeights) policy
  some (.dict [("crawler", .dict crawler),
    ("extraction", orValue own fallback),
    ("lead_score", .dict [("weights", weights)])])

/-! ### Readers -/

/-- `d.get(k, default)`, as a value. -/
def plainOr (default : Value) (v : Option Value) : Option Value := some (v.getD default).canon

/-- `if d.get(k, default)`. -/
def flagOr (default : Bool) (v : Option Value) : Option Value :=
  some (.bool ((v.map toBool).getD default))

/-- `d.get(k) or …`. -/
def truthyValue (v : Option Value) : Option Value :=
  match v with
  | some v => some (if toBool v then v.canon else .null)
  | none => some .null

/-- A list that is looped over unless it is empty. -/
def entriesOf (v : Option Value) : Option Value :=
  let v := v.getD (.list [])
  if toBool v then (iterate v).map .list else some (.list [])

/-- `tuple(d.get(k, default))`, or a loop over it. -/
def tupleOr (default : Value) (v : Option Value) : Option Value := (iterate (v.getD default)).map .list

/-- The texts in `set(d.get(k, default))`; nothing else is looked for in it. -/
def setOr (default : Value) (v : Option Value) : Option Value :=
  (iterate (v.getD default)).bind fun xs =>
    if xs.any fun x => (asDict x).isSome || x matches .list _ then none
    else some (.list (((xs.filterMap text).dedup.mergeSort fun a b => a ≤ b).map .str))

/-- `safe_int(d.get(k, default), default)`; `int` of an infinite number raises what it does not
catch. -/
def safeIntOr (default : Int) (v : Option Value) : Option Value :=
  match v with
  | some (.float (.infinite _)) => none
  | some v => some (.int ((toInt v).getD default))
  | none => some (.int default)

/-- `text in text_signals`. -/
def textSignals (v : Option Value) : Option Value :=
  match v with
  | some (.str s) => some (.list [.str s])
  | some v => (iterate v).map .list
  | none => some (.list [])

/-- `param_signals`, which are not looked at if there are none. -/
def paramSignals (v : Option Value) : Option Value :=
  match v with
  | some (.str s) => some (.list [.str s])
  | v => entriesOf v

/-! ### What is read -/

/-- What is read in `self._cfg.get("pagination", {})`. -/
inductive PaginationSetting
  | enabled | maxPaginationPages | maxChainChildren | textSignals | paramSignals
  deriving DecidableEq, Repr

/-- What `CrawlerEngine` reads in `self._cfg`. -/
inductive EngineSetting
  | workers | parseWorkers | connectTimeout | readTimeout | userAgent | playwrightContexts
  | playwrightFetch | perUrlTimeout | maxDepth | requestDelay | httpxFirst | playwrightTimeout
  | jsSettleTime | targetSuffixes | priorityKeywords | skipExtensions | jsIndicators
  /-- `max_links` of a page at this depth. -/
  | maxLinks (depth : Nat)
  | pagination (x : PaginationSetting)
  deriving DecidableEq, Repr

/-- What the parser reads in `config["extraction"]`. -/
inductive ParserSetting
  | emailEnabled | emailRegex | validSuffixes | obfuscation | contextChars | personEnabled
  | proximityChars | titlePrefixes | designationKeywords | highRungs | roleLocalParts
  | maxInputChars
  deriving DecidableEq, Repr

/-- The container of some settings, and what is under a key of it. -/
def inside (container : Option Value) (key : String) : Option (Option Value) := read [key] container

def readPagination (pag : Option Value) : PaginationSetting → Option Value
  | .enabled => (inside pag "enabled").bind (flagOr false)
  | .maxPaginationPages => (inside pag "max_pagination_pages").bind (safeIntOr 50)
  | .maxChainChildren => (inside pag "max_chain_children").bind (safeIntOr 100)
  | .textSignals => (inside pag "text_signals").bind textSignals
  | .paramSignals => (inside pag "param_signals").bind paramSignals

/-- `depth_limits.get(str(depth), depth_limits.get("default", 5))`. -/
def readMaxLinks (limits : Option Value) (depth : Nat) : Option Value := do
  let default ← inside limits "default"
  let own ← inside limits (toString depth)
  plainOr (default.getD (.int 5)) own

/-- What the engine reads; `cfg` is `self._cfg.get`. -/
def readEngine (cfg : String → Option Value) : EngineSetting → Option Value
  | .workers => (cfg "workers").map Value.canon
  | .parseWorkers => truthyValue (cfg "parse_workers")
  | .connectTimeout => (inside (cfg "httpx_timeout") "connect").bind (plainOr (.int 10))
  | .readTimeout => (inside (cfg "httpx_timeout") "read").bind (plainOr (.int 30))
  | .userAgent => plainOr (.str "") (cfg "user_agent")
  | .playwrightContexts => flagOr false (cfg "playwright_fallback")
  | .playwrightFetch => flagOr true (cfg "playwright_fallback")
  | .perUrlTimeout => plainOr (.int 100) (cfg "per_url_timeout")
  | .maxDepth => plainOr (.int 3) (cfg "max_depth")
  | .requestDelay => plainOr (.float (.finite (3 / 2))) (cfg "request_delay")
  | .httpxFirst => flagOr true (cfg "httpx_first")
  | .playwrightTimeout => plainOr (.int 45) (cfg "playwright_timeout")
  | .jsSettleTime => plainOr (.float (.finite 3)) (cfg "js_settle_time")
  | .targetSuffixes => entriesOf (cfg "target_suffixes")
  | .priorityKeywords => entriesOf (cfg "priority_keywords")
  | .skipExtensions => entriesOf (cfg "skip_extensions")
  | .jsIndicators => tupleOr (.list []) (cfg "js_indicators")
  | .maxLinks depth => readMaxLinks (cfg "max_links_per_page") depth
  | .pagination x => readPagination (cfg "pagination") x

/-- What the parser reads; `find` is what is at a path in `config["extraction"]`. -/
def readParser (find : List String → Option (Option Value)) : ParserSetting → Option Value
  | .emailEnabled => (find ["email", "enabled"]).bind (flagOr true)
  | .emailRegex => (find ["email", "regex"]).bind
      (plainOr (.str "[a-zA-Z0-9._%+\\-]+@(?:[a-zA-Z0-9\\-]+\\.)+[a-zA-Z]\x7b2,6\x7d"))
  | .validSuffixes => (find ["email", "valid_suffixes"]).bind
      (tupleOr (.list [.str ".gov.in", .str ".nic.in"]))
  | .obfuscation => (find ["email", "obfuscation"]).bind (plainOr (.list []))
  | .contextChars => (find ["email", "context_chars"]).bind (plainOr (.int 200))
  | .personEnabled => (find ["person", "enabled"]).bind (flagOr true)
  | .proximityChars => (find ["person", "proximity_chars"]).bind (plainOr (.int 300))
  | .titlePrefixes => (find ["person", "title_prefixes"]).bind entriesOf
  | .designationKeywords => (find ["person", "designation_keywords"]).bind entriesOf
  | .highRungs => (find ["confidence", "high_rungs"]).bind
      (setOr (.list [.str "mailto_tel", .str "microdata"]))
  | .roleLocalParts => (find ["role_local_parts"]).bind (setOr (.list
      (["webmaster", "info", "admin", "contact", "support", "helpdesk", "grievance"].map .str)))
  | .maxInputChars => (find ["max_input_chars"]).bind (plainOr (.int 0))

inductive CrawlSetting
  | engine (x : EngineSetting)
  | parser (x : ParserSetting)
  deriving DecidableEq, Repr

/-- What a crawl with this policy reads. -/
def readPolicy (policy : Dict) : CrawlSetting → Option Value
  | .engine x => ((policy.lookup "crawler").bind asDict).bind fun cfg => readEngine (fun k => cfg.lookup k) x
  | .parser x => readParser (fun path => read path (policy.lookup "extraction")) x

/-- The settings in effect, with the target suffixes or, for custom URLs, without. -/
def effectiveSettings (stripTargetSuffixes : Bool) (s : SettingsState) (x : CrawlSetting) :
    Option Value :=
  ((assembledPolicy stripTargetSuffixes (.dict s.config) (getCrawlPolicy s.setting)).bind asDict).bind
    fun policy => readPolicy policy x

end GovCrawler
