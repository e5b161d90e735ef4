/-
The settings routes of `cloud/api/config.py`, and where they keep what they save.

Settings live in two places: what belongs to this machine in `config.yaml` and in the
configuration in memory, and the crawl policy in the row `crawl_policy` of `app_settings`.
`get_config` shows both as one flat dictionary, and `save_config` takes such a dictionary
apart again.

A value may be anything JSON can carry.  `none` is what raises; no exception says more to the
caller than `Internal Server Error`.
-/
import GovCrawler.Deps
import GovCrawler.Leads.Rescoring
import GovCrawler.Lib.StoreProgram
import GovCrawler.Settings.Values

namespace GovCrawler

open Json StoreProgram Prog

/-! ### The stores -/

/-- The row `crawl_policy` of `app_settings`. -/
structure SettingRow where
  value : Value
  updatedBy : Option Nat

/-- `DEFAULT_WEIGHTS`. -/
def defaultWeights : Dict :=
  [("email_high", .int 20), ("email_low", .int 10), ("person_name", .int 40),
    ("designation", .int 30), ("phone", .int 10)]

/-- `_EMPTY_POLICY`. -/
def emptyPolicy : Value :=
  .dict [("extraction", .dict []), ("lead_score", .dict [("weights", .dict defaultWeights)]),
    ("crawler", .dict [])]

/-- `get_crawl_policy`. -/
def getCrawlPolicy : Option SettingRow → Value
  | none => emptyPolicy
  | some row => row.value

/-- The two ways in which `yaml.dump` is called: with `default_flow_style=False`, and for
`config.yaml` also with `allow_unicode=True, sort_keys=False`. -/
structure Yaml where
  dump : Value → String
  dumpConfig : Value → String

/-! ### `get_config` -/

/-- `d.get(k, {})….get(l, default)`. -/
def getOr (path : List String) (default d : Value) : Option Value :=
  (read path (some d)).map fun v => v.getD default

/-- `d[k]…[l]`. -/
def item (path : List String) (d : Value) : Option Value := (read path (some d)).join

/-- `"\n".join(d.get(k, {})….get(l, []))`. -/
def joined (path : List String) (d : Value) : Option Value :=
  ((getOr path (.list []) d).bind texts).map fun xs => .str (joinLines xs)

mutual

/-- There is no JSON for a number that is not finite. -/
def Value.jsonable : Value → Bool
  | .float (.finite _) => true
  | .float _ => false
  | .list xs => jsonableList xs
  | .dict d => jsonableItems d
  | _ => true

def jsonableList : List Value → Bool
  | [] => true
  | v :: vs => Value.jsonable v && jsonableList vs

def jsonableItems : Dict → Bool
  | [] => true
  | (_, v) :: d => Value.jsonable v && jsonableItems d

end

/-- The entries of what `get_config` returns. -/
def configEntries (yaml : Yaml) (c policy : Value) : List (String × Option Value) :=
  [ ("workers", item ["crawler", "workers"] c),
    ("per_url_timeout", item ["crawler", "per_url_timeout"] c),
    ("httpx_first", getOr ["crawler", "httpx_first"] (.bool true) c),
    ("playwright_fallback", getOr ["crawler", "playwright_fallback"] (.bool true) c),
    ("playwright_timeout", item ["crawler", "playwright_timeout"] c),
    ("js_settle_time", item ["crawler", "js_settle_time"] c),
    ("max_depth", getOr ["crawler", "max_depth"] (.int 4) policy),
    ("recrawl_days", getOr ["crawler", "recrawl_days"] (.int 30) policy),
    ("request_delay", getOr ["crawler", "request_delay"] (.float (.finite (3 / 2))) policy),
    ("email_enabled", getOr ["extraction", "email", "enabled"] (.bool true) policy),
    ("email_context_chars", getOr ["extraction", "email", "context_chars"] (.int 200) policy),
    ("person_enabled", getOr ["extraction", "person", "enabled"] (.bool true) policy),
    ("person_proximity_chars", getOr ["extraction", "person", "proximity_chars"] (.int 300) policy),
    ("weight_email_high", getOr ["lead_score", "weights", "email_high"] (.int 20) policy),
    ("weight_email_low", getOr ["lead_score", "weights", "email_low"] (.int 10) policy),
    ("weight_person_name", getOr ["lead_score", "weights", "person_name"] (.int 40) policy),
    ("weight_designation", getOr ["lead_score", "weights", "designation"] (.int 30) policy),
    ("weight_phone", getOr ["lead_score", "weights", "phone"] (.int 10) policy),
    ("target_suffixes", joined ["crawler", "target_suffixes"] policy),
    ("priority_keywords", joined ["crawler", "priority_keywords"] policy),
    ("skip_extensions", joined ["crawler", "skip_extensions"] policy),
    ("valid_suffixes", joined ["extraction", "email", "valid_suffixes"] policy),
    ("title_prefixes", joined ["extraction", "person", "title_prefixes"] policy),
    ("designation_keywords", joined ["extraction", "person", "designation_keywords"] policy),
    ("max_links_per_page_0", getOr ["crawler", "max_links_per_page", "0"] (.int 30) policy),
    ("max_links_per_page_1", getOr ["crawler", "max_links_per_page", "1"] (.int 15) policy),
    ("max_links_per_page_2", getOr ["crawler", "max_links_per_page", "2"] (.int 8) policy),
    ("max_links_per_page_default",
      getOr ["crawler", "max_links_per_page", "default"] (.int 5) policy),
    ("user_agent", getOr ["crawler", "user_agent"] (.str "") policy),
    ("js_indicators", joined ["crawler", "js_indicators"] policy),
    ("email_regex", getOr ["extraction", "email", "regex"] (.str "") policy),
    ("email_obfuscation",
      (getOr ["extraction", "email", "obfuscation"] (.list []) policy).map fun v =>
        .str (yaml.dump v)),
    ("pagination_enabled", getOr ["crawler", "pagination", "enabled"] (.bool false) policy),
    ("pagination_max_pages",
      getOr ["crawler", "pagination", "max_pagination_pages"] (.int 50) policy),
    ("pagination_max_chain_children",
      getOr ["crawler", "pagination", "max_chain_children"] (.int 100) policy),
    ("pagination_text_signals", joined ["crawler", "pagination", "text_signals"] policy),
    ("pagination_param_signals", joined ["crawler", "pagination", "param_signals"] policy) ]

/-- The dictionary, if none of its entries raises. -/
def collect : List (String × Option Value) → Option Dict
  | [] => some []
  | (k, v) :: entries => v.bind fun v => (collect entries).map fun d => (k, v) :: d

/-- `get_config`, and its reply as JSON. -/
def getConfig (yaml : Yaml) (c policy : Value) : Option Dict :=
  (collect (configEntries yaml c policy)).filter jsonableItems

/-! ### `save_config` -/

/-- `local_int_keys`, `local_float_keys` and `local_bool_keys`. -/
def localKeys : List (String × (Value → Option Value)) :=
  [ ("workers", asInt), ("per_url_timeout", asInt), ("playwright_timeout", asInt),
    ("js_settle_time", asFloat), ("httpx_first", asBool), ("playwright_fallback", asBool) ]

/-- `if k in body: cfg["crawler"][k] = …`. -/
def setLocal (body cfg : Dict) (key : String × (Value → Option Value)) : Option Dict :=
  match body.lookup key.1 with
  | none => some cfg
  | some v =>
      match key.2 v, cfg.lookup "crawler" with
      | some x, some (.dict crawler) => some (setItem "crawler" (.dict (setItem key.1 x crawler)) cfg)
      | _, _ => none

/-- `cfg`: the configuration in memory with what the body changes of it. -/
def editLocal (body c : Dict) : Option Dict := localKeys.foldlM (setLocal body) c

/-- A statement of the part that edits the policy. -/
inductive SaveStep
  | setdefault (path : List String)
  /-- `if bodyKey in body: … = coerce(body[bodyKey])`. -/
  | assign (bodyKey : String) (path : List String) (coerce : Value → Option Value)

/-- What the statement does with this body, if it does anything. -/
def SaveStep.edit (body : Dict) : SaveStep → Option Edit
  | setdefault path => some (.ensure path)
  | assign bodyKey path coerce => (body.lookup bodyKey).map fun v => .write path (coerce v)

/-- The containers that are opened first. -/
def containerSteps : List SaveStep :=
  [ .setdefault ["crawler"], .setdefault ["extraction"], .setdefault ["lead_score", "weights"] ]

def fieldSteps : List SaveStep :=
  [ .assign "max_depth" ["crawler", "max_depth"] asInt,
    .assign "recrawl_days" ["crawler", "recrawl_days"] asInt,
    .assign "request_delay" ["crawler", "request_delay"] asFloat,
    .assign "email_enabled" ["extraction", "email", "enabled"] asBool,
    .assign "email_context_chars" ["extraction", "email", "context_chars"] asInt,
    .assign "person_enabled" ["extraction", "person", "enabled"] asBool,
    .assign "person_proximity_chars" ["extraction", "person", "proximity_chars"] asInt,
    .assign "weight_email_high" ["lead_score", "weights", "email_high"] asInt,
    .assign "weight_email_low" ["lead_score", "weights", "email_low"] asInt,
    .assign "weight_person_name" ["lead_score", "weights", "person_name"] asInt,
    .assign "weight_designation" ["lead_score", "weights", "designation"] asInt,
    .assign "weight_phone" ["lead_score", "weights", "phone"] asInt,
    .assign "target_suffixes" ["crawler", "target_suffixes"] parseList,
    .assign "priority_keywords" ["crawler", "priority_keywords"] parseList,
    .assign "skip_extensions" ["crawler", "skip_extensions"] parseList,
    .assign "valid_suffixes" ["extraction", "email", "valid_suffixes"] parseList,
    .assign "title_prefixes" ["extraction", "person", "title_prefixes"] parseList,
    .assign "designation_keywords" ["extraction", "person", "designation_keywords"] parseList,
    .setdefault ["crawler", "max_links_per_page"],
    .assign "max_links_per_page_0" ["crawler", "max_links_per_page", "0"] asInt,
    .assign "max_links_per_page_1" ["crawler", "max_links_per_page", "1"] asInt,
    .assign "max_links_per_page_2" ["crawler", "max_links_per_page", "2"] asInt,
    .assign "max_links_per_page_default" ["crawler", "max_links_per_page", "default"] asInt,
    .setdefault ["crawler", "pagination"],
    .assign "pagination_enabled" ["crawler", "pagination", "enabled"] asBool,
    .assign "pagination_max_pages" ["crawler", "pagination", "max_pagination_pages"] asInt,
    .assign "pagination_max_chain_children" ["crawler", "pagination", "max_chain_children"] asInt ]

/-- Key and value. -/
def isPair (v : Value) : Bool :=
  match iterate v with
  | some [.list _, _] | some [.dict _, _] => false
  | some [_, _] => true
  | _ => false

/-- `dict(weights)`.  A list of pairs gives a dictionary as well, which is equal to no list. -/
def copyWeights : Value → Option (Option Dict)
  | .dict d => some (some d)
  | v => if ((iterate v).map fun xs => xs.all isPair) = some true then some none else none

/-- `weights != old_weights`. -/
def weightsChanged (weights : Value) : Option Dict → Bool
  | some old => !weights.same (.dict old)
  | none => true

def editPolicyWith (body : Dict) (steps : List SaveStep) (policy : Value) : Option Value :=
  editAll (steps.filterMap (SaveStep.edit body)) policy

/-- The edited policy, and whether the weights are others. -/
def editPolicy (body : Dict) (policy : Value) : Option (Value × Bool) := do
  let policy ← editPolicyWith body containerSteps policy
  let oldWeights ← (item ["lead_score", "weights"] policy).bind copyWeights
  let policy ← editPolicyWith body fieldSteps policy
  let weights ← item ["lead_score", "weights"] policy
  some (policy, weightsChanged weights oldWeights)

structure AuditEntry where
  userId : Nat
  action : String
  fields : List String
  ip : Option String
  deriving DecidableEq, Repr

/-- What `save_config` touches; `config` is the configuration in memory. -/
structure SettingsState where
  setting : Option SettingRow
  config : Dict
  file : String
  tmpFile : Option String := none
  leads : List Lead := []
  audit : List AuditEntry := []

structure SaveReply where
  message : String
  /-- `recompute_lead_scores` is to be run in the background. -/
  recompute : Bool
  deriving DecidableEq, Repr

abbrev SettingsM (α : Type) : Type := Prog HttpError SettingsState α

/-- What raises ends the request. -/
def orRaise {α : Type} : Option α → SettingsM α
  | some a => pure a
  | none => raise ⟨500, "Internal Server Error"⟩

def setAppSetting (value : Value) (updatedBy : Option Nat) : SettingsM Unit :=
  write fun s => { s with setting := some ⟨value, updatedBy⟩ }

def saveConfig (yaml : Yaml) (body : Dict) (user : CurrentUser) (ip : Option String) :
    SettingsM SaveReply := do
  let c ← act fun s => (s.config, s)
  let cfg ← orRaise (editLocal body c)
  let stored ← read fun s => getCrawlPolicy s.setting
  let (policy, changed) ← orRaise (editPolicy body stored)
  setAppSetting policy (some user.id)
  write fun s => { s with tmpFile := some "" }
  write fun s => { s with tmpFile := some (yaml.dumpConfig (.dict cfg)) }
  -- `os.replace`
  write fun s => { s with file := s.tmpFile.getD s.file, tmpFile := none }
  act fun s => ((), { s with config := merge s.config cfg })
  let fields := (body.map Prod.fst).mergeSort fun a b => a ≤ b
  write fun s => { s with audit := s.audit ++ [⟨user.id, "settings.update", fields, ip⟩] }
  return ⟨"Settings saved. Crawler settings take effect on the next job.", changed⟩

end GovCrawler
