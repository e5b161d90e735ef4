/-
How a process comes by its configuration: `load_config` in `portal/config.py`, and the secrets that
are made once and kept in `config.yaml`, `ensure_credential_enc_key` in `cloud/security/crypto.py`
and `_ensure_jwt_secret` in `cloud/api/server.py`.

The API and the dispatch service run beside each other, are stopped and started again, and may die
at any point, also while they write the file; and the API writes it again whenever settings are
saved.

`secrets_survive`: when one start of the API has gone through, every process that comes up later,
and every one that goes on, has its two secrets, as long as none is given others by its
environment.

What `yaml.dump` has written, `yaml.safe_load` reads as it was; the file is what is read of it.
Keys of the defaults that are numbers are their digits here, as they are in the database.
-/
import GovCrawler.Lib.Transition
import GovCrawler.Settings.RoundTrip

namespace GovCrawler

open Json Transition

/-! ### `load_config` -/

def crawlerDefaults : Value :=
  .dict
    [("workers", .int 10), ("max_depth", .int 4), ("recrawl_days", .int 30),
      ("httpx_first", .bool true), ("playwright_fallback", .bool false),
      ("httpx_timeout", .dict [("connect", .int 10), ("read", .int 30)]),
      ("playwright_timeout", .int 45), ("js_settle_time", .float (.finite 3)),
      ("per_url_timeout", .int 100), ("request_delay", .float (.finite (3 / 2))),
      ("max_links_per_page",
        .dict [("0", .int 100), ("1", .int 50), ("2", .int 40), ("default", .int 20)]),
      ("target_suffixes", .list ([".gov.in", ".nic.in"].map .str)), ("max_custom_urls", .int 50),
      ("priority_keywords",
        .list (["contact", "officer", "directory", "whos-who", "who-is-who", "staff", "personnel",
          "secretariat", "about-us", "division", "minister", "committee", "administration", "team",
          "telephone", "tele-directory", "phone-directory", "email"].map .str)),
      ("skip_extensions",
        .list ([".pdf", ".doc", ".docx", ".xls", ".xlsx", ".ppt", ".pptx", ".zip", ".rar", ".7z",
          ".tar", ".gz", ".jpg", ".jpeg", ".png", ".gif", ".svg", ".ico", ".mp4", ".mp3", ".avi",
          ".mov"].map .str)),
      ("js_indicators",
        .list (["<div id=\"__next\"", "<div id=\"root\"", "Please enable JavaScript",
          "You need to enable JavaScript", "This page requires JavaScript"].map .str)),
      ("user_agent",
        .str ("Mozilla/5.0 (X11; Linux x86_64) AppleWebKit/537.36 " ++
          "(KHTML, like Gecko) Chrome/124.0.0.0 Safari/537.36")),
      ("pagination",
        .dict [("enabled", .bool true), ("max_pagination_pages", .int 50),
          ("max_chain_children", .int 100),
          ("text_signals", .list (["next", "\u00bb", "\u203a", "more", "last"].map .str)),
          ("param_signals", .list (["page", "pageno", "start", "offset", "p"].map .str))])]

def extractionDefaults : Value :=
  .dict
    [("email",
        .dict [("enabled", .bool true),
          ("regex", .str "[a-zA-Z0-9._%+\\-]+@(?:[a-zA-Z0-9\\-]+\\.)+[a-zA-Z]\x7b2,6\x7d"),
          ("valid_suffixes", .list ([".gov.in", ".nic.in", ".res.in", ".ac.in", ".com"].map .str)),
          ("obfuscation",
            .list [.list (["\\s*\\[at\\]\\s*", "@"].map .str),
              .list (["\\s*\\(at\\)\\s*", "@"].map .str),
              .list (["\\s*\\[dot\\]\\s*", "."].map .str),
              .list (["\\s*\\(dot\\)\\s*", "."].map .str),
              .list (["\\s*\\[hyphen\\]\\s*", "-"].map .str),
              .list (["\\s*\\(hyphen\\)\\s*", "-"].map .str)]),
          ("context_chars", .int 200)]),
      ("max_input_chars", .int 200000),
      ("role_local_parts",
        .list (["webmaster", "info", "admin", "contact", "support", "helpdesk",
          "grievance"].map .str)),
      ("confidence", .dict [("high_rungs", .list (["mailto_tel", "microdata"].map .str))]),
      ("person",
        .dict [("enabled", .bool true),
          ("title_prefixes",
            .list (["Shri", "Smt", "Dr", "Mr", "Mrs", "Ms", "Prof", "Sh", "Shrimati",
              "Km"].map .str)),
          ("designation_keywords",
            .list (["Secretary", "Director", "Commissioner", "Collector", "Superintendent",
              "Inspector", "Officer", "Manager", "Chairman", "President", "Minister", "Deputy",
              "Additional", "Principal", "Chief", "Joint", "Under Secretary", "IAS", "IPS", "IFS",
              "IRS", "Jt", "Jr", "Junior"].map .str)),
          ("proximity_chars", .int 300)])]

/-- `_CLOUD_DEFAULTS`. -/
def cloudDefaults : Value :=
  .dict
    [("database", .dict [("uri", .str "sqlite:///portal/data/govcrawler.db")]),
      ("api", .dict [("host", .str "127.0.0.1"), ("port", .int 8001)]),
      ("scraper", .dict [("category_filter", .str ""), ("org_type_filter", .str "")]),
      ("crawler", crawlerDefaults),
      ("extraction", extractionDefaults),
      ("lead_score", .dict [("weights", .dict defaultWeights)]),
      ("auth",
        .dict [("jwt_secret", .str ""), ("access_ttl_minutes", .int 15),
          ("refresh_ttl_days", .int 14), ("cookie_secure", .bool false),
          ("lockout_threshold", .int 5), ("lockout_minutes", .int 15),
          ("login_rate_limit_attempts", .int 20), ("login_rate_limit_window_minutes", .int 15)]),
      ("dispatch", .dict [("mode", .str "embedded")]),
      ("oauth",
        .dict [("redirect_base_url", .str ""), ("microsoft", .dict [("client_id", .str "")]),
          ("google", .dict [("client_id", .str ""), ("client_secret", .str "")])])]

/-- `os.environ`. -/
abbrev Environ : Type := String → Option String

/-- A variable that is set, and not to nothing. -/
def Environ.var (env : Environ) (name : String) : Option String :=
  (env name).filter fun text => text ≠ ""

/-- `config.yaml`. -/
inductive ConfigFile
  | missing
  /-- It is no YAML. -/
  | malformed
  | value (v : Value)

/-- A variable that overrides what is at a path; `none` where its text is refused. -/
def overrideWith (env : Environ) (name : String) (path : List String)
    (coerce : String → Option Value) (config : Value) : Option Value :=
  match env.var name with
  | none => some config
  | some text => (coerce text).bind fun v => Json.write path v config

def overrideText (env : Environ) (name : String) (path : List String) : Value → Option Value :=
  overrideWith env name path fun text => some (.str text)

/-- `DATABASE_URL` counts where `DATABASE_URL_APP` is not set. -/
def Environ.databaseVar (env : Environ) : String :=
  if (env.var "DATABASE_URL_APP").isSome then "DATABASE_URL_APP" else "DATABASE_URL"

/-- The overrides of `load_config`. -/
def envOverrides (lower : String → String) (env : Environ) (config : Value) : Option Value := do
  let config ← overrideText env env.databaseVar ["database", "uri"] config
  let config ← overrideText env "API_HOST" ["api", "host"] config
  let config ← overrideWith env "API_PORT" ["api", "port"] (fun text => asInt (.str text)) config
  let config ← overrideText env "DISPATCH_MODE" ["dispatch", "mode"] config
  let config ← overrideText env "ADMIN_ORIGIN" ["auth", "admin_origin"] config
  let config ← overrideWith env "COOKIE_SECURE" ["auth", "cookie_secure"]
    (fun text => some (.bool (lower text = "true"))) config
  let config ← overrideText env "OAUTH_REDIRECT_BASE_URL" ["oauth", "redirect_base_url"] config
  let config ← overrideText env "OAUTH_MS_CLIENT_ID" ["oauth", "microsoft", "client_id"] config
  let config ← overrideText env "OAUTH_GOOGLE_CLIENT_ID" ["oauth", "google", "client_id"] config
  overrideText env "OAUTH_GOOGLE_CLIENT_SECRET" ["oauth", "google", "client_secret"] config

/-- `load_config`.  A file that is falsy, such as an empty one, is as good as none. -/
def loadConfig (lower : String → String) (env : Environ) : ConfigFile → Option Value
  | .missing => envOverrides lower env cloudDefaults
  | .malformed => none
  | .value (.dict o) => envOverrides lower env (deepMerge cloudDefaults (.dict o))
  | .value v => if toBool v then none else envOverrides lower env cloudDefaults

/-! ### The secrets -/

/-- What `Fernet.generate_key` and `secrets.token_urlsafe` make. -/
abbrev Generated : Type := { text : String // text ≠ "" }

def keyPath : List String := ["auth", "credential_enc_key"]

def prevKeyPath : List String := ["auth", "credential_enc_key_prev"]

def secretPath : List String := ["auth", "jwt_secret"]

def prevSecretPath : List String := ["auth", "jwt_secret_prev"]

/-- `config_dict.get("auth", {}).get(k)`, if it is truthy. -/
def configured (path : List String) (config : Value) : Option (Option Value) :=
  (read path (some config)).map fun v => v.filter toBool

/-- What a start has done: the configuration, and what was written of it to the file. -/
structure Ensured (α : Type) where
  config : Value
  result : α
  written : Option Value := none

/-- The first key of the chain, which `ensure_credential_enc_key` generates where there is none. -/
def primaryKey (env : Environ) (generated : Generated) (config : Value) : Option (Ensured Value) :=
  match env.var "CREDENTIAL_ENC_KEY" with
  | some key => some ⟨config, .str key, none⟩
  | none => do
      match ← configured keyPath config with
      | some existing => some ⟨config, existing, none⟩
      | none =>
          let config ← Json.write keyPath (.str generated.val) config
          some ⟨config, .str generated.val, some config⟩

def previousKey (env : Environ) (config : Value) : Option (Option Value) :=
  match env.var "CREDENTIAL_ENC_KEY_PREV" with
  | some prev => some (some (.str prev))
  | none => configured prevKeyPath config

/-- `ensure_credential_enc_key`, which returns the chain of keys. -/
def ensureCredentialEncKey (env : Environ) (generated : Generated) (config : Value) :
    Option (Ensured (List Value)) := do
  let e ← primaryKey env generated config
  let config ← Json.write keyPath e.result e.config
  match ← previousKey env config with
  | none => some ⟨config, [e.result], e.written⟩
  | some prev => do
      let config ← Json.write prevKeyPath prev config
      some ⟨config, [e.result, prev], e.written⟩

/-- `_ensure_jwt_secret`. -/
def ensureJwtSecret (env : Environ) (generated : Generated) (config : Value) :
    Option (Ensured Unit) := do
  let config ← overrideText env "JWT_SECRET_PREV" prevSecretPath config
  match env.var "JWT_SECRET" with
  | some secret => do
      let config ← Json.write secretPath (.str secret) config
      some ⟨config, (), none⟩
  | none => do
      match ← configured secretPath config with
      | some _ => some ⟨config, (), none⟩
      | none =>
          let config ← Json.write secretPath (.str generated.val) config
          some ⟨config, (), some config⟩

/-! ### Processes -/

/-- How far a process has come up. -/
inductive StartPc
  | loaded
  /-- Its `Database` is there.  The dispatch service is up. -/
  | database
  /-- The app is created.  The API is up. -/
  | serving
  deriving DecidableEq, Repr

structure PortalProcess where
  pc : StartPc
  env : Environ
  config : Value
  keys : List Value := []

/-- A machine: its `config.yaml` and what runs on it. -/
structure Machine where
  file : ConfigFile
  processes : List PortalProcess := []

inductive MachineAction
  /-- A process starts, and `load_config` goes through. -/
  | load (env : Environ)
  | database (i : Nat) (generated : Generated)
  | createApp (i : Nat) (generated : Generated)
  /-- `save_config` replaces the file. -/
  | save (i : Nat) (body : Dict)
  /-- A process ends. -/
  | die (i : Nat)
  /-- A process that generates a secret dies while it writes the file. -/
  | tear (i : Nat) (left : ConfigFile) (generated : Generated)

namespace Machine

variable (lower : String → String) (s : Machine)

/-- What a start has written is in the file. -/
def put : Option Value → ConfigFile → ConfigFile
  | none, file => file
  | some v, _ => .value v

/-- What the process would write next. -/
def writes (generated : Generated) (p : PortalProcess) : Bool :=
  match p.pc with
  | .loaded => ((ensureCredentialEncKey p.env generated p.config).bind Ensured.written).isSome
  | .database => ((ensureJwtSecret p.env generated p.config).bind Ensured.written).isSome
  | .serving => false

def step : MachineAction → Option Machine
  | .load env =>
      (loadConfig lower env s.file).map fun config =>
        { s with processes := s.processes ++ [{ pc := .loaded, env, config }] }
  | .database i generated => do
      let p ← s.processes[i]?
      if p.pc = .loaded then
        let e ← ensureCredentialEncKey p.env generated p.config
        some
          { file := put e.written s.file
            processes := s.processes.set i
              { p with pc := .database, config := e.config, keys := e.result } }
      else none
  | .createApp i generated => do
      let p ← s.processes[i]?
      if p.pc = .database then
        let e ← ensureJwtSecret p.env generated p.config
        some
          { file := put e.written s.file
            processes := s.processes.set i { p with pc := .serving, config := e.config } }
      else none
  | .save i body => do
      let p ← s.processes[i]?
      match p.pc, p.config with
      | .serving, .dict c => do
          let cfg ← editLocal body c
          some
            { file := .value (.dict cfg)
              processes := s.processes.set i { p with config := .dict (merge c cfg) } }
      | _, _ => none
  | .die i =>
      if i < s.processes.length then some { s with processes := s.processes.eraseIdx i } else none
  | .tear i left generated => do
      let p ← s.processes[i]?
      if writes generated p then some { file := left, processes := s.processes.eraseIdx i }
      else none

end Machine

/-! ### Configurations with both secrets -/

/-- Both secrets, each where it is kept. -/
structure HasSecrets (key secret config : Value) : Prop where
  key : read keyPath (some config) = some (some key)
  secret : read secretPath (some config) = some (some secret)

/-- The environment gives neither of the two. -/
structure Environ.GivesNone (env : Environ) : Prop where
  key : env.var "CREDENTIAL_ENC_KEY" = none
  secret : env.var "JWT_SECRET" = none

/-- Where neither secret is. -/
def Aside (path : List String) : Prop := apart path keyPath = true ∧ apart path secretPath = true

instance (path : List String) : Decidable (Aside path) := inferInstanceAs (Decidable (_ ∧ _))

/-- What is along the two paths stays. -/
structure SameSecrets (v w : Value) : Prop where
  key : read keyPath (some w) = read keyPath (some v)
  secret : read secretPath (some w) = read secretPath (some v)

theorem SameSecrets.refl (v : Value) : SameSecrets v v := ⟨rfl, rfl⟩

theorem SameSecrets.trans {u v w : Value} (h : SameSecrets u v) (h' : SameSecrets v w) :
    SameSecrets u w :=
  ⟨h'.key.trans h.key, h'.secret.trans h.secret⟩

theorem HasSecrets.of_same {key secret v w : Value} (h : HasSecrets key secret v)
    (hsame : SameSecrets v w) : HasSecrets key secret w :=
  ⟨hsame.key.trans h.key, hsame.secret.trans h.secret⟩

theorem sameSecrets_write {path : List String} (haside : Aside path) {new v w : Value}
    (h : Json.write path new v = some w) : SameSecrets v w :=
  ⟨read_update_of_apart haside.1 h, read_update_of_apart haside.2 h⟩

theorem sameSecrets_override {env : Environ} {name : String} {path : List String}
    {coerce : String → Option Value} (haside : Aside path) {v w : Value}
    (h : overrideWith env name path coerce v = some w) : SameSecrets v w := by
  unfold overrideWith at h
  split at h
  · exact Option.some.inj h ▸ SameSecrets.refl v
  · obtain ⟨new, -, hw⟩ := Option.bind_eq_some_iff.mp h
    exact sameSecrets_write haside hw

theorem sameSecrets_bind {f g : Value → Option Value}
    (hf : ∀ v w, f v = some w → SameSecrets v w) (hg : ∀ v w, g v = some w → SameSecrets v w)
    (v w : Value) (h : (f v).bind g = some w) : SameSecrets v w := by
  obtain ⟨u, hu, hw⟩ := Option.bind_eq_some_iff.mp h
  exact (hf v u hu).trans (hg u w hw)

/-- No variable that `load_config` reads is about a secret. -/
theorem sameSecrets_envOverrides (lower : String → String) (env : Environ) (v w : Value)
    (h : envOverrides lower env v = some w) : SameSecrets v w := by
  have hover : ∀ (name : String) (path : List String) (coerce : String → Option Value),
      Aside path → ∀ v w, overrideWith env name path coerce v = some w → SameSecrets v w :=
    fun _ _ _ haside _ _ => sameSecrets_override haside
  unfold envOverrides at h
  refine sameSecrets_bind (hover _ _ _ (by decide)) ?_ v w h
  refine sameSecrets_bind (hover _ _ _ (by decide)) ?_
  refine sameSecrets_bind (hover _ _ _ (by decide)) ?_
  refine sameSecrets_bind (hover _ _ _ (by decide)) ?_
  refine sameSecrets_bind (hover _ _ _ (by decide)) ?_
  refine sameSecrets_bind (hover _ _ _ (by decide)) ?_
  refine sameSecrets_bind (hover _ _ _ (by decide)) ?_
  refine sameSecrets_bind (hover _ _ _ (by decide)) ?_
  exact sameSecrets_bind (hover _ _ _ (by decide)) (hover _ _ _ (by decide))

theorem read_keyPath_cloudDefaults : read keyPath (some cloudDefaults) = some none := rfl

theorem read_secretPath_cloudDefaults :
    read secretPath (some cloudDefaults) = some (some (.str "")) := rfl

/-- The secrets of a file are those of whoever loads it. -/
theorem HasSecrets.of_loadConfig {lower : String → String} {env : Environ} {o : Dict}
    {key secret config : Value} (h : HasSecrets key secret (.dict o))
    (hload : loadConfig lower env (.value (.dict o)) = some config) :
    HasSecrets key secret config := by
  refine HasSecrets.of_same ⟨?_, ?_⟩ (sameSecrets_envOverrides lower env _ _ hload)
  · refine read_deepMerge h.key fun d hd => ?_
    rw [read_keyPath_cloudDefaults] at hd
    cases hd
  · refine read_deepMerge h.secret fun d hd => ?_
    rw [read_secretPath_cloudDefaults] at hd
    cases hd

/-- What is along a path of what was loaded, and is no default, is in the file. -/
theorem exists_of_loadConfig {lower : String → String} {env : Environ} {file : ConfigFile}
    {path : List String} {v config : Value}
    (hsame : ∀ u w, envOverrides lower env u = some w → read path (some w) = read path (some u))
    (hbase : ∀ d, read path (some cloudDefaults) ≠ some (some (.dict d)))
    (hdefault : read path (some cloudDefaults) ≠ some (some v))
    (hload : loadConfig lower env file = some config)
    (hread : read path (some config) = some (some v)) :
    ∃ o, file = .value (.dict o) ∧ read path (some (.dict o)) = some (some v) := by
  have hnot : envOverrides lower env cloudDefaults ≠ some config := fun h =>
    hdefault ((hsame _ _ h).symm.trans hread)
  unfold loadConfig at hload
  split at hload
  · exact absurd hload hnot
  · cases hload
  · next o =>
      rw [hsame _ _ hload] at hread
      exact ⟨o, rfl, (of_read_deepMerge hread hbase).resolve_right hdefault⟩
  · split at hload
    · cases hload
    · exact absurd hload hnot

/-- The secrets of what was loaded are the file's. -/
theorem exists_hasSecrets {lower : String → String} {env : Environ} {file : ConfigFile}
    {key secret config : Value} (hsecret : toBool secret = true)
    (hload : loadConfig lower env file = some config) (h : HasSecrets key secret config) :
    ∃ o, file = .value (.dict o) ∧ HasSecrets key secret (.dict o) := by
  have hsame := sameSecrets_envOverrides lower env
  obtain ⟨o, rfl, ho⟩ := exists_of_loadConfig (fun u w hw => (hsame u w hw).key)
    (fun d hd => by rw [read_keyPath_cloudDefaults] at hd; cases hd)
    (fun hd => by rw [read_keyPath_cloudDefaults] at hd; cases hd) hload h.key
  obtain ⟨o', hfile, ho'⟩ := exists_of_loadConfig (fun u w hw => (hsame u w hw).secret)
    (fun d hd => by rw [read_secretPath_cloudDefaults] at hd; cases hd)
    (fun hd => by
      rw [read_secretPath_cloudDefaults] at hd
      obtain rfl : .str "" = secret := Option.some.inj (Option.some.inj hd)
      cases hsecret) hload h.secret
  cases hfile
  exact ⟨o, rfl, ho, ho'⟩

/-! ### What a start ensures -/

theorem configured_of_read {path : List String} {v config : Value}
    (hread : read path (some config) = some (some v)) (hv : toBool v = true) :
    configured path config = some (some v) := by
  unfold configured
  rw [hread, Option.map_some, Option.filter_some, if_pos hv]

theorem read_of_configured {path : List String} {v config : Value}
    (h : configured path config = some (some v)) :
    read path (some config) = some (some v) ∧ toBool v = true := by
  obtain ⟨u, hu, hfilter⟩ := Option.map_eq_some_iff.mp h
  obtain ⟨rfl, hv⟩ := Option.filter_eq_some_iff.mp hfilter
  exact ⟨hu, hv⟩

theorem exists_dict_of_write {k : String} {ks : List String} {new v w : Value}
    (h : Json.write (k :: ks) new v = some w) : ∃ d, w = .dict d := by
  have habove : ∃ d, read [] (some w) = some (some (.dict d)) := read_update_above h
  obtain ⟨d, hd⟩ := habove
  exact ⟨d, Option.some.inj (Option.some.inj hd)⟩

theorem read_write_self {path : List String} {new v w : Value}
    (h : Json.write path new v = some w) : read path (some w) = some (some new) := by
  have hsome : (read path (some v)).isSome = true := by
    rw [← update_isSome fun _ => new]
    exact Option.isSome_of_eq_some h
  rw [read_update_self h]
  obtain ⟨old, hold⟩ := Option.isSome_iff_exists.mp hsome
  rw [hold]
  rfl

/-- The secret `v` is along `path` now: it was there, or it was generated, and is in the file as
well.  The secret along `other` is as it was. -/
structure EnsuredAt {α : Type} (path other : List String) (config : Value) (e : Ensured α)
    (v : Value) : Prop where
  truthy : toBool v = true
  here : read path (some e.config) = some (some v)
  aside : read other (some e.config) = read other (some config)
  written : (e.written = none ∧ read path (some config) = some (some v)) ∨
    ∃ o, e.written = some (.dict o) ∧ configured path config = some none ∧
      read path (some (.dict o)) = some (some v) ∧
      read other (some (.dict o)) = read other (some config)

/-- A secret that is there is not written. -/
theorem EnsuredAt.of_present {α : Type} {path other : List String} {config v w : Value}
    {e : Ensured α} (h : EnsuredAt path other config e v)
    (hread : read path (some config) = some (some w)) (hw : toBool w = true) :
    e.written = none ∧ w = v := by
  rcases h.written with ⟨hnone, hv⟩ | ⟨-, -, hmissing, -⟩
  · rw [hread] at hv
    exact ⟨hnone, Option.some.inj (Option.some.inj hv)⟩
  · rw [configured_of_read hread hw] at hmissing
    cases hmissing

theorem toBool_generated (generated : Generated) : toBool (.str generated.val) = true :=
  decide_eq_true generated.property

variable {env : Environ} {generated : Generated} {config : Value}

theorem ensureCredentialEncKey_spec (henv : env.GivesNone) {e : Ensured (List Value)}
    (h : ensureCredentialEncKey env generated config = some e) :
    ∃ key, e.result.head? = some key ∧ EnsuredAt keyPath secretPath config e key := by
  unfold ensureCredentialEncKey at h
  obtain ⟨e₀, he₀, h⟩ := Option.bind_eq_some_iff.mp h
  obtain ⟨c, hc, h⟩ := Option.bind_eq_some_iff.mp h
  obtain ⟨prev, -, h⟩ := Option.bind_eq_some_iff.mp h
  -- the key, before it is put in its place once more
  have hfound : EnsuredAt keyPath secretPath config e₀ e₀.result := by
    unfold primaryKey at he₀
    rw [henv.key] at he₀
    obtain ⟨existing, hexisting, he₀⟩ := Option.bind_eq_some_iff.mp he₀
    cases existing with
    | some existing =>
        obtain rfl := Option.some.inj he₀
        obtain ⟨hread, htruthy⟩ := read_of_configured hexisting
        exact ⟨htruthy, hread, rfl, Or.inl ⟨rfl, hread⟩⟩
    | none =>
        obtain ⟨w, hw, he₀⟩ := Option.bind_eq_some_iff.mp he₀
        obtain rfl := Option.some.inj he₀
        obtain ⟨o, rfl⟩ := exists_dict_of_write hw
        have hself := read_write_self hw
        have hother : read secretPath (some (.dict o)) = read secretPath (some config) :=
          read_update_of_apart (by decide) hw
        exact ⟨toBool_generated generated, hself, hother,
          Or.inr ⟨o, rfl, hexisting, hself, hother⟩⟩
  have hplaced : EnsuredAt keyPath secretPath config { e₀ with config := c } e₀.result :=
    { hfound with
      here := read_write_self hc
      aside := (read_update_of_apart (by decide) hc).trans hfound.aside }
  cases prev with
  | none =>
      obtain rfl := Option.some.inj h
      exact ⟨e₀.result, rfl, hplaced.truthy, hplaced.here, hplaced.aside, hplaced.written⟩
  | some prev =>
      obtain ⟨c', hc', h⟩ := Option.bind_eq_some_iff.mp h
      obtain rfl := Option.some.inj h
      have hsame : SameSecrets c c' := sameSecrets_write (by decide) hc'
      exact ⟨e₀.result, rfl, hplaced.truthy, hsame.key.trans hplaced.here,
        hsame.secret.trans hplaced.aside, hplaced.written⟩

theorem ensureJwtSecret_spec (henv : env.GivesNone) {e : Ensured Unit}
    (h : ensureJwtSecret env generated config = some e) :
    ∃ secret, EnsuredAt secretPath keyPath config e secret := by
  unfold ensureJwtSecret at h
  obtain ⟨c, hc, h⟩ := Option.bind_eq_some_iff.mp h
  have hsame : SameSecrets config c := sameSecrets_override (by decide) hc
  rw [henv.secret] at h
  obtain ⟨existing, hexisting, h⟩ := Option.bind_eq_some_iff.mp h
  cases existing with
  | some existing =>
      obtain rfl := Option.some.inj h
      obtain ⟨hread, htruthy⟩ := read_of_configured hexisting
      exact ⟨existing, htruthy, hread, hsame.key,
        Or.inl ⟨rfl, hsame.secret.symm.trans hread⟩⟩
  | none =>
      obtain ⟨w, hw, h⟩ := Option.bind_eq_some_iff.mp h
      obtain rfl := Option.some.inj h
      obtain ⟨o, rfl⟩ := exists_dict_of_write hw
      have hself := read_write_self hw
      have hother : read keyPath (some (.dict o)) = read keyPath (some config) :=
        (read_update_of_apart (by decide) hw).trans hsame.key
      refine ⟨.str generated.val, toBool_generated generated, hself, hother,
        Or.inr ⟨o, rfl, ?_, hself, hother⟩⟩
      unfold configured
      rw [← hsame.secret]
      exact hexisting

/-! ### Settled machines -/

/-- A process that has the two secrets. -/
structure PortalProcess.Settled (key secret : Value) (p : PortalProcess) : Prop where
  env : p.env.GivesNone
  config : HasSecrets key secret p.config
  keys : p.pc ≠ .loaded → p.keys.head? = some key

namespace Machine

/-- The file has the two secrets, and so has every process. -/
structure Settled (key secret : Value) (s : Machine) : Prop where
  key_truthy : toBool key = true
  secret_truthy : toBool secret = true
  file : ∃ o, s.file = .value (.dict o) ∧ HasSecrets key secret (.dict o)
  processes : ∀ p ∈ s.processes, p.Settled key secret

/-- A process that starts is given no secret by its environment. -/
def GivesNone : MachineAction → Prop
  | .load env => env.GivesNone
  | _ => True

variable {lower : String → String} {key secret : Value} {s s' : Machine}

theorem Settled.getElem? (h : s.Settled key secret) {i : Nat} {p : PortalProcess}
    (hp : s.processes[i]? = some p) : p.Settled key secret :=
  h.processes p (List.mem_of_getElem? hp)

/-- One process moves on, and the file keeps the secrets. -/
theorem Settled.set (h : s.Settled key secret) {p : PortalProcess} (hp : p.Settled key secret)
    {file : ConfigFile} (hfile : ∃ o, file = .value (.dict o) ∧ HasSecrets key secret (.dict o))
    (i : Nat) : Settled key secret ⟨file, s.processes.set i p⟩ where
  key_truthy := h.key_truthy
  secret_truthy := h.secret_truthy
  file := hfile
  processes q hq := by
    rcases List.mem_or_eq_of_mem_set hq with hq | rfl
    · exact h.processes q hq
    · exact hp

/-- Coming up, a settled process writes nothing. -/
theorem writes_eq_false (h : s.Settled key secret) {p : PortalProcess}
    (hp : p.Settled key secret) (generated : Generated) : writes generated p = false := by
  unfold writes
  cases p.pc with
  | loaded =>
      cases he : ensureCredentialEncKey p.env generated p.config with
      | none => rfl
      | some e =>
          obtain ⟨_, -, hensured⟩ := ensureCredentialEncKey_spec hp.env he
          rw [Option.bind_some, (hensured.of_present hp.config.key h.key_truthy).1]
          rfl
  | database =>
      cases he : ensureJwtSecret p.env generated p.config with
      | none => rfl
      | some e =>
          obtain ⟨_, hensured⟩ := ensureJwtSecret_spec hp.env he
          rw [Option.bind_some, (hensured.of_present hp.config.secret h.secret_truthy).1]
          rfl
  | serving => rfl

theorem Settled.step_load (h : s.Settled key secret) {env : Environ} (henv : env.GivesNone)
    (hs : step lower s (.load env) = some s') : s'.Settled key secret := by
  obtain ⟨config, hload, rfl⟩ := Option.map_eq_some_iff.mp hs
  obtain ⟨o, hfile, hsecrets⟩ := h.file
  rw [hfile] at hload
  refine ⟨h.key_truthy, h.secret_truthy, h.file, fun p hp => ?_⟩
  rcases List.mem_append.mp hp with hp | hp
  · exact h.processes p hp
  · obtain rfl := List.mem_singleton.mp hp
    exact ⟨henv, hsecrets.of_loadConfig hload, fun hne => absurd rfl hne⟩

theorem Settled.step_database (h : s.Settled key secret) {i : Nat} {generated : Generated}
    (hs : step lower s (.database i generated) = some s') : s'.Settled key secret := by
  obtain ⟨p, hp, hs⟩ := Option.bind_eq_some_iff.mp hs
  split at hs
  · obtain ⟨e, he, hs⟩ := Option.bind_eq_some_iff.mp hs
    obtain rfl := Option.some.inj hs
    have hsettled := h.getElem? hp
    obtain ⟨k, hhead, hensured⟩ := ensureCredentialEncKey_spec hsettled.env he
    obtain ⟨hwritten, rfl⟩ := hensured.of_present hsettled.config.key h.key_truthy
    have hnew : PortalProcess.Settled key secret
        { p with pc := .database, config := e.config, keys := e.result } :=
      { env := hsettled.env
        config := ⟨hensured.here, hensured.aside.trans hsettled.config.secret⟩
        keys := fun _ => hhead }
    rw [hwritten]
    exact h.set hnew h.file i
  · cases hs

theorem Settled.step_createApp (h : s.Settled key secret) {i : Nat} {generated : Generated}
    (hs : step lower s (.createApp i generated) = some s') : s'.Settled key secret := by
  obtain ⟨p, hp, hs⟩ := Option.bind_eq_some_iff.mp hs
  split at hs
  · next hpc =>
      obtain ⟨e, he, hs⟩ := Option.bind_eq_some_iff.mp hs
      obtain rfl := Option.some.inj hs
      have hsettled := h.getElem? hp
      obtain ⟨v, hensured⟩ := ensureJwtSecret_spec hsettled.env he
      obtain ⟨hwritten, rfl⟩ := hensured.of_present hsettled.config.secret h.secret_truthy
      have hnew : PortalProcess.Settled key secret { p with pc := .serving, config := e.config } :=
        { env := hsettled.env
          config := ⟨hensured.aside.trans hsettled.config.key, hensured.here⟩
          keys := fun _ => hsettled.keys (hpc ▸ nofun) }
      rw [hwritten]
      exact h.set hnew h.file i
  · cases hs

/-- The settings that are saved are about the crawler. -/
theorem Settled.step_save (h : s.Settled key secret) {i : Nat} {body : Dict}
    (hs : step lower s (.save i body) = some s') : s'.Settled key secret := by
  obtain ⟨p, hp, hs⟩ := Option.bind_eq_some_iff.mp hs
  have hsettled := h.getElem? hp
  split at hs
  · next c _ hconfig =>
      obtain ⟨cfg, hcfg, hs⟩ := Option.bind_eq_some_iff.mp hs
      obtain rfl := Option.some.inj hs
      have hc : HasSecrets key secret (.dict c) := hconfig ▸ hsettled.config
      have hsaved : HasSecrets key secret (.dict cfg) :=
        ⟨(read_machine (by decide +kernel) hcfg).trans hc.key,
          (read_machine (by decide +kernel) hcfg).trans hc.secret⟩
      have hmerged : ∀ path v, read path (some (.dict cfg)) = some v → path ≠ [] →
          read path (some (.dict (merge c cfg))) = some v := by
        intro path v hread hne
        cases path with
        | nil => exact absurd rfl hne
        | cons k ks =>
            rw [read_dict, lookup_merge_editLocal hcfg, ← read_dict]
            exact hread
      have hnew : PortalProcess.Settled key secret { p with config := .dict (merge c cfg) } :=
        { env := hsettled.env
          config := ⟨hmerged _ _ hsaved.key nofun, hmerged _ _ hsaved.secret nofun⟩
          keys := hsettled.keys }
      exact h.set hnew ⟨cfg, rfl, hsaved⟩ i
  · cases hs

theorem Settled.step {a : MachineAction} (h : s.Settled key secret) (ha : GivesNone a)
    (hs : step lower s a = some s') : s'.Settled key secret := by
  cases a with
  | load env => exact h.step_load ha hs
  | database i generated => exact h.step_database hs
  | createApp i generated => exact h.step_createApp hs
  | save i body => exact h.step_save hs
  | die i =>
      obtain ⟨-, hs⟩ := Option.ite_none_right_eq_some.mp hs
      obtain rfl := Option.some.inj hs
      exact { h with processes := fun p hp => h.processes p (List.mem_of_mem_eraseIdx hp) }
  | tear i left generated =>
      obtain ⟨p, hp, hs⟩ := Option.bind_eq_some_iff.mp hs
      rw [writes_eq_false h (h.getElem? hp), if_neg Bool.false_ne_true] at hs
      cases hs

/-! ### The first start -/

/-- A start that nothing else runs beside settles the machine. -/
theorem settled_of_start {file : ConfigFile} {env : Environ} {g₁ g₂ : Generated}
    (henv : env.GivesNone)
    (hrun : run (step lower) ⟨file, []⟩ [.load env, .database 0 g₁, .createApp 0 g₂] = some s) :
    ∃ key secret, s.Settled key secret := by
  obtain ⟨s₁, hload, hrun⟩ := run_cons_eq_some.mp hrun
  obtain ⟨config, hconfig, rfl⟩ := Option.map_eq_some_iff.mp hload
  obtain ⟨s₂, hdatabase, hrun⟩ := run_cons_eq_some.mp hrun
  obtain ⟨e₁, he₁, hs₂⟩ := Option.bind_eq_some_iff.mp hdatabase
  obtain rfl := Option.some.inj hs₂
  obtain ⟨s₃, hcreate, hs⟩ := run_cons_eq_some.mp hrun
  obtain ⟨e₂, he₂, hs₃⟩ := Option.bind_eq_some_iff.mp hcreate
  obtain rfl := Option.some.inj hs₃
  obtain rfl := Option.some.inj hs
  obtain ⟨key, hhead, hkey⟩ := ensureCredentialEncKey_spec henv he₁
  obtain ⟨secret, hsecret⟩ := ensureJwtSecret_spec henv he₂
  refine ⟨key, secret, hkey.truthy, hsecret.truthy, ?_, ?_⟩
  · show ∃ o, put e₂.written (put e₁.written file) = .value (.dict o) ∧ _
    rcases hsecret.written with ⟨hnone₂, hread₂⟩ | ⟨o₂, hsome₂, -, hread₂, hother₂⟩
    · rw [hnone₂]
      rw [hkey.aside] at hread₂
      rcases hkey.written with ⟨hnone₁, hread₁⟩ | ⟨o₁, hsome₁, -, hread₁, hother₁⟩
      · rw [hnone₁]
        exact exists_hasSecrets hsecret.truthy hconfig ⟨hread₁, hread₂⟩
      · rw [hsome₁]
        exact ⟨o₁, rfl, hread₁, hother₁.trans hread₂⟩
    · rw [hsome₂]
      exact ⟨o₂, rfl, hother₂.trans hkey.here, hread₂⟩
  · intro p hp
    obtain rfl := List.mem_singleton.mp hp
    exact ⟨henv, ⟨hsecret.aside.trans hkey.here, hsecret.here⟩, fun _ => hhead⟩

end Machine

/--
**Secrets survive.**  Once a start of the API has gone through with nothing beside it, whatever was
in the file, every process has its credential key and its session secret from then on: whichever
are up, however they are started, stopped and killed, and whatever settings are saved.  None of
them generates a secret again, and none writes the file in coming up.
-/
theorem secrets_survive {lower : String → String} {file : ConfigFile} {env : Environ}
    {g₁ g₂ : Generated} {s t : Machine} {as : List MachineAction} (henv : env.GivesNone)
    (hstart : run (Machine.step lower) ⟨file, []⟩
      [.load env, .database 0 g₁, .createApp 0 g₂] = some s)
    (hfree : ∀ a ∈ as, Machine.GivesNone a) (hrun : run (Machine.step lower) s as = some t) :
    ∃ key secret, toBool key = true ∧ toBool secret = true ∧
      ∀ p ∈ s.processes ++ t.processes,
        HasSecrets key secret p.config ∧ (p.pc ≠ .loaded → p.keys.head? = some key) ∧
          ∀ generated, Machine.writes generated p = false := by
  obtain ⟨key, secret, hs⟩ := Machine.settled_of_start henv hstart
  have ht : t.Settled key secret :=
    run_invariant (fun _ _ _ h ha hstep => h.step ha hstep) hs
      (Meets.of_actions (fun a ha _ => hfree a ha) s) hrun
  refine ⟨key, secret, hs.key_truthy, hs.secret_truthy, fun p hp => ?_⟩
  have hp : p.Settled key secret := by
    rcases List.mem_append.mp hp with hp | hp
    · exact hs.processes p hp
    · exact ht.processes p hp
  exact ⟨hp.config, hp.keys, Machine.writes_eq_false hs hp⟩

/-! A first start, the number of workers is saved, and the API is started again. -/

def bareEnviron : Environ := fun _ => none

theorem bareEnviron_givesNone : bareEnviron.GivesNone := ⟨rfl, rfl⟩

def firstStart : Option Machine :=
  run (Machine.step id) ⟨.missing, []⟩
    [.load bareEnviron, .database 0 ⟨"key one", by decide⟩, .createApp 0 ⟨"secret one", by decide⟩]

theorem firstStart_isSome : firstStart.isSome = true := by decide +kernel

def savedAndRestarted : List MachineAction :=
  [.save 0 [("workers", .int 12)], .die 0, .load bareEnviron,
    .database 0 ⟨"key two", by decide⟩, .createApp 0 ⟨"secret two", by decide⟩]

def secondStart : Option Machine :=
  run (Machine.step id) (firstStart.get firstStart_isSome) savedAndRestarted

theorem secondStart_isSome : secondStart.isSome = true := by decide +kernel

theorem savedAndRestarted_givesNone : ∀ a ∈ savedAndRestarted, Machine.GivesNone a := by
  simp [savedAndRestarted, Machine.GivesNone, bareEnviron_givesNone]

theorem secrets_survive_restart :
    ∃ key secret, toBool key = true ∧ toBool secret = true ∧
      ∀ p ∈ (firstStart.get firstStart_isSome).processes ++
          (secondStart.get secondStart_isSome).processes,
        HasSecrets key secret p.config ∧ (p.pc ≠ .loaded → p.keys.head? = some key) ∧
          ∀ generated, Machine.writes generated p = false :=
  secrets_survive bareEnviron_givesNone (Option.some_get firstStart_isSome).symm
    savedAndRestarted_givesNone (Option.some_get secondStart_isSome).symm

end GovCrawler
