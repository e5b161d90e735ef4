/-
From a page to its leads: the pipeline of `agent/crawler/parser.py`, stage by stage.

Beautiful Soup, `re`, `unquote` and `urlparse` are parameters, and `Soup` is what the parser reads of
a page; where one of them raises, the page has no leads, and that is left out.  The stages hand on
dictionaries to which each adds keys.  Here each stage has a type of its own, and what a candidate
carries besides its address depends on the rung it was found on.
-/
import Mathlib.Data.List.TakeDrop
import GovCrawler.Crawler.Visit

namespace GovCrawler

namespace Parser

/-! ### What is parsed, and with what -/

abbrev Node := Nat

structure Cell where
  /-- `get_text(strip=True)`. -/
  tight : String
  /-- `get_text(separator=" ", strip=True)`. -/
  spaced : String
  deriving DecidableEq, Repr

/-- An element with an `itemprop`. -/
structure Itemprop where
  node : Node
  prop : String
  content : Option String
  /-- `get_text(strip=True)`. -/
  text : String
  deriving DecidableEq, Repr

/-- What the parser reads of a page.  From `names` on it is read without scripts, styles and
`noscript`. -/
structure Soup where
  title : Option String
  /-- The `a` elements with their `href`. -/
  anchors : List (Node × String)
  itemprops : List Itemprop
  /-- The rows of each table, with their cells. -/
  tables : List (List (Node × List Cell))
  text : String
  /-- The texts of the elements with `itemprop="name"`. -/
  names : List String
  parent : Node → Option Node
  /-- `get_text(separator=" ", strip=True)` of an element. -/
  nodeText : Node → String

structure Match where
  start : Nat
  stop : Nat
  /-- The groups, the whole match first. -/
  groups : List String
  deriving DecidableEq, Repr

namespace Match

/-- `m.group(i)`. -/
def group (m : Match) (i : Nat) : String := m.groups.getD i ""

end Match

/-- A compiled regular expression. -/
structure Pattern where
  finditer : String → List Match
  search : String → Option Match
  prefixMatch : String → Option Match
  fullmatch : String → Bool
  sub : String → String → String

/-- The module `re`. -/
structure Re where
  compile : String → Pattern
  /-- With `re.IGNORECASE`. -/
  compileIgnoreCase : String → Pattern
  escape : String → String

/-- The library functions the parser uses.  `netloc` is `urlparse(url).netloc`, `none` where
`urlparse` raises. -/
structure Rules where
  re : Re
  lower : String → String
  unquote : String → String
  netloc : String → Option String

structure EmailConfig where
  enabled : Bool := true
  regex : String := "[a-zA-Z0-9._%+\\-]+@(?:[a-zA-Z0-9\\-]+\\.)+[a-zA-Z]\x7b2,6\x7d"
  validSuffixes : List String := [".gov.in", ".nic.in"]
  obfuscation : List (String × String) := []
  contextChars : Nat := 200
  deriving DecidableEq, Repr

structure PersonConfig where
  enabled : Bool := true
  titlePrefixes : List String := []
  designationKeywords : List String := []
  proximityChars : Nat := 300
  deriving DecidableEq, Repr

/-- From the proximity of an address to the markup that says what it is: a later one outranks. -/
inductive Rung
  | proximityText | tableBlock | microdata | mailtoTel
  deriving DecidableEq, Repr

namespace Rung

def value : Rung → String
  | proximityText => "proximity_text"
  | tableBlock => "table_block"
  | microdata => "microdata"
  | mailtoTel => "mailto_tel"

/-- `_RUNG_RANK`. -/
def rank : Rung → Nat
  | proximityText => 0
  | tableBlock => 1
  | microdata => 2
  | mailtoTel => 3

end Rung

structure ExtractionConfig where
  email : EmailConfig := {}
  person : PersonConfig := {}
  highRungs : List String := ["mailto_tel", "microdata"]
  roleLocalParts : List String :=
    ["webmaster", "info", "admin", "contact", "support", "helpdesk", "grievance"]
  /-- 0 is no cap. -/
  maxInputChars : Nat := 0
  deriving DecidableEq, Repr

/-! ### Strings -/

/-- `s[:n]`. -/
def firstChars (n : Nat) (s : String) : String := String.ofList (s.toList.take n)

/-- `s[a:b]`. -/
def slice (a b : Nat) (s : String) : String := String.ofList ((s.toList.take b).drop a)

/-- `s.strip(chars)`. -/
def stripChars (chars : List Char) (s : String) : String :=
  let p := fun c => chars.contains c
  String.ofList (((s.toList.dropWhile p).reverse.dropWhile p).reverse)

/-- `s.split(c)`. -/
def splitAtChar (c : Char) (s : String) : List String := (s.toList.splitOn c).map String.ofList

/-- `" ".join(s.split())`. -/
def squash (s : String) : String :=
  " ".intercalate (((s.toList.splitOnP isSpace).filter fun w => !w.isEmpty).map String.ofList)

/-- `s.startswith(p)`. -/
def startsWith (p s : String) : Bool := p.toList.isPrefixOf s.toList

/-- `s.endswith(suffixes)`. -/
def endsWithAny (suffixes : List String) (s : String) : Bool :=
  suffixes.any fun suffix => endsWith suffix s

/-- `s.find(sub)`, `none` for -1. -/
def findSub (sub : List Char) : List Char → Option Nat
  | [] => if sub.isEmpty then some 0 else none
  | c :: cs => if sub.isPrefixOf (c :: cs) then some 0 else (findSub sub cs).map (· + 1)

/-! ### Stage 1: candidates -/

/-- Which cell of a row is which field. -/
structure ColMap where
  name : Option Nat
  designation : Option Nat
  department : Option Nat
  email : Option Nat
  deriving DecidableEq, Repr

/-- `_col`, `_cell_texts` and `_row_text`. -/
structure TableContext where
  col : ColMap
  cellTexts : List String
  rowText : String
  deriving DecidableEq, Repr

/-- `_text_start`, `_text_end` and `_full_text`. -/
structure TextContext where
  start : Nat
  stop : Nat
  fullText : String
  deriving DecidableEq, Repr

/-- Where a candidate was found, with what it carries from there. -/
inductive Source
  | mailtoTel
  | microdata
  | tableBlock (ctx : TableContext)
  | proximityText (ctx : TextContext) (bracketed : Bool)
  deriving DecidableEq, Repr

def Source.rung : Source → Rung
  | .mailtoTel => .mailtoTel
  | .microdata => .microdata
  | .tableBlock _ => .tableBlock
  | .proximityText _ _ => .proximityText

def Source.isBracketed : Source → Bool
  | .proximityText _ bracketed => bracketed
  | _ => false

structure Candidate where
  address : Option String
  source : Source
  contextNode : Option Node
  rawSpan : String
  phone : Option String := none
  /-- The contexts of a candidate for the same address that had to give way. -/
  fallbackTable : Option TableContext := none
  fallbackText : Option TextContext := none
  deriving DecidableEq, Repr

def maxCellChars : Nat := 500
def maxRowScanChars : Nat := 5000
def maxRecipientsPerHref : Nat := 5
def emailStripChars : List Char := " \t\r\n,;<>'\"".toList
def maxMailtoContextChars : Nat := 600

/-- `_clean_email_candidates`. -/
def cleanEmailCandidates (rules : Rules) (emailRe : Pattern) (raw : String) : List String :=
  if raw = "" then []
  else
    ((splitAtChar ',' (rules.unquote raw)).take maxRecipientsPerHref).filterMap fun piece =>
      let candidate := stripChars ['.'] (rules.lower (String.ofList
        ((stripChars emailStripChars piece).toList.filter (· ≠ ' '))))
      if candidate ≠ "" && emailRe.fullmatch candidate then some candidate else none

/-- `_find_col`. -/
def findCol (headers keywords : List String) : Option Nat :=
  keywords.findSome? fun kw => headers.findIdx? (containsSub kw)

/-- One key of the loop of `_dedupe_col_map`: a cell that an earlier field has is not its. -/
def claimCol (seen : List Nat) (idx : Option Nat) : Option Nat × List Nat :=
  match idx with
  | none => (none, seen)
  | some i => if seen.contains i then (none, seen) else (some i, i :: seen)

/-- `_dedupe_col_map`. -/
def dedupeColMap (col : ColMap) : ColMap :=
  let name := claimCol [] col.name
  let designation := claimCol name.2 col.designation
  let department := claimCol designation.2 col.department
  let email := claimCol department.2 col.email
  ⟨name.1, designation.1, department.1, email.1⟩

/-- `address.rpartition("@")`, without the separator. -/
def rpartitionAt (address : String) : String × String :=
  let reversed := address.toList.reverse
  match reversed.dropWhile (· ≠ '@') with
  | [] => ("", address)
  | _ :: local' =>
      (String.ofList local'.reverse, String.ofList (reversed.takeWhile (· ≠ '@')).reverse)

/-- `_truncate_at_known_suffix`. -/
def truncateAtKnownSuffix (validSuffixes : List String) (address : String) : String :=
  let parts := rpartitionAt address
  if parts.2 = "" then address
  else
    let ends := validSuffixes.filterMap fun suffix =>
      (findSub suffix.toList parts.2.toList).map (· + suffix.length)
    match ends.min? with
    | none => address
    | some earliestEnd =>
        if earliestEnd = parts.2.length then address
        else parts.1 ++ "@" ++ firstChars earliestEnd parts.2

/-- The address a free-text match stands for. -/
def matchedAddress (rules : Rules) (validSuffixes : List String) (m : Match) : String :=
  truncateAtKnownSuffix validSuffixes (stripChars ['.'] (rules.lower (m.group 0)))

/-- What a row of a table yields. -/
def rowCandidates (rules : Rules) (emailRe : Pattern) (validSuffixes : List String) (col : ColMap)
    (row : Node × List Cell) : List Candidate :=
  let cellTexts := row.2.map Cell.spaced
  let rowText := " ".intercalate cellTexts
  if row.2.isEmpty then []
  else if maxRowScanChars < rowText.length then []
  else
    (emailRe.finditer rowText).map fun m =>
      let addr := matchedAddress rules validSuffixes m
      { address := some addr, source := .tableBlock ⟨col, cellTexts, rowText⟩,
        contextNode := some row.1, rawSpan := addr }

/-- The columns a header row announces. -/
def headerCols (rules : Rules) (header : List Cell) : ColMap :=
  let headers := header.map fun c => rules.lower c.tight
  dedupeColMap
    { name := findCol headers ["name", "officer", "official", "contact person"]
      designation := findCol headers ["designation", "post", "rank", "position"]
      department := findCol headers ["department", "division", "ministry", "section"]
      email := findCol headers ["email", "e-mail", "mail"] }

/-- `_extract_table_candidates`. -/
def extractTableCandidates (rules : Rules) (emailRe : Pattern) (validSuffixes : List String)
    (soup : Soup) : List Candidate :=
  soup.tables.flatMap fun rows =>
    match rows with
    | header :: row :: rows =>
        (row :: rows).flatMap
          (rowCandidates rules emailRe validSuffixes (headerCols rules header.2))
    | _ => []

/-- `_build_bracketed_email_re`. -/
def buildBracketedEmailRe (re : Re) (obfuscation : List (String × String)) : Pattern :=
  let atPats := (obfuscation.filter fun p => p.2 == "@").map Prod.fst
  let dotPats := (obfuscation.filter fun p => p.2 == ".").map Prod.fst
  let otherPats := (obfuscation.filter fun p => p.2 != "@" && p.2 != ".").map Prod.fst
  if atPats.isEmpty || dotPats.isEmpty then re.compile "(?!)"
  else
    let charAlt := "|".intercalate ("[a-zA-Z0-9._%+\\-]" :: otherPats)
    let atAlt := "|".intercalate atPats
    let dotAlt := "|".intercalate dotPats
    re.compileIgnoreCase ("(?:" ++ charAlt ++ ")+(?:" ++ atAlt ++ ")(?:(?:" ++ charAlt ++ ")+(?:" ++
      dotAlt ++ "))+[a-zA-Z]\x7b2,6\x7d")

/-- One match of `_extract_proximity_candidates`: what has been seen is not taken again. -/
def takeMatch (key : Match → String) (candidate : Match → Candidate)
    (acc : List String × List Candidate) (m : Match) : List String × List Candidate :=
  if acc.1.contains (key m) then acc else (key m :: acc.1, acc.2 ++ [candidate m])

/-- `_extract_proximity_candidates`. -/
def extractProximityCandidates (rules : Rules) (emailRe : Pattern) (ecfg : EmailConfig)
    (text : String) : List Candidate :=
  let address := matchedAddress rules ecfg.validSuffixes
  let plain := (emailRe.finditer text).foldl (takeMatch address fun m =>
    { address := some (address m), source := .proximityText ⟨m.start, m.stop, text⟩ false,
      contextNode := none, rawSpan := address m }) ([], [])
  -- a bracketed form gets its address in stage 4
  let bracketedRe := buildBracketedEmailRe rules.re ecfg.obfuscation
  ((bracketedRe.finditer text).foldl (takeMatch (fun m => rules.lower (m.group 0)) fun m =>
    { address := none, source := .proximityText ⟨m.start, m.stop, text⟩ true,
      contextNode := none, rawSpan := m.group 0 }) plain).2

/-- What a link yields. -/
def anchorCandidates (rules : Rules) (emailRe telRe : Pattern) (a : Node × String) :
    List Candidate :=
  if startsWith "mailto:" a.2 then
    let rawAddr := (splitAtChar '?' (String.ofList (a.2.toList.drop 7))).headD ""
    (cleanEmailCandidates rules emailRe rawAddr).map fun addr =>
      { address := some addr, source := .mailtoTel, contextNode := some a.1, rawSpan := addr }
  else if startsWith "tel:" a.2 then
    match telRe.prefixMatch a.2 with
    | none => []
    | some m =>
        let phoneNum := strip (m.group 1)
        [{ address := none, source := .mailtoTel, contextNode := some a.1, rawSpan := phoneNum,
           phone := some phoneNum }]
  else []

/-- What an element with an `itemprop` yields. -/
def itempropCandidates (rules : Rules) (emailRe : Pattern) (el : Itemprop) : List Candidate :=
  let prop := rules.lower el.prop
  let content := if truthy el.content then el.content.getD "" else el.text
  if prop = "email" then
    (cleanEmailCandidates rules emailRe content).map fun addr =>
      { address := some addr, source := .microdata, contextNode := some el.node, rawSpan := addr }
  else if (prop = "telephone" || prop = "phone") && content ≠ "" then
    [{ address := none, source := .microdata, contextNode := some el.node,
       rawSpan := strip content, phone := some (strip content) }]
  else []

/-- `_extract_candidates`. -/
def extractCandidates (rules : Rules) (ecfg : EmailConfig) (maxInputChars : Nat) (soup : Soup) :
    List Candidate :=
  if !ecfg.enabled then []
  else
    let emailRe := rules.re.compileIgnoreCase ecfg.regex
    let telRe := rules.re.compileIgnoreCase "tel:(\\+?[\\d\\s\\-().]\x7b7,20\x7d)"
    let rawText := if maxInputChars = 0 then soup.text else firstChars maxInputChars soup.text
    soup.anchors.flatMap (anchorCandidates rules emailRe telRe) ++
      soup.itemprops.flatMap (itempropCandidates rules emailRe) ++
      extractTableCandidates rules emailRe ecfg.validSuffixes soup ++
      extractProximityCandidates rules emailRe ecfg rawText

/-! ### Stage 2: one entity for each address -/

/-- A candidate that has become an entity. -/
structure Entity extends Candidate where
  /-- None before stage 4 for a bracketed form. -/
  email : Option String := none
  channelTag : Option String := none
  entityKind : Option String := none
  phoneRung : Option Rung := none
  deriving DecidableEq, Repr

/-- `_carry_fallback_context`. -/
def carryFallbackContext (winner loser : Candidate) : Candidate :=
  match loser.source with
  | .tableBlock ctx => { winner with fallbackTable := some ctx }
  | .proximityText ctx _ => { winner with fallbackText := some ctx }
  | .mailtoTel | .microdata => winner

/-- `_has_fallback_context`. -/
def hasFallbackContext (c : Candidate) : Bool := c.fallbackTable.isSome || c.fallbackText.isSome

/-- A second candidate for an address: the one on the higher rung stays, with the context of the
other. -/
def displace (existing c : Candidate) : Candidate :=
  if existing.source.rung.rank < c.source.rung.rank then
    carryFallbackContext { c with phone := if truthy c.phone then c.phone else existing.phone }
      existing
  else if !hasFallbackContext existing then carryFallbackContext existing c
  else existing

/-- `email_map`, with its addresses in the order in which they came. -/
abbrev EmailMap := List (String × Candidate)

def EmailMap.add (addr : String) (c : Candidate) : EmailMap → EmailMap
  | [] => [(addr, c)]
  | (key, existing) :: rest =>
      if key = addr then (key, displace existing c) :: rest
      else (key, existing) :: EmailMap.add addr c rest

/-- What the first loop of `_bind_channels` makes of the candidates. -/
structure Bindings where
  emailMap : EmailMap := []
  bracketedPending : List Candidate := []
  phoneCandidates : List Candidate := []

def Bindings.bind (b : Bindings) (c : Candidate) : Bindings :=
  if c.source.isBracketed && c.address.isNone then
    { b with bracketedPending := b.bracketedPending ++ [c] }
  else if truthy c.address then { b with emailMap := b.emailMap.add (c.address.getD "") c }
  else if truthy c.phone then { b with phoneCandidates := b.phoneCandidates ++ [c] }
  else b

/-- The channel and the kind of an address. -/
def classify (rules : Rules) (roleLocalParts govSuffixes : List String) (addr : String) :
    String × String :=
  if roleLocalParts.contains (rules.lower ((splitAtChar '@' addr).headD "")) then ("role", "org")
  else if !endsWithAny govSuffixes (rules.lower (domainPart addr)) then
    ("personal-external", "person")
  else ("office", "person")

def entityOf (rules : Rules) (roleLocalParts govSuffixes : List String)
    (entry : String × Candidate) : Entity :=
  let kind := classify rules roleLocalParts govSuffixes entry.1
  { toCandidate := entry.2, email := some entry.1, channelTag := some kind.1,
    entityKind := some kind.2 }

/-- `_nodes_share_container`. -/
def nodesShareContainer (soup : Soup) (a b : Node) : Bool :=
  (soup.parent a).isSome && soup.parent a == soup.parent b

/-- A phone number goes to the first entity without one in its container, else to the first
without one at all. -/
def attachPhone (soup : Soup) (entities : List Entity) (phoneC : Candidate) : List Entity :=
  let shares := fun e : Entity => !truthy e.phone &&
    phoneC.contextNode.any fun phoneNode =>
      e.contextNode.any fun node => nodesShareContainer soup phoneNode node
  let best := (entities.findIdx? shares).orElse fun _ =>
    entities.findIdx? fun e : Entity => !truthy e.phone
  match best with
  | none => entities
  | some i =>
      entities.modify i fun e =>
        { e with phone := phoneC.phone, phoneRung := some phoneC.source.rung }

/-- `_bind_channels`. -/
def bindChannels (rules : Rules) (soup : Soup) (roleLocalParts govSuffixes : List String)
    (candidates : List Candidate) : List Entity :=
  let bindings := candidates.foldl Bindings.bind {}
  let entities := bindings.emailMap.map (entityOf rules roleLocalParts govSuffixes)
  bindings.phoneCandidates.foldl (attachPhone soup) entities ++
    bindings.bracketedPending.map fun c => { toCandidate := c }

/-! ### Stage 3: names, designations, departments -/

structure EnrichedEntity extends Entity where
  personName : Option String := none
  designation : Option String := none
  department : Option String := none
  deptMismatch : Bool := false
  contextSnippet : String := ""
  deriving DecidableEq, Repr

/-- `_cell_value`. -/
def cellValue (cells : List String) (colIdx : Option Nat) : Option String :=
  match colIdx.bind fun i => cells[i]? with
  | none => none
  | some cell => if strip cell = "" then none else some (firstChars maxCellChars (strip cell))

/-- `_DESIGNATION_STOP_RE`. -/
def designationStopRe (re : Re) : Pattern :=
  re.compileIgnoreCase "[@\\n]|\\b(?:e-?mail|phone|tel(?:ephone)?)\\b\\s*[:\\-]?|\\d\x7b5,\x7d"

/-- `_clip_designation`, with the default of `max_chars`. -/
def clipDesignation (re : Re) (value : Option String) : Option String :=
  if !truthy value then none
  else
    let window := firstChars 120 (value.getD "")
    let stop := match (designationStopRe re).search window with
      | some m => m.start
      | none => window.length
    let cleaned := stripChars " ,.-".toList (squash (firstChars stop window))
    if cleaned = "" then none else some (firstChars 60 cleaned)

/-- `_match_name`. -/
def matchName (re : Re) (pcfg : PersonConfig) (text : String) : Option String :=
  if pcfg.titlePrefixes.isEmpty then none
  else
    let pat := "\\b(" ++ "|".intercalate (pcfg.titlePrefixes.map re.escape) ++
      ")\\b\\.?[ \\t]+([A-Z][a-z]+(?:[ \\t]+[A-Z][a-z]+)\x7b0,3\x7d)"
    ((re.compile pat).search text).map fun m => squash (m.group 1 ++ " " ++ m.group 2)

/-- `_match_designation`. -/
def matchDesignation (re : Re) (pcfg : PersonConfig) (text : String) : Option String :=
  if pcfg.designationKeywords.isEmpty then none
  else
    let pat := "\\b(" ++ "|".intercalate (pcfg.designationKeywords.map re.escape) ++ ")\\b"
    match (re.compileIgnoreCase pat).search text with
    | none => none
    | some m => clipDesignation re (some (String.ofList (text.toList.drop m.start)))

/-- `_container_text`. -/
def containerText (soup : Soup) (node : Option Node) : String :=
  match node.bind soup.parent with
  | none => ""
  | some parent => firstChars maxMailtoContextChars (soup.nodeText parent)

/-- `_dept_from_url`. -/
def deptFromUrl (rules : Rules) (url : String) : Option String :=
  match rules.netloc url with
  | none => none
  | some netloc =>
      let host := removePrefix "www." (rules.lower netloc)
      if host = "" then none else (splitAtChar '.' host).head?

/-- `_dept_from_page`. -/
def deptFromPage (soup : Soup) : Option String :=
  (soup.names.find? (· ≠ "")).map (firstChars 80)

/-- Fill in a field that is blank. -/
def orFill (value : Option String) (other : Unit → Option String) : Option String :=
  if truthy value then value else other ()

/-- `_apply_fallback_context`. -/
def applyFallbackContext (re : Re) (pcfg : PersonConfig) (e : EnrichedEntity) : EnrichedEntity :=
  let fromTable := fun (e : EnrichedEntity) (ctx : TableContext) =>
    let e := { e with
      personName := orFill e.personName fun _ => cellValue ctx.cellTexts ctx.col.name
      designation := orFill e.designation fun _ =>
        clipDesignation re (cellValue ctx.cellTexts ctx.col.designation) }
    { e with
      personName := orFill e.personName fun _ =>
        if pcfg.titlePrefixes.isEmpty then e.personName else matchName re pcfg ctx.rowText
      designation := orFill e.designation fun _ =>
        if pcfg.designationKeywords.isEmpty then e.designation
        else matchDesignation re pcfg ctx.rowText }
  let fromText := fun (e : EnrichedEntity) (ctx : TextContext) =>
    let window := slice (ctx.start - pcfg.proximityChars) (ctx.stop + pcfg.proximityChars) ctx.fullText
    { e with
      personName := orFill e.personName fun _ => matchName re pcfg window
      designation := orFill e.designation fun _ => matchDesignation re pcfg window }
  let e := match e.fallbackTable with
    | some ctx => fromTable e ctx
    | none => e
  match e.fallbackText with
  | some ctx => fromText e ctx
  | none => e

/-- What an entity gets from where it was found. -/
def readContext (re : Re) (soup : Soup) (pcfg : PersonConfig) (ecfg : EmailConfig) (e : Entity) :
    EnrichedEntity :=
  match e.source with
  | .tableBlock ctx =>
      let blank := { toEntity := e, contextSnippet := firstChars 300 ctx.rowText }
      if !pcfg.enabled then blank
      else
        let personName := cellValue ctx.cellTexts ctx.col.name
        let designation := clipDesignation re (cellValue ctx.cellTexts ctx.col.designation)
        { blank with
          personName := orFill personName fun _ =>
            if pcfg.titlePrefixes.isEmpty then personName else matchName re pcfg ctx.rowText
          designation := orFill designation fun _ =>
            if pcfg.designationKeywords.isEmpty then designation
            else matchDesignation re pcfg ctx.rowText
          department := cellValue ctx.cellTexts ctx.col.department }
  | .proximityText ctx _ =>
      let window :=
        slice (ctx.start - pcfg.proximityChars) (ctx.stop + pcfg.proximityChars) ctx.fullText
      let context :=
        squash (slice (ctx.start - ecfg.contextChars) (ctx.stop + ecfg.contextChars) ctx.fullText)
      let blank := { toEntity := e, contextSnippet := context }
      if !pcfg.enabled then blank
      else { blank with personName := matchName re pcfg window
                        designation := matchDesignation re pcfg window }
  | .mailtoTel | .microdata =>
      let text := containerText soup e.contextNode
      let blank := { toEntity := e, contextSnippet := firstChars 300 text }
      if !pcfg.enabled then blank
      else { blank with personName := matchName re pcfg text
                        designation := matchDesignation re pcfg text }

/-- `dept_mismatch`. -/
def deptMismatch (rules : Rules) (pageDept urlDept : Option String) : Bool :=
  truthy pageDept && truthy urlDept && pageDept.map rules.lower != urlDept.map rules.lower

/-- `_enrich_fields`, of one entity. -/
def enrichFields (rules : Rules) (soup : Soup) (sourceUrl : String) (pcfg : PersonConfig)
    (ecfg : EmailConfig) (entity : Entity) : EnrichedEntity :=
  let urlDept := deptFromUrl rules sourceUrl
  let e := readContext rules.re soup pcfg ecfg entity
  let e :=
    if pcfg.enabled && (!truthy e.personName || !truthy e.designation) then
      applyFallbackContext rules.re pcfg e
    else e
  { e with
    department := if truthy e.department then e.department else urlDept
    deptMismatch := deptMismatch rules (deptFromPage soup) urlDept }

/-! ### Stage 4: bracketed forms -/

/-- `_normalise_spans`, with the addresses that are taken. -/
def normaliseFrom (rules : Rules) (ecfg : EmailConfig) (roleLocalParts : List String) :
    List String → List EnrichedEntity → List EnrichedEntity
  | _, [] => []
  | resolvedEmails, e :: rest =>
      let bracketedRe := buildBracketedEmailRe rules.re ecfg.obfuscation
      let isText := match e.source with
        | .proximityText _ _ => true
        | _ => false
      if !isText || (bracketedRe.search e.rawSpan).isNone then
        e :: normaliseFrom rules ecfg roleLocalParts resolvedEmails rest
      else
        let resolved := ecfg.obfuscation.foldl
          (fun text p => (rules.re.compileIgnoreCase p.1).sub p.2 text) e.rawSpan
        match (rules.re.compileIgnoreCase ecfg.regex).search resolved with
        | none => normaliseFrom rules ecfg roleLocalParts resolvedEmails rest
        | some m =>
            let addr := matchedAddress rules ecfg.validSuffixes m
            if resolvedEmails.contains addr then
              normaliseFrom rules ecfg roleLocalParts resolvedEmails rest
            else
              let kind := classify rules roleLocalParts ecfg.validSuffixes addr
              { e with
                address := some addr
                email := some addr
                channelTag := some kind.1
                entityKind := some kind.2 } ::
                normaliseFrom rules ecfg roleLocalParts (addr :: resolvedEmails) rest

/-- `_normalise_spans`. -/
def normaliseSpans (rules : Rules) (ecfg : EmailConfig) (roleLocalParts : List String)
    (entities : List EnrichedEntity) : List EnrichedEntity :=
  let emails := (entities.filter fun e => truthy e.email).map fun e => e.email.getD ""
  normaliseFrom rules ecfg roleLocalParts emails entities

/-! ### Stage 5: band and provenance -/

structure ScoredEntity extends EnrichedEntity where
  confidenceBand : String
  fieldProvenance : String
  deriving DecidableEq, Repr

/-- `json.dumps` of a dictionary of strings in which nothing has to be escaped. -/
def jsonDumps (fields : List (String × String)) : String :=
  "\x7b" ++ ", ".intercalate (fields.map fun f => "\"" ++ f.1 ++ "\": \"" ++ f.2 ++ "\"") ++ "\x7d"

namespace EnrichedEntity

/-- `entity.get("_col", {}).get("department")`. -/
def departmentCol (e : EnrichedEntity) : Option Nat :=
  match e.source with
  | .tableBlock ctx => ctx.col.department
  | _ => none

def band (highRungs : List String) (e : EnrichedEntity) : String :=
  let band := if highRungs.contains e.source.rung.value then "HIGH" else "LOW"
  if e.deptMismatch && band = "HIGH" then "LOW" else band

/-- `provenance`, without the fields that have none. -/
def provenance (e : EnrichedEntity) : List (String × String) :=
  let rung := e.source.rung.value
  let nameRung := if truthy e.personName then some rung else none
  let desigRung := if truthy e.designation then some rung else none
  let deptRung :=
    if e.departmentCol.isSome && truthy e.department then some rung
    else if truthy e.department then some "url_default" else none
  let phoneRung := if truthy e.phone then e.phoneRung.map Rung.value else none
  [("email", some rung), ("person_name", nameRung), ("designation", desigRung),
    ("department", deptRung), ("phone", phoneRung)].filterMap fun f =>
      f.2.map fun value => (f.1, value)

/-- `_score`, of one entity. -/
def score (highRungs : List String) (e : EnrichedEntity) : ScoredEntity :=
  { toEnrichedEntity := e, confidenceBand := e.band highRungs,
    fieldProvenance := jsonDumps e.provenance }

end EnrichedEntity

/-! ### Stage 6: one lead for each address -/

/-- The first entity of each address. -/
def firstPerEmail : List String → List ScoredEntity → List ScoredEntity
  | _, [] => []
  | seenEmails, e :: rest =>
      if !truthy e.email || seenEmails.contains (e.email.getD "") then firstPerEmail seenEmails rest
      else e :: firstPerEmail (e.email.getD "" :: seenEmails) rest

def ScoredEntity.lead (sourceUrl pageTitle : String) (e : ScoredEntity) : ParsedLead where
  email := e.email
  personName := e.personName
  designation := e.designation
  department := e.department
  sourceUrl := sourceUrl
  sourceTitle := pageTitle
  contextSnippet := e.contextSnippet
  entityKind := e.entityKind
  phone := e.phone
  channelTag := e.channelTag
  confidenceBand := some e.confidenceBand
  fieldProvenance := some e.fieldProvenance

/-- `_flatten_emit`. -/
def flattenEmit (entities : List ScoredEntity) (sourceUrl pageTitle : String) : List ParsedLead :=
  (firstPerEmail [] entities).map (ScoredEntity.lead sourceUrl pageTitle)

/-! ### The pipeline -/

/-- The entities that stage 6 gets. -/
def scoredEntities (rules : Rules) (config : ExtractionConfig) (soup : Soup) (sourceUrl : String) :
    List ScoredEntity :=
  let candidates := extractCandidates rules config.email config.maxInputChars soup
  let entities :=
    bindChannels rules soup config.roleLocalParts config.email.validSuffixes candidates
  let enriched := entities.map (enrichFields rules soup sourceUrl config.person config.email)
  (normaliseSpans rules config.email config.roleLocalParts enriched).map
    (EnrichedEntity.score config.highRungs)

/-- `extract_leads`. -/
def extractLeads (rules : Rules) (config : ExtractionConfig) (soup : Soup) (sourceUrl : String) :
    List ParsedLead :=
  flattenEmit (scoredEntities rules config soup sourceUrl) sourceUrl
    (strip (soup.title.getD ""))

end Parser

end GovCrawler
