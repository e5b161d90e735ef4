/-
What `int`, `float`, `bool`, a loop and `"\n".join` make of a value, as the settings routes and
the crawler use them.  `none` is what raises.

A list of texts is shown joined by line breaks and read back by cutting at line breaks and
commas; that gives the list back exactly if every text in it is tidy.
-/
import GovCrawler.Basic
import GovCrawler.Lib.Json
import Mathlib.Data.List.DropRight
import Mathlib.Data.Rat.Floor

namespace GovCrawler

open Json

/-! ### Numbers -/

/-- The double nearest to a number, the even one of two. -/
def nearestDouble (q : ℚ) : Double :=
  if q = 0 then .finite 0
  else
    let magnitude := |q|
    let guess := (magnitude.num.toNat.log2 : Int) - magnitude.den.log2
    let exponent := if (2 : ℚ) ^ guess ≤ magnitude then guess else guess - 1
    let ulp := (2 : ℚ) ^ max (exponent - 52) (-1074)
    let scaled := magnitude / ulp
    let below := ⌊scaled⌋
    let rest := scaled - below
    let rounded := if rest < 1 / 2 ∨ rest = 1 / 2 ∧ below % 2 = 0 then below else below + 1
    let value := rounded * ulp
    if (2 : ℚ) ^ 1024 ≤ value then .infinite (q < 0) else .finite (if q < 0 then -value else value)

/-- The decimal digits: where each row of ten begins. -/
def digitRows : List Nat :=
  [0x30, 0x660, 0x6f0, 0x7c0, 0x966, 0x9e6, 0xa66, 0xae6, 0xb66, 0xbe6, 0xc66, 0xce6, 0xd66, 0xde6,
    0xe50, 0xed0, 0xf20, 0x1040, 0x1090, 0x17e0, 0x1810, 0x1946, 0x19d0, 0x1a80, 0x1a90, 0x1b50,
    0x1bb0, 0x1c40, 0x1c50, 0xa620, 0xa8d0, 0xa900, 0xa9d0, 0xa9f0, 0xaa50, 0xabf0, 0xff10, 0x104a0,
    0x10d30, 0x11066, 0x110f0, 0x11136, 0x111d0, 0x112f0, 0x11450, 0x114d0, 0x11650, 0x116c0,
    0x11730, 0x118e0, 0x11950, 0x11c50, 0x11d50, 0x11da0, 0x11f50, 0x16a60, 0x16ac0, 0x16b50,
    0x1d7ce, 0x1d7d8, 0x1d7e2, 0x1d7ec, 0x1d7f6, 0x1e140, 0x1e2f0, 0x1e4f0, 0x1e950, 0x1fbf0]

def digitValue (c : Char) : Option Nat :=
  (digitRows.find? fun first => first ≤ c.toNat && c.toNat < first + 10).map fun first =>
    c.toNat - first

/-- An underscore stands between two digits. -/
def dropUnderscores : List Char → Option (List Char)
  | [] => some []
  | '_' :: _ => none
  | [c] => some [c]
  | c :: '_' :: d :: cs =>
      if (digitValue c).isSome && (digitValue d).isSome then
        (dropUnderscores (d :: cs)).map (c :: ·)
      else none
  | c :: d :: cs => (dropUnderscores (d :: cs)).map (c :: ·)

/-- A sign, and what comes behind it. -/
def splitSign : List Char → Bool × List Char
  | '-' :: cs => (true, cs)
  | '+' :: cs => (false, cs)
  | cs => (false, cs)

def decimal (digits : List Nat) : Nat := digits.foldl (fun n d => 10 * n + d) 0

def applySign (negative : Bool) (n : Int) : Int := if negative then -n else n

/-- `int(s)`. -/
def intOfText (s : String) : Option Int :=
  let (negative, cs) := splitSign (strip s).toList
  match (dropUnderscores cs).bind fun cs => cs.mapM digitValue with
  | none | some [] => none
  | some digits =>
      if 4300 < digits.length then none else some (applySign negative (decimal digits))

/-- The digits at the front. -/
def takeDigits : List Char → List Nat × List Char
  | [] => ([], [])
  | c :: cs =>
      match digitValue c with
      | some d => let (ds, rest) := takeDigits cs; (d :: ds, rest)
      | none => ([], c :: cs)

/-- The exponent of a number that ends here. -/
def exponentOf : List Char → Option Int
  | [] => some 0
  | c :: cs =>
      if c = 'e' ∨ c = 'E' then
        let (negative, cs) := splitSign cs
        match takeDigits cs with
        | ([], _) | (_, _ :: _) => none
        | (digits, []) => some (applySign negative (decimal digits))
      else none

/-- `float(s)`. -/
def floatOfText (s : String) : Option Double :=
  let (negative, cs) := splitSign (strip s).toList
  let word := String.ofList (cs.map Char.toLower)
  if word = "inf" ∨ word = "infinity" then some (.infinite negative)
  else if word = "nan" then some .nan
  else do
    let (whole, rest) := takeDigits (← dropUnderscores cs)
    let (fraction, rest) :=
      match rest with
      | '.' :: rest => takeDigits rest
      | rest => ([], rest)
    let exponent ← exponentOf rest
    if whole.isEmpty && fraction.isEmpty then none
    else
      let value := (decimal (whole ++ fraction) : ℚ) * (10 : ℚ) ^ (exponent - fraction.length)
      some (nearestDouble (if negative then -value else value))

/-- `int(v)`. -/
def toInt : Value → Option Int
  | .bool b => some (if b then 1 else 0)
  | .int n => some n
  | .float (.finite q) => some (q.num.tdiv q.den)
  | .str s => intOfText s
  | _ => none

/-- `float(v)`. -/
def toFloat : Value → Option Double
  | .bool b => some (.finite (if b then 1 else 0))
  | .int n =>
      match nearestDouble n with
      | .finite q => some (.finite q)
      | _ => none
  | .float x => some x
  | .str s => floatOfText s
  | _ => none

/-- `bool(v)`. -/
def toBool : Value → Bool
  | .null => false
  | .bool b => b
  | .int n => n ≠ 0
  | .float x => x ≠ .finite 0
  | .str s => s ≠ ""
  | .list xs => !xs.isEmpty
  | .dict d => !d.isEmpty

def asInt (v : Value) : Option Value := (toInt v).map .int

def asFloat (v : Value) : Option Value := (toFloat v).map .float

def asBool (v : Value) : Option Value := some (.bool (toBool v))

/-! ### Lists of texts -/

/-- What a loop over the value sees. -/
def iterate : Value → Option (List Value)
  | .list xs => some xs
  | .str s => some (s.toList.map fun c => .str (String.singleton c))
  | .dict d => some (d.map fun p => .str p.1)
  | _ => none

def text : Value → Option String
  | .str s => some s
  | _ => none

/-- What `join` sees. -/
def texts (v : Value) : Option (List String) := (iterate v).bind fun xs => xs.mapM text

/-- `"\n".join`. -/
def joinLines (xs : List String) : String := String.ofList (['\n'].intercalate (xs.map String.toList))

/-- What `replace(",", "\n")` makes of a character. -/
def breakAt (c : Char) : Char := if c = ',' then '\n' else c

/-- `s.replace(",", "\n").split("\n")`, without the blank parts and each stripped. -/
def parseLines (s : String) : List String :=
  (((s.toList.map breakAt).splitOn '\n').map fun cs => strip (String.ofList cs)).filter fun x =>
    x ≠ ""

/-- `parse_list`. -/
def parseList : Value → Option Value
  | .str s => some (.list ((parseLines s).map .str))
  | _ => none

/-- Nothing is cut from the text, and it is cut nowhere. -/
structure Tidy (x : String) : Prop where
  nonempty : x ≠ ""
  stripped : strip x = x
  comma : ',' ∉ x.toList
  newline : '\n' ∉ x.toList

theorem strip_sublist (s : String) : (strip s).toList.Sublist s.toList := by
  unfold strip
  rw [String.toList_ofList]
  have hfront := List.dropWhile_sublist (l := s.toList) isSpace
  have hback := (List.dropWhile_sublist (l := (s.toList.dropWhile isSpace).reverse) isSpace).reverse
  rw [List.reverse_reverse] at hback
  exact hback.trans hfront

/-- What is left of a list when its front and its back are cut is cut no further. -/
theorem strip_strip (s : String) : strip (strip s) = strip s := by
  unfold strip
  rw [String.toList_ofList]
  generalize hfront : s.toList.dropWhile isSpace = front
  have hidem : front.dropWhile isSpace = front := by
    rw [← hfront]
    exact List.dropWhile_idempotent _ _
  have hagain : (front.reverse.dropWhile isSpace).reverse.dropWhile isSpace =
      (front.reverse.dropWhile isSpace).reverse := by
    rw [List.dropWhile_eq_self_iff]
    intro hpos
    have hfirst : 0 < front.length := by
      have hle := (List.dropWhile_sublist (l := front.reverse) isSpace).length_le
      rw [List.length_reverse] at hle hpos
      omega
    have hfront : (front.reverse.dropWhile isSpace).reverse <+: front := by
      have hsuffix := List.dropWhile_suffix (l := front.reverse) isSpace
      rwa [← List.reverse_prefix, List.reverse_reverse] at hsuffix
    rw [hfront.getElem hpos]
    exact List.dropWhile_eq_self_iff.mp hidem hfirst
  rw [hagain, List.reverse_reverse, List.dropWhile_idempotent]

/-- No piece has the character at which the list was cut. -/
theorem notMem_of_mem_splitOn {α : Type*} [BEq α] [LawfulBEq α] {a : α} {xs piece : List α}
    (h : piece ∈ xs.splitOn a) : a ∉ piece := by
  induction xs generalizing piece with
  | nil =>
      obtain rfl : piece = [] := by simpa using h
      exact List.not_mem_nil
  | cons x xs ih =>
      rw [List.splitOn_cons_eq_if_modifyHead] at h
      by_cases hx : x == a
      · rw [if_pos hx] at h
        rcases List.mem_cons.mp h with rfl | h
        · exact List.not_mem_nil
        · exact ih h
      · rw [if_neg hx] at h
        generalize hrest : xs.splitOn a = rest at h ih
        cases rest with
        | nil => cases h
        | cons first rest =>
            rcases List.mem_cons.mp h with rfl | h
            · intro ha
              rcases List.mem_cons.mp ha with rfl | ha
              · exact hx (beq_self_eq_true a)
              · exact ih List.mem_cons_self ha
            · exact ih (List.mem_cons_of_mem _ h)

/-- What a joined list consists of. -/
theorem mem_intercalate {α : Type*} {a b : α} {parts : List (List α)} :
    b ∈ [a].intercalate parts → b = a ∨ ∃ part ∈ parts, b ∈ part := by
  intro h
  induction parts with
  | nil => cases h
  | cons part parts ih =>
      cases parts with
      | nil =>
          rw [List.intercalate_singleton] at h
          exact Or.inr ⟨part, List.mem_cons_self, h⟩
      | cons next parts =>
          rw [List.intercalate_cons_cons, List.append_assoc, List.mem_append, List.singleton_append,
            List.mem_cons] at h
          rcases h with h | h | h
          · exact Or.inr ⟨part, List.mem_cons_self, h⟩
          · exact Or.inl h
          · rcases ih h with h | ⟨q, hq, h⟩
            · exact Or.inl h
            · exact Or.inr ⟨q, List.mem_cons_of_mem _ hq, h⟩

theorem mem_intercalate_of_mem {α : Type*} {a b : α} {parts : List (List α)} {part : List α}
    (hpart : part ∈ parts) (hb : b ∈ part) : b ∈ [a].intercalate parts := by
  induction parts with
  | nil => cases hpart
  | cons first parts ih =>
      cases parts with
      | nil =>
          obtain rfl : part = first := by simpa using hpart
          rwa [List.intercalate_singleton]
      | cons next parts =>
          rw [List.intercalate_cons_cons, List.append_assoc, List.mem_append, List.singleton_append,
            List.mem_cons]
          rcases List.mem_cons.mp hpart with rfl | hpart
          · exact Or.inl hb
          · exact Or.inr (Or.inr (ih hpart))

theorem breakAt_ne_comma (c : Char) : breakAt c ≠ ',' := by
  unfold breakAt
  by_cases hc : c = ','
  · rw [if_pos hc]
    decide
  · rwa [if_neg hc]

theorem breakAt_of_ne {c : Char} (h : c ≠ ',') : breakAt c = c := if_neg h

/-- What is read is tidy. -/
theorem tidy_of_mem_parseLines {s x : String} (h : x ∈ parseLines s) : Tidy x := by
  obtain ⟨hx, hne⟩ := List.mem_filter.mp h
  obtain ⟨piece, hpiece, rfl⟩ := List.mem_map.mp hx
  have hmem : ∀ c ∈ (strip (String.ofList piece)).toList, c ∈ piece := by
    intro c hc
    have := (strip_sublist (String.ofList piece)).subset hc
    rwa [String.toList_ofList] at this
  refine ⟨of_decide_eq_true hne, strip_strip _, fun hc => ?_, fun hc => ?_⟩
  · have hin := mem_intercalate_of_mem (a := '\n') hpiece (hmem _ hc)
    rw [List.intercalate_splitOn] at hin
    obtain ⟨d, -, hd⟩ := List.mem_map.mp hin
    exact breakAt_ne_comma d hd
  · exact notMem_of_mem_splitOn hpiece (hmem _ hc)

/-- Tidy texts are read as they were shown. -/
theorem parseLines_joinLines {xs : List String} (h : ∀ x ∈ xs, Tidy x) :
    parseLines (joinLines xs) = xs := by
  cases hxs : xs with
  | nil => rfl
  | cons y ys =>
      rw [← hxs]
      have hcut : (joinLines xs).toList.map breakAt =
          ['\n'].intercalate (xs.map String.toList) := by
        unfold joinLines
        rw [String.toList_ofList]
        refine (List.map_congr_left fun c hc => ?_).trans (List.map_id _)
        refine breakAt_of_ne ?_
        rcases mem_intercalate hc with rfl | ⟨l, hl, hc⟩
        · decide
        · obtain ⟨x, hx, rfl⟩ := List.mem_map.mp hl
          exact ne_of_mem_of_not_mem hc (h x hx).comma
      unfold parseLines
      rw [hcut, List.splitOn_intercalate '\n' (by
        intro l hl
        obtain ⟨x, hx, rfl⟩ := List.mem_map.mp hl
        exact (h x hx).newline) (by rw [hxs]; exact List.cons_ne_nil _ _)]
      rw [List.map_map]
      have hstrip : (xs.map ((fun cs => strip (String.ofList cs)) ∘ String.toList)) = xs := by
        refine (List.map_congr_left fun x hx => ?_).trans (List.map_id _)
        show strip (String.ofList x.toList) = x
        rw [String.ofList_toList, (h x hx).stripped]
      rw [hstrip]
      exact List.filter_eq_self.mpr fun x hx => decide_eq_true (h x hx).nonempty

/-- Texts that were shown are read as they are exactly if all of them are tidy. -/
theorem parseLines_joinLines_iff {xs : List String} :
    parseLines (joinLines xs) = xs ↔ ∀ x ∈ xs, Tidy x :=
  ⟨fun h _ hx => tidy_of_mem_parseLines (s := joinLines xs) (h.symm ▸ hx), parseLines_joinLines⟩

end GovCrawler
