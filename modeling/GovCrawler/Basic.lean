/-
What the modelled code shares: a clock, and the few string operations whose
behaviour in the source language matters.

Times are microseconds since the epoch, the resolution of the timestamps the
database stores.
-/
import Mathlib.Tactic.Basic

namespace GovCrawler

/-- A moment, or a span between two, in microseconds. -/
abbrev Time := Nat

def seconds (n : Nat) : Time := n * 1000000

def minutes (n : Nat) : Time := seconds (n * 60)

def hours (n : Nat) : Time := minutes (n * 60)

def days (n : Nat) : Time := hours (n * 24)

/-- 00:00 UTC of the day `now` falls in. -/
def todayStart (now : Time) : Time := now - now % days 1

/-- The characters `str.strip` removes. -/
def isSpace (c : Char) : Bool :=
  let n := c.toNat
  (9 ≤ n && n ≤ 13) || (28 ≤ n && n ≤ 32) || n == 0x85 || n == 0xA0 || n == 0x1680
    || (0x2000 ≤ n && n ≤ 0x200A) || n == 0x2028 || n == 0x2029 || n == 0x202F
    || n == 0x205F || n == 0x3000

/-- `not s.strip()`. -/
def isBlank (s : String) : Bool := s.toList.all isSpace

/-- `s.split("@")[1] if "@" in s else ""`. -/
def domainPart (s : String) : String :=
  match s.toList.dropWhile (· ≠ '@') with
  | [] => ""
  | _ :: rest => String.ofList (rest.takeWhile (· ≠ '@'))

/-- `s.removeprefix(p)`. -/
def removePrefix (p s : String) : String :=
  if p.toList.isPrefixOf s.toList then String.ofList (s.toList.drop p.length) else s

/-- `s.rstrip(c)`. -/
def rstrip (c : Char) (s : String) : String :=
  String.ofList (s.toList.reverse.dropWhile (· == c)).reverse

/-- `s.lstrip(c)`. -/
def lstrip (c : Char) (s : String) : String := String.ofList (s.toList.dropWhile (· == c))

/-- `s.strip()`. -/
def strip (s : String) : String :=
  String.ofList ((s.toList.dropWhile isSpace).reverse.dropWhile isSpace).reverse

/-- `s.endswith(suffix)`. -/
def endsWith (suffix s : String) : Bool := suffix.toList.isSuffixOf s.toList

/-- Whether one list of characters occurs in another. -/
def occursIn (sub : List Char) : List Char → Bool
  | [] => sub.isEmpty
  | c :: cs => sub.isPrefixOf (c :: cs) || occursIn sub cs

/-- `sub in s`. -/
def containsSub (sub s : String) : Bool := occursIn sub.toList s.toList

/-- Truthiness of an optional string: neither `None` nor empty. -/
def truthy : Option String → Bool
  | none => false
  | some s => s ≠ ""

theorem truthy_iff {value : Option String} : truthy value = true ↔ ∃ s, value = some s ∧ s ≠ "" := by
  cases value with
  | none => exact ⟨nofun, fun ⟨s, hs, _⟩ => nomatch hs⟩
  | some s => exact ⟨fun h => ⟨s, rfl, of_decide_eq_true h⟩, fun ⟨_, rfl, hne⟩ => decide_eq_true hne⟩

/-- `a or b`. -/
def orElse (a b : Option String) : Option String := if truthy a then a else b

end GovCrawler
