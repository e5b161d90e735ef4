/-
Where the network location of a URL begins and ends.

What a URL begins with up to the first character that is neither a control nor a space does not
count, and no tab and no line break does.  Then comes a scheme, if what stands before the first
colon can be one, and after two slashes the network location, up to the first of `/`, `?` and `#`.
What is wrong with a location is left to a predicate of it; a location that is refused raises.
-/
import Mathlib.Data.List.TakeWhile
import Mathlib.Tactic.Basic

namespace UrlSplit

/-- A URL, as far as it is split here. -/
structure Split where
  scheme : String
  netloc : String
  deriving DecidableEq, Repr

/-- Up to `0x20`. -/
def isC0OrSpace (c : Char) : Bool := decide (c.toNat ≤ 32)

/-- A character that is taken out wherever it stands. -/
def isUnsafe (c : Char) : Bool := c == '\t' || c == '\r' || c == '\n'

def isSchemeChar (c : Char) : Bool := c.isAlphanum || c == '+' || c == '-' || c == '.'

/-- What ends a network location. -/
def isDelimiter (c : Char) : Bool := c == '/' || c == '?' || c == '#'

def clean (url : List Char) : List Char := (url.dropWhile isC0OrSpace).filter fun c => !isUnsafe c

/-- What stands before the first colon, and behind it. -/
def atColon : List Char → Option (List Char × List Char)
  | [] => none
  | c :: cs => if c = ':' then some ([], cs) else (atColon cs).map fun r => (c :: r.1, r.2)

/-- The scheme, or none, and what is left of the URL. -/
def splitScheme (url : List Char) : List Char × List Char :=
  match atColon url with
  | none => ([], url)
  | some (scheme, rest) =>
      if scheme.head?.any Char.isAlpha && scheme.all isSchemeChar then (scheme, rest)
      else ([], url)

/-- The location of what stands behind the scheme. -/
def netlocOf : List Char → List Char
  | '/' :: '/' :: rest => rest.takeWhile fun c => !isDelimiter c
  | _ => []

/-- `urlsplit`; `accepts` stands for the checks of the location. -/
def urlsplit (accepts : String → Bool) (url : String) : Option Split :=
  let (scheme, rest) := splitScheme (clean url.toList)
  let netloc := String.ofList (netlocOf rest)
  if accepts netloc then some ⟨String.ofList (scheme.map Char.toLower), netloc⟩ else none

/-! ### A URL that goes on -/

/-- What can follow on a network location: nothing, or a path. -/
def IsPath (path : List Char) : Prop := ∀ c ∈ path.head?, c = '/'

instance (path : List Char) : Decidable (IsPath path) :=
  match path with
  | [] => isTrue fun _ h => nomatch h
  | c :: _ => decidable_of_iff (c = '/') ⟨fun h _ hc => Option.some.inj hc ▸ h, fun h => h c rfl⟩

theorem clean_append {url path : List Char} (hurl : clean url ≠ []) :
    clean (url ++ path) = clean url ++ path.filter fun c => !isUnsafe c := by
  have hrest : (url.dropWhile isC0OrSpace).isEmpty = false := by
    cases hdrop : url.dropWhile isC0OrSpace with
    | nil => exact absurd (by rw [clean, hdrop]; rfl) hurl
    | cons c cs => rfl
  unfold clean
  rw [List.dropWhile_append, hrest, if_neg Bool.false_ne_true, List.filter_append]

theorem IsPath.filter {path : List Char} (h : IsPath path) :
    IsPath (path.filter fun c => !isUnsafe c) := by
  cases path with
  | nil => exact h
  | cons c cs =>
      obtain rfl := h c rfl
      intro d hd
      exact (Option.some.inj hd).symm

theorem atColon_append {url path scheme rest : List Char} (h : atColon url = some (scheme, rest)) :
    atColon (url ++ path) = some (scheme, rest ++ path) := by
  induction url generalizing scheme with
  | nil => cases h
  | cons c cs ih =>
      rw [atColon] at h
      rw [List.cons_append, atColon]
      by_cases hc : c = ':'
      · rw [if_pos hc] at h ⊢
        obtain ⟨rfl, rfl⟩ := Prod.mk.inj (Option.some.inj h)
        rfl
      · rw [if_neg hc] at h ⊢
        obtain ⟨⟨scheme', rest'⟩, hr, heq⟩ := Option.map_eq_some_iff.mp h
        obtain ⟨rfl, rfl⟩ := Prod.mk.inj heq
        rw [ih hr]
        rfl

/-- A URL with a scheme keeps it. -/
theorem splitScheme_append {url path : List Char} (h : (splitScheme url).1 ≠ []) :
    splitScheme (url ++ path) = ((splitScheme url).1, (splitScheme url).2 ++ path) := by
  unfold splitScheme at h ⊢
  cases hcolon : atColon url with
  | none =>
      rw [hcolon] at h
      exact absurd rfl h
  | some r =>
      obtain ⟨scheme, rest⟩ := r
      rw [hcolon] at h
      rw [atColon_append hcolon]
      dsimp only at h ⊢
      by_cases hscheme : (scheme.head?.any Char.isAlpha && scheme.all isSchemeChar) = true
      · rw [if_pos hscheme, if_pos hscheme]
      · rw [if_neg hscheme] at h
        exact absurd rfl h

/-- A path ends the location, if nothing has ended it before. -/
theorem netlocOf_append {rest path : List Char} (hrest : netlocOf rest ≠ []) (hpath : IsPath path) :
    netlocOf (rest ++ path) = netlocOf rest := by
  have hstop : path.takeWhile (fun c => !isDelimiter c) = [] := by
    cases path with
    | nil => rfl
    | cons c cs =>
        obtain rfl := hpath c rfl
        rfl
  unfold netlocOf at hrest
  split at hrest
  · rename_i rest
    show (rest ++ path).takeWhile _ = rest.takeWhile _
    rw [List.takeWhile_append, hstop, List.append_nil]
    split
    · rename_i hall
      exact (List.takeWhile_prefix _).eq_of_length hall |>.symm
    · rfl
  · exact absurd rfl hrest

/-- **A URL with a scheme and a location that goes on with a path** has the same of both. -/
theorem urlsplit_append {accepts : String → Bool} {url path : String} {split : Split}
    (h : urlsplit accepts url = some split) (hscheme : split.scheme ≠ "") (hnetloc : split.netloc ≠ "")
    (hpath : IsPath path.toList) : urlsplit accepts (url ++ path) = some split := by
  unfold urlsplit at h ⊢
  dsimp only at h
  split at h
  · rename_i haccepts
    obtain rfl := Option.some.inj h
    have hclean : clean url.toList ≠ [] := fun hnil => by
      rw [hnil] at hscheme
      exact hscheme rfl
    have hsplit : (splitScheme (clean url.toList)).1 ≠ [] := fun hnil => by
      rw [hnil] at hscheme
      exact hscheme rfl
    have hrest : netlocOf (splitScheme (clean url.toList)).2 ≠ [] := fun hnil => by
      rw [hnil] at hnetloc
      exact hnetloc rfl
    rw [String.toList_append, clean_append hclean, splitScheme_append hsplit]
    dsimp only
    rw [netlocOf_append hrest hpath.filter, if_pos haccepts]
  · cases h

end UrlSplit
