import Mathlib.Data.List.DropRight

/-!
# Text — the string functions the service is written with

Strings are handled rune by rune.  `strings.ToLower` and `strings.EqualFold` depend on the Unicode
tables, which enter as functions on runes; everything else is spelled out.

* `trimSpace` is `strings.TrimSpace`, `isSpace` is `unicode.IsSpace`;
* `isEmail` is the pattern `^[^@\s]+@[^@\s]+\.[^@\s]+$`, where `\s` is RE2's ASCII class;
* `isE164` is the pattern `^\+[1-9]\d{6,14}$`.
-/

namespace OrbitAuth
namespace Domain

/-- `unicode.IsSpace`. -/
def isSpace (c : Char) : Bool :=
  let n := c.toNat
  (9 ≤ n && n ≤ 13) || n == 0x20 || n == 0x85 || n == 0xA0 || n == 0x1680 ||
    (0x2000 ≤ n && n ≤ 0x200A) || n == 0x2028 || n == 0x2029 || n == 0x202F || n == 0x205F ||
    n == 0x3000

def trimLeft (cs : List Char) : List Char :=
  cs.dropWhile isSpace

def trimSpace (s : String) : String :=
  String.ofList (trimLeft (trimLeft s.toList).reverse).reverse

theorem trimLeft_eq_self {cs : List Char} (h : ∀ c ∈ cs, isSpace c = false) :
    trimLeft cs = cs := by
  cases cs with
  | nil => rfl
  | cons c cs => simp [trimLeft, h c (by simp)]

/-- A text without spaces is its own trimming. -/
theorem trimSpace_eq_self {s : String} (h : ∀ c ∈ s.toList, isSpace c = false) :
    trimSpace s = s := by
  have hrev : ∀ c ∈ s.toList.reverse, isSpace c = false := by
    intro c hc
    exact h c (List.mem_reverse.1 hc)
  simp [trimSpace, trimLeft_eq_self h, trimLeft_eq_self hrev]

theorem trimLeft_rdropWhile (cs : List Char) :
    trimLeft ((trimLeft cs).rdropWhile isSpace) = (trimLeft cs).rdropWhile isSpace := by
  have hpre : (trimLeft cs).rdropWhile isSpace <+: trimLeft cs := List.rdropWhile_prefix isSpace _
  cases hr : (trimLeft cs).rdropWhile isSpace with
  | nil => rfl
  | cons c rest =>
      -- what is left begins like the text whose leading spaces are gone
      rw [hr] at hpre
      rcases hpre with ⟨more, hmore⟩
      have hc : isSpace c = false := by
        have hhead := List.head?_dropWhile_not isSpace cs
        rw [show cs.dropWhile isSpace = trimLeft cs from rfl, ← hmore] at hhead
        simpa using hhead
      simp [trimLeft, hc]

/-- Trimming twice is trimming once. -/
@[simp] theorem trimSpace_trimSpace (s : String) : trimSpace (trimSpace s) = trimSpace s := by
  have hlist : ∀ cs : List Char, (trimLeft cs.reverse).reverse = cs.rdropWhile isSpace :=
    fun _ => rfl
  simp only [trimSpace, String.toList_ofList, hlist, trimLeft_rdropWhile,
    List.rdropWhile_idempotent]

/-- `strings.ToLower` over the rune mapping `lower`. -/
def toLower (lower : Char → Char) (s : String) : String :=
  String.ofList (s.toList.map lower)

theorem trimLeft_map {lower : Char → Char} (h : ∀ c, isSpace (lower c) = isSpace c)
    (cs : List Char) :
    trimLeft (cs.map lower) = (trimLeft cs).map lower := by
  have hcomp : isSpace ∘ lower = isSpace := funext h
  simp [trimLeft, List.dropWhile_map, hcomp]

/-- A rune mapping that keeps spaces commutes with trimming. -/
theorem trimSpace_toLower {lower : Char → Char} (h : ∀ c, isSpace (lower c) = isSpace c)
    (s : String) :
    trimSpace (toLower lower s) = toLower lower (trimSpace s) := by
  simp only [trimSpace, toLower, String.toList_ofList, trimLeft_map h, ← List.map_reverse]

theorem toLower_toLower {lower : Char → Char} (h : ∀ c, lower (lower c) = lower c) (s : String) :
    toLower lower (toLower lower s) = toLower lower s := by
  have hcomp : lower ∘ lower = lower := funext h
  simp [toLower, hcomp]

/-- `strings.EqualFold` over the rune equivalence `fold`. -/
def equalFold (fold : Char → Char → Bool) (s t : String) : Bool :=
  s.toList.length == t.toList.length && (s.toList.zip t.toList).all fun p => fold p.1 p.2

/-- RE2's `\s`. -/
def isRegexpSpace (c : Char) : Bool :=
  let n := c.toNat
  n == 9 || n == 10 || n == 12 || n == 13 || n == 32

def isAddressRune (c : Char) : Bool :=
  c != '@' && !isRegexpSpace c

def isEmail (value : String) : Bool :=
  match value.toList.span fun c => c != '@' with
  | (box, _ :: host) =>
      !box.isEmpty && box.all isAddressRune && host.all isAddressRune &&
        host.tail.dropLast.contains '.'
  | (_, []) => false

def isDigit (c : Char) : Bool :=
  48 ≤ c.toNat && c.toNat ≤ 57

def isE164 (value : String) : Bool :=
  match value.toList with
  | '+' :: d :: rest =>
      isDigit d && d != '0' && rest.all isDigit && 6 ≤ rest.length && rest.length ≤ 14
  | _ => false

example : trimSpace "  a b\n" = "a b" := by decide
example : isEmail "owner@example.com" = true := by decide
example : isEmail "owner@example" = false := by decide
example : isE164 "+4915112345678" = true := by decide

end Domain
end OrbitAuth
