import Mathlib.Tactic.IntervalCases
import OrbitAuth.Domain.Text

/-!
# Uuid — identifiers and their textual forms

Rows are keyed by 128-bit identifiers; every layer above the database passes them around as text.
`Uuid.string` is the canonical lower-case form with dashes and `Uuid.parse` accepts what the
`google/uuid` parser accepts: the 36-character form in either case, the same with a `urn:uuid:`
scheme, the same between two arbitrary delimiters, and 32 bare digits.
-/

namespace OrbitAuth
namespace Domain

/-! ## Hexadecimal digits -/

def hexDigit (n : Nat) : Char :=
  if n < 10 then Char.ofNat (48 + n) else Char.ofNat (87 + n)

def hexValue? (c : Char) : Option Nat :=
  let n := c.toNat
  if 48 ≤ n ∧ n ≤ 57 then some (n - 48)
  else if 97 ≤ n ∧ n ≤ 102 then some (n - 87)
  else if 65 ≤ n ∧ n ≤ 70 then some (n - 55)
  else none

/-- The `k` lowest hexadecimal digits of `n`, most significant first. -/
def hexDigits : Nat → Nat → List Char
  | 0, _ => []
  | k + 1, n => hexDigits k (n / 16) ++ [hexDigit (n % 16)]

def ofHex (cs : List Char) : Option Nat :=
  cs.foldlM (fun acc c => (hexValue? c).map fun v => 16 * acc + v) 0

theorem hexValue?_hexDigit {n : Nat} (h : n < 16) : hexValue? (hexDigit n) = some n := by
  interval_cases n <;> decide

@[simp] theorem length_hexDigits (k n : Nat) : (hexDigits k n).length = k := by
  induction k generalizing n with
  | zero => rfl
  | succ k ih => simp [hexDigits, ih]

theorem ofHex_hexDigits (k n : Nat) : ofHex (hexDigits k n) = some (n % 16 ^ k) := by
  induction k generalizing n with
  | zero => simp [hexDigits, ofHex, Nat.mod_one]
  | succ k ih =>
      have hk : (hexDigits k (n / 16)).foldlM
          (fun acc c => (hexValue? c).map fun v => 16 * acc + v) 0 = some (n / 16 % 16 ^ k) :=
        ih (n / 16)
      have hlow : n % 16 < 16 := Nat.mod_lt _ (by decide)
      have hsplit : 16 * (n / 16 % 16 ^ k) + n % 16 = n % 16 ^ (k + 1) := by
        rw [Nat.pow_succ, Nat.mul_comm (16 ^ k) 16, Nat.mod_mul]
        omega
      simp [ofHex, hexDigits, List.foldlM_append, hk, hexValue?_hexDigit hlow, hsplit]

/-! ## Identifiers -/

structure Uuid where
  val : Nat
  isLt : val < 2 ^ 128
  deriving DecidableEq

namespace Uuid

/-- The identifier with the given low 128 bits. -/
def ofNat (n : Nat) : Uuid :=
  ⟨n % 2 ^ 128, Nat.mod_lt _ (by decide)⟩

theorem ext_val {u v : Uuid} (h : u.val = v.val) : u = v := by
  cases u
  cases v
  cases h
  rfl

/-- `xxxxxxxx-xxxx-xxxx-xxxx-xxxxxxxxxxxx`. -/
def layout (d : List Char) : List Char :=
  d.take 8 ++ '-' :: ((d.drop 8).take 4 ++ '-' :: ((d.drop 12).take 4 ++ '-' ::
    ((d.drop 16).take 4 ++ '-' :: d.drop 20)))

def string (u : Uuid) : String :=
  String.ofList (layout (hexDigits 32 u.val))

/-- The digits of the dashed form, at its fixed offsets. -/
def undash? (cs : List Char) : Option (List Char) :=
  if cs[8]? = some '-' ∧ cs[13]? = some '-' ∧ cs[18]? = some '-' ∧ cs[23]? = some '-' then
    some (cs.take 8 ++ (cs.drop 9).take 4 ++ (cs.drop 14).take 4 ++ (cs.drop 19).take 4 ++
      (cs.drop 24).take 12)
  else none

def ofDigits? (d : List Char) : Option Uuid :=
  (ofHex d).map ofNat

def urn : List Char :=
  ['u', 'r', 'n', ':', 'u', 'u', 'i', 'd', ':']

/-- `uuid.Parse`.  The parser reads bytes; a string with a rune beyond ASCII never parses. -/
def parse (s : String) : Option Uuid :=
  let cs := s.toList
  if cs.any fun c => 128 ≤ c.toNat then none
  else if cs.length = 36 then (undash? cs).bind ofDigits?
  else if cs.length = 45 then
    if (cs.take 9).map Char.toLower = urn then (undash? (cs.drop 9)).bind ofDigits? else none
  else if cs.length = 38 then (undash? (cs.drop 1)).bind ofDigits?
  else if cs.length = 32 then ofDigits? cs
  else none

theorem ofNat_val (u : Uuid) : ofNat u.val = u :=
  ext_val (Nat.mod_eq_of_lt u.isLt)

theorem ofDigits?_hexDigits (u : Uuid) : ofDigits? (hexDigits 32 u.val) = some u := by
  have hpow : (16 : Nat) ^ 32 = 2 ^ 128 := by decide
  rw [ofDigits?, ofHex_hexDigits, hpow, Nat.mod_eq_of_lt u.isLt, Option.map_some, ofNat_val]

theorem length_layout {d : List Char} (h : d.length = 32) : (layout d).length = 36 := by
  simp [layout, h]

theorem undash?_layout {d : List Char} (h : d.length = 32) : undash? (layout d) = some d := by
  obtain ⟨d₁, r₁, rfl, h₁⟩ : ∃ a b, d = a ++ b ∧ a.length = 8 :=
    ⟨d.take 8, d.drop 8, (List.take_append_drop 8 d).symm, by simp [h]⟩
  obtain ⟨d₂, r₂, rfl, h₂⟩ : ∃ a b, r₁ = a ++ b ∧ a.length = 4 :=
    ⟨r₁.take 4, r₁.drop 4, (List.take_append_drop 4 r₁).symm, by simp at h ⊢; omega⟩
  obtain ⟨d₃, r₃, rfl, h₃⟩ : ∃ a b, r₂ = a ++ b ∧ a.length = 4 :=
    ⟨r₂.take 4, r₂.drop 4, (List.take_append_drop 4 r₂).symm, by simp at h ⊢; omega⟩
  obtain ⟨d₄, d₅, rfl, h₄⟩ : ∃ a b, r₃ = a ++ b ∧ a.length = 4 :=
    ⟨r₃.take 4, r₃.drop 4, (List.take_append_drop 4 r₃).symm, by simp at h ⊢; omega⟩
  have h₅ : d₅.length = 12 := by simp at h; omega
  simp [undash?, layout, List.drop_append, List.take_of_length_le,
    List.drop_eq_nil_of_le, h₁, h₂, h₃, h₄, h₅]

/-- What holds of every digit holds of every rune of a row of digits. -/
theorem forall_hexDigits {P : Char → Prop} (hP : ∀ n < 16, P (hexDigit n)) (k n : Nat) :
    ∀ c ∈ hexDigits k n, P c := by
  induction k generalizing n with
  | zero =>
      intro c hc
      cases hc
  | succ k ih =>
      intro c hc
      rcases List.mem_append.1 hc with h | h
      · exact ih _ c h
      · have : c = hexDigit (n % 16) := by simpa using h
        rw [this]
        exact hP _ (Nat.mod_lt _ (by decide))

theorem forall_layout {P : Char → Prop} (hdash : P '-') {d : List Char} (h : ∀ c ∈ d, P c) :
    ∀ c ∈ layout d, P c := by
  intro c hc
  simp only [layout, List.mem_append, List.mem_cons] at hc
  rcases hc with hc | rfl | hc | rfl | hc | rfl | hc | rfl | hc
  · exact h c (List.mem_of_mem_take hc)
  · exact hdash
  · exact h c (List.mem_of_mem_drop (List.mem_of_mem_take hc))
  · exact hdash
  · exact h c (List.mem_of_mem_drop (List.mem_of_mem_take hc))
  · exact hdash
  · exact h c (List.mem_of_mem_drop (List.mem_of_mem_take hc))
  · exact hdash
  · exact h c (List.mem_of_mem_drop hc)

/-- What holds of every digit and of the dash holds of every rune of the canonical text. -/
theorem forall_string {P : Char → Prop} (hdash : P '-') (hP : ∀ n < 16, P (hexDigit n)) (u : Uuid) :
    ∀ c ∈ u.string.toList, P c := by
  intro c hc
  rw [string, String.toList_ofList] at hc
  exact forall_layout hdash (forall_hexDigits hP 32 u.val) c hc

/-- The canonical text parses to the identifier it came from. -/
@[simp] theorem parse_string (u : Uuid) : parse u.string = some u := by
  have hascii : ∀ c ∈ layout (hexDigits 32 u.val), c.toNat < 128 :=
    forall_layout (by decide) (forall_hexDigits (by decide) 32 u.val)
  have hany : ((layout (hexDigits 32 u.val)).any fun c => decide (128 ≤ c.toNat)) = false := by
    rw [List.any_eq_false]
    intro c hc
    have := hascii c hc
    simp only [decide_eq_true_eq]
    omega
  have hlen : (layout (hexDigits 32 u.val)).length = 36 := length_layout (length_hexDigits 32 _)
  simp only [parse, string, String.toList_ofList, hany, hlen, if_true, Bool.false_eq_true,
    if_false, undash?_layout (length_hexDigits 32 _), Option.bind_some]
  exact ofDigits?_hexDigits u

theorem string_injective {u v : Uuid} (h : u.string = v.string) : u = v := by
  have huv : some u = some v := by rw [← parse_string u, h, parse_string v]
  exact Option.some.inj huv

/-- The canonical text has no space to trim. -/
@[simp] theorem trimSpace_string (u : Uuid) : trimSpace u.string = u.string :=
  trimSpace_eq_self (forall_string (by decide) (by decide) u)

theorem string_ne_empty (u : Uuid) : u.string ≠ "" := by
  intro h
  have hlen : (layout (hexDigits 32 u.val)).length = 36 := length_layout (length_hexDigits 32 _)
  have hnil : layout (hexDigits 32 u.val) = [] := by
    simpa [string] using congrArg String.toList h
  rw [hnil] at hlen
  cases hlen

/-- A text that names an identifier is not empty. -/
theorem ne_empty_of_parse {s : String} {u : Uuid} (h : parse s = some u) : s ≠ "" := by
  intro hempty
  rw [hempty] at h
  cases h

example : parse "00000000-0000-0000-0000-0000000000FF" = some (ofNat 255) := by decide
example : parse "urn:uuid:00000000-0000-0000-0000-000000000001" = some (ofNat 1) := by decide

end Uuid

end Domain
end OrbitAuth
