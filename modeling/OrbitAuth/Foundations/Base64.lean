import Mathlib.Data.Nat.Digits.Lemmas

/-!
# Base64 — the unpadded URL-safe alphabet

`decode` reads text in the alphabet `A–Z a–z 0–9 - _` without padding.  Line breaks are skipped and
the unused low bits of the last digit are ignored, as lenient decoders do; any other character, and
a single digit left over at the end, are refused.  `encode` writes such text.  Numbers travel as
their bytes, most significant byte first and without leading zeros.

* `decode_encode` — decoding undoes encoding.
* `bigEndian_bytesOf` — a number is read back from its bytes.
-/

namespace OrbitAuth
namespace Foundations
namespace Base64

variable {bs : List Nat} {n : Nat}

/-- The value of a digit. -/
def sextet? (c : Char) : Option Nat :=
  let n := c.toNat
  if 65 ≤ n ∧ n ≤ 90 then some (n - 65)
  else if 97 ≤ n ∧ n ≤ 122 then some (n - 71)
  else if 48 ≤ n ∧ n ≤ 57 then some (n + 4)
  else if c = '-' then some 62
  else if c = '_' then some 63
  else none

/-- The bytes of a sequence of digits, four digits to three bytes. -/
def bytes? : List Nat → Option (List Nat)
  | [] => some []
  | [_] => none
  | [a, b] => some [a * 4 + b / 16]
  | [a, b, c] => some [a * 4 + b / 16, b % 16 * 16 + c / 4]
  | a :: b :: c :: d :: rest =>
      (bytes? rest).map fun bs =>
        (a * 4 + b / 16) :: (b % 16 * 16 + c / 4) :: (c % 4 * 64 + d) :: bs

def isLineBreak (c : Char) : Bool :=
  c = '\n' || c = '\r'

def decode (s : String) : Option (List Nat) :=
  ((s.toList.filter fun c => !isLineBreak c).mapM sextet?).bind bytes?

/-- The number a sequence of bytes spells, most significant byte first. -/
def bigEndian (bs : List Nat) : Nat :=
  bs.foldl (fun n b => n * 256 + b) 0

example : (decode "AQAB").map bigEndian = some 65537 := by decide
example : decode "A" = none := by decide

/-! ## Digits -/

/-- The digit of a value below 64. -/
def digit (n : Nat) : Char :=
  if n < 26 then Char.ofNat (n + 65)
  else if n < 52 then Char.ofNat (n + 71)
  else if n < 62 then Char.ofNat (n - 4)
  else if n = 62 then '-'
  else '_'

theorem sextet?_digit (h : n < 64) : sextet? (digit n) = some n := by
  have hall : ∀ n < 64, sextet? (digit n) = some n := by decide
  exact hall n h

theorem digit_not_lineBreak (h : n < 64) : isLineBreak (digit n) = false := by
  have hall : ∀ n < 64, isLineBreak (digit n) = false := by decide
  exact hall n h

theorem sextet?_lt {c : Char} (h : sextet? c = some n) : n < 64 := by
  unfold sextet? at h
  dsimp only at h
  split at h
  · cases h
    omega
  · split at h
    · cases h
      omega
    · split at h
      · cases h
        omega
      · split at h
        · cases h
          omega
        · split at h <;> cases h
          omega

/-- Reading digits back, value by value. -/
theorem mapM_sextet?_digit {ns : List Nat} (h : ∀ n ∈ ns, n < 64) :
    (ns.map digit).mapM sextet? = some ns := by
  induction ns with
  | nil => rfl
  | cons n ns ih =>
      have htail : (ns.map digit).mapM sextet? = some ns := ih fun m hm => h m (by simp [hm])
      simp [sextet?_digit (h n (by simp)), htail]

/-! ## Encoding -/

/-- The digits of a sequence of bytes, three bytes to four digits. -/
def sextets : List Nat → List Nat
  | [] => []
  | [x] => [x / 4, x % 4 * 16]
  | [x, y] => [x / 4, x % 4 * 16 + y / 16, y % 16 * 4]
  | x :: y :: z :: rest =>
      x / 4 :: (x % 4 * 16 + y / 16) :: (y % 16 * 4 + z / 64) :: z % 64 :: sextets rest

def encode (bs : List Nat) : String :=
  String.ofList ((sextets bs).map digit)

theorem sextets_lt (h : ∀ b ∈ bs, b < 256) : ∀ n ∈ sextets bs, n < 64 := by
  fun_induction sextets bs with
  | case1 => simp
  | case2 x =>
      have hx := h x (by simp)
      simp
      omega
  | case3 x y =>
      have hx := h x (by simp)
      have hy := h y (by simp)
      simp
      omega
  | case4 x y z rest ih =>
      have hx := h x (by simp)
      have hy := h y (by simp)
      have hz := h z (by simp)
      have hrest := ih fun b hb => h b (by simp [hb])
      intro n hn
      simp only [List.mem_cons] at hn
      rcases hn with rfl | rfl | rfl | rfl | hn
      · omega
      · omega
      · omega
      · omega
      · exact hrest n hn

theorem bytes?_sextets (h : ∀ b ∈ bs, b < 256) : bytes? (sextets bs) = some bs := by
  fun_induction sextets bs with
  | case1 => rfl
  | case2 x =>
      simp only [bytes?, Option.some.injEq, List.cons.injEq, and_true]
      omega
  | case3 x y =>
      have hy := h y (by simp)
      simp only [bytes?, Option.some.injEq, List.cons.injEq, and_true]
      omega
  | case4 x y z rest ih =>
      have hy := h y (by simp)
      have hz := h z (by simp)
      have hrest : bytes? (sextets rest) = some rest := ih fun b hb => h b (by simp [hb])
      simp only [bytes?, hrest, Option.map_some, Option.some.injEq, List.cons.injEq, and_true]
      omega

/-- Decoding undoes encoding. -/
theorem decode_encode (h : ∀ b ∈ bs, b < 256) : decode (encode bs) = some bs := by
  have hlt := sextets_lt h
  have hkept : ((sextets bs).map digit).filter (fun c => !isLineBreak c) =
      (sextets bs).map digit := by
    rw [List.filter_eq_self]
    intro c hc
    obtain ⟨n, hn, rfl⟩ := List.mem_map.mp hc
    simp [digit_not_lineBreak (hlt n hn)]
  simp only [decode, encode, String.toList_ofList, hkept, mapM_sextet?_digit hlt, Option.bind_some,
    bytes?_sextets h]

theorem bytes?_lt {ns : List Nat} (h : ∀ n ∈ ns, n < 64) :
    ∀ {bs : List Nat}, bytes? ns = some bs → ∀ b ∈ bs, b < 256 := by
  fun_induction bytes? ns with
  | case1 =>
      intro bs hbs
      cases hbs
      simp
  | case2 =>
      intro bs hbs
      cases hbs
  -- two sextets left: one byte, and the low bits of the second are lost
  | case3 a b =>
      intro bs hbs
      have ha := h a (by simp)
      have hb := h b (by simp)
      cases hbs
      simp
      omega
  -- three sextets left: two bytes
  | case4 a b c =>
      intro bs hbs
      have ha := h a (by simp)
      have hb := h b (by simp)
      have hc := h c (by simp)
      cases hbs
      simp
      omega
  | case5 a b c d rest ih =>
      intro bs hbs
      have ha := h a (by simp)
      have hb := h b (by simp)
      have hc := h c (by simp)
      have hd := h d (by simp)
      obtain ⟨tail, htail, rfl⟩ := Option.map_eq_some_iff.mp hbs
      have hlt := ih (fun n hn => h n (by simp [hn])) htail
      intro x hx
      simp only [List.mem_cons] at hx
      rcases hx with rfl | rfl | rfl | hx
      · omega
      · omega
      · omega
      · exact hlt x hx

theorem mapM_sextet?_lt {cs : List Char} :
    ∀ {ns : List Nat}, cs.mapM sextet? = some ns → ∀ n ∈ ns, n < 64 := by
  induction cs with
  | nil =>
      intro ns h
      cases h
      simp
  | cons c cs ih =>
      intro ns h
      simp only [List.mapM_cons, Option.bind_eq_bind, Option.bind_eq_some_iff, Option.pure_def,
        Option.some.injEq] at h
      obtain ⟨n, hn, tail, htail, rfl⟩ := h
      intro m hm
      rcases List.mem_cons.mp hm with rfl | hm
      · exact sextet?_lt hn
      · exact ih htail m hm

/-- What is decoded are bytes. -/
theorem decode_lt {s : String} (h : decode s = some bs) : ∀ b ∈ bs, b < 256 := by
  obtain ⟨ns, hns, hbs⟩ := Option.bind_eq_some_iff.mp h
  exact bytes?_lt (mapM_sextet?_lt hns) hbs

/-! ## Numbers -/

/-- The bytes of a number, most significant byte first. -/
def bytesOf (n : Nat) : List Nat :=
  (Nat.digits 256 n).reverse

theorem bytesOf_lt : ∀ b ∈ bytesOf n, b < 256 := by
  intro b hb
  exact Nat.digits_lt_base (by decide) (List.mem_reverse.mp hb)

theorem bigEndian_reverse (ds : List Nat) : bigEndian ds.reverse = Nat.ofDigits 256 ds := by
  rw [Nat.ofDigits_eq_foldr, bigEndian, List.foldl_reverse]
  congr 1
  funext d n
  simp only [Nat.cast_id]
  omega

/-- A number is read back from its bytes. -/
theorem bigEndian_bytesOf (n : Nat) : bigEndian (bytesOf n) = n := by
  rw [bytesOf, bigEndian_reverse, Nat.ofDigits_digits]

theorem bigEndian_lt (h : ∀ b ∈ bs, b < 256) : bigEndian bs < 256 ^ bs.length := by
  have hrev : bigEndian bs = Nat.ofDigits 256 bs.reverse := by
    rw [← bigEndian_reverse, List.reverse_reverse]
  rw [hrev, ← List.length_reverse]
  exact Nat.ofDigits_lt_base_pow_length (by decide) fun b hb => h b (List.mem_reverse.mp hb)

theorem length_bytesOf_le {n k : Nat} : (bytesOf n).length ≤ k ↔ n < 256 ^ k := by
  rw [bytesOf, List.length_reverse]
  exact Nat.digits_length_le_iff (by decide) n

theorem length_bytesOf_pos (h : n ≠ 0) : (bytesOf n).length ≠ 0 := by
  intro hlength
  have hlt : n < 256 ^ 0 := length_bytesOf_le.mp (Nat.le_of_eq hlength)
  omega

end Base64
end Foundations
end OrbitAuth
