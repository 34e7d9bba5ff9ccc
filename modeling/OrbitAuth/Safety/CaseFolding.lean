import OrbitAuth.Safety.Mailbox

/-!
# CaseFolding — two notions of the same address

Accounts and invitations are stored under `NormalizeEmail`, which trims and maps every rune with
`unicode.ToLower`.  Whether an account is the recipient of an invitation is decided with
`strings.EqualFold`, which is simple case folding.  The two differ in three ways:

* some lower-case letters have a second form (`ſ` of `s`, `ς` of `σ`), which folds with the first
  but is lower case already;
* `İ` has a lower case, `i`, but folds with nothing;
* white space that the address pattern lets through is trimmed, but not folded away.

`equalFold_iff` and `normalizeEmail_eq_iff` say what each of them compares, in terms of these three;
`recipients_agree_iff` says exactly for which addresses they agree, and
`recipient_of_another_address` shows addresses for which they do not.
-/

namespace OrbitAuth
namespace Domain
namespace Folding

/-! ## What the tables say -/

/-- `İ`, the capital I with a dot. -/
def dottedI : Char :=
  Char.ofNat 0x130

section Runes

variable (env : Env) (form : Char → Option Char)

/-- The letter of a rune, whatever its case and form.  `form v = some m` says that `v` is a second
form of the lower-case letter `m`. -/
def letter (c : Char) : Char :=
  (form (env.lowerRune c)).getD (env.lowerRune c)

/-- The second form in which a rune stands, if it does. -/
def variant (c : Char) : Option Char :=
  if (form (env.lowerRune c)).isSome then some (env.lowerRune c) else none

/-- What is asked of `unicode.ToLower` and `unicode.SimpleFold`, which are parameters here.  `fold`:
the orbits of `SimpleFold` are the runes of one letter, that is, runes whose lower cases are equal
or second forms of one letter by `form`; only the orbit of `İ` is `İ` alone although its lower case
is `i`.  `space` and `caseless`: no white space is, or has, another case.  `form_space`: no second
form is a white space.  `formsEnv` meets this with the ASCII letters, `İ` and the second forms of
the Unicode data; other letters have no case there. -/
structure SimpleFolding : Prop where
  fold : ∀ c d, env.foldRune c d = true ↔
    (c = dottedI ↔ d = dottedI) ∧ letter env form c = letter env form d
  space : ∀ c, isSpace (env.lowerRune c) = isSpace c
  caseless : ∀ c, isSpace c = true → env.lowerRune c = c
  form_space : ∀ v m, form v = some m → isSpace v = false ∧ isSpace m = false

/-- What folding looks at. -/
def foldKey (c : Char) : Bool × Char :=
  (c = dottedI, letter env form c)

end Runes

variable {env : Env} {form : Char → Option Char}

theorem fold_iff (h : SimpleFolding env form) (c d : Char) :
    env.foldRune c d = true ↔ foldKey env form c = foldKey env form d := by
  rw [h.fold]
  simp [foldKey]

/-- Lower-casing looks at the letter and its form. -/
theorem lower_iff (c d : Char) :
    env.lowerRune c = env.lowerRune d ↔
      letter env form c = letter env form d ∧ variant env form c = variant env form d := by
  constructor
  · intro h
    unfold letter variant
    rw [h]
    exact ⟨rfl, rfl⟩
  · rintro ⟨hletter, hvariant⟩
    unfold letter at hletter
    unfold variant at hvariant
    cases hc : form (env.lowerRune c) with
    | none =>
        cases hd : form (env.lowerRune d) with
        | none => simpa [hc, hd] using hletter
        | some m => simp [hc, hd] at hvariant
    | some m =>
        cases hd : form (env.lowerRune d) with
        | none => simp [hc, hd] at hvariant
        | some m' => simpa [hc, hd] using hvariant

theorem isSpace_letter (h : SimpleFolding env form) (c : Char) :
    isSpace (letter env form c) = isSpace c := by
  unfold letter
  cases hform : form (env.lowerRune c) with
  | none => exact h.space c
  | some m =>
      obtain ⟨hv, hm⟩ := h.form_space _ m hform
      rw [Option.getD_some, hm, ← h.space c, hv]

/-- White space folds with itself only. -/
theorem foldKey_space (h : SimpleFolding env form) {c : Char} (hc : isSpace c = true) :
    foldKey env form c = (false, c) := by
  have hnot : c ≠ dottedI := by
    rintro rfl
    exact absurd hc (by decide)
  have hletter : letter env form c = c := by
    unfold letter
    rw [h.caseless c hc]
    cases hform : form c with
    | none => rfl
    | some m => exact absurd ((h.form_space c m hform).1.symm.trans hc) Bool.false_ne_true
  unfold foldKey
  rw [hletter, decide_eq_false hnot]

/-! ## The parts of an address -/

/-- The white space before and after. -/
def padding (s : String) : List Char × List Char :=
  (s.toList.takeWhile isSpace, ((trimLeft s.toList).reverse.takeWhile isSpace).reverse)

/-- The letters between, without case and form. -/
def spelling (env : Env) (form : Char → Option Char) (s : String) : List Char :=
  (trimSpace s).toList.map (letter env form)

/-- Where they are a dotted I. -/
def dots (s : String) : List Bool :=
  (trimSpace s).toList.map fun c => c = dottedI

/-- Where they stand in a second form, and which. -/
def variants (env : Env) (form : Char → Option Char) (s : String) : List (Option Char) :=
  (trimSpace s).toList.map (variant env form)

theorem toList_parts (s : String) : s.toList = (padding s).1 ++ (trimSpace s).toList ++
    (padding s).2 := by
  have hrest : trimLeft s.toList = (trimSpace s).toList ++ (padding s).2 := by
    simp only [trimSpace, padding, trimLeft, String.toList_ofList, ← List.reverse_append,
      List.takeWhile_append_dropWhile, List.reverse_reverse]
  calc
    s.toList = s.toList.takeWhile isSpace ++ trimLeft s.toList :=
      List.takeWhile_append_dropWhile.symm
    _ = (padding s).1 ++ (trimSpace s).toList ++ (padding s).2 := by
      rw [hrest, List.append_assoc]
      rfl

/-! ## What each of them compares -/

section Lists

variable {α β γ : Type}

theorem map_eq_map_and {f : Char → α} {g : Char → β} {k : Char → γ}
    (h : ∀ c d, f c = f d ↔ g c = g d ∧ k c = k d) (xs ys : List Char) :
    xs.map f = ys.map f ↔ xs.map g = ys.map g ∧ xs.map k = ys.map k := by
  induction xs generalizing ys with
  | nil => cases ys <;> simp
  | cons c cs ih =>
      cases ys with
      | nil => simp
      | cons d ds =>
          simp only [List.map_cons, List.cons.injEq, h, ih]
          tauto

theorem equalFold_eq_map {fold : Char → Char → Bool} {key : Char → α}
    (h : ∀ c d, fold c d = true ↔ key c = key d) (s t : String) :
    equalFold fold s t = true ↔ s.toList.map key = t.toList.map key := by
  unfold equalFold
  generalize s.toList = xs
  generalize t.toList = ys
  induction xs generalizing ys with
  | nil => cases ys <;> simp
  | cons c cs ih =>
      cases ys with
      | nil => simp
      | cons d ds =>
          have hrest := ih ds
          simp only [Bool.and_eq_true, beq_iff_eq] at hrest
          simp only [List.length_cons, List.zip_cons_cons, List.all_cons,
            Bool.and_eq_true, beq_iff_eq, List.map_cons, List.cons.injEq, h, ← hrest,
            Nat.add_right_cancel_iff]
          tauto

end Lists

/-- The white space of a text can be read off its folding keys. -/
theorem padding_keys (h : SimpleFolding env form) (s : String) :
    let keys := s.toList.map (foldKey env form)
    let blank := fun k : Bool × Char => isSpace k.2
    (padding s).1.map (foldKey env form) = keys.takeWhile blank ∧
      (padding s).2.map (foldKey env form) =
        ((keys.dropWhile blank).reverse.takeWhile blank).reverse ∧
      (trimSpace s).toList.map (foldKey env form) =
        ((keys.dropWhile blank).reverse.dropWhile blank).reverse := by
  intro keys blank
  have hcomp : blank ∘ foldKey env form = isSpace := funext fun c => isSpace_letter h c
  refine ⟨?_, ?_, ?_⟩
  · simp only [keys, padding, List.takeWhile_map, hcomp]
  · simp only [keys, padding, trimLeft, List.takeWhile_map, List.dropWhile_map,
      ← List.map_reverse, hcomp]
  · simp only [keys, trimSpace, trimLeft, String.toList_ofList, List.dropWhile_map,
      ← List.map_reverse, hcomp]

theorem map_foldKey_spaces (h : SimpleFolding env form) {xs : List Char}
    (hxs : ∀ c ∈ xs, isSpace c = true) :
    xs.map (foldKey env form) = xs.map fun c => (false, c) :=
  List.map_congr_left fun c hc => foldKey_space h (hxs c hc)

theorem padding_eq_iff (h : SimpleFolding env form) (a b : String) :
    padding a = padding b ↔
      (padding a).1.map (foldKey env form) = (padding b).1.map (foldKey env form) ∧
        (padding a).2.map (foldKey env form) = (padding b).2.map (foldKey env form) := by
  have hspaces : ∀ s, (∀ c ∈ (padding s).1, isSpace c = true) ∧
      ∀ c ∈ (padding s).2, isSpace c = true := by
    intro s
    refine ⟨fun c hc => List.mem_takeWhile_imp hc, fun c hc => ?_⟩
    exact List.mem_takeWhile_imp (List.mem_reverse.1 hc)
  have hinj : Function.Injective fun c : Char => (false, c) := fun c d hcd => congrArg Prod.snd hcd
  rw [map_foldKey_spaces h (hspaces a).1, map_foldKey_spaces h (hspaces b).1,
    map_foldKey_spaces h (hspaces a).2, map_foldKey_spaces h (hspaces b).2,
    (List.map_injective_iff.2 hinj).eq_iff, (List.map_injective_iff.2 hinj).eq_iff, Prod.ext_iff]

/-- Folding compares the padding, the letters and the dotted I's. -/
theorem equalFold_iff (h : SimpleFolding env form) (a b : String) :
    equalFold env.foldRune a b = true ↔
      padding a = padding b ∧ dots a = dots b ∧ spelling env form a = spelling env form b := by
  have hkey : ∀ c d, foldKey env form c = foldKey env form d ↔
      decide (c = dottedI) = decide (d = dottedI) ∧ letter env form c = letter env form d :=
    fun c d => Prod.ext_iff
  have hcore : dots a = dots b ∧ spelling env form a = spelling env form b ↔
      (trimSpace a).toList.map (foldKey env form) = (trimSpace b).toList.map (foldKey env form) :=
    (map_eq_map_and hkey _ _).symm
  rw [equalFold_eq_map (fold_iff h), hcore, padding_eq_iff h]
  constructor
  · intro hkeys
    obtain ⟨ha₁, ha₂, ha₃⟩ := padding_keys h a
    obtain ⟨hb₁, hb₂, hb₃⟩ := padding_keys h b
    rw [ha₁, ha₂, ha₃, hb₁, hb₂, hb₃, hkeys]
    exact ⟨⟨rfl, rfl⟩, rfl⟩
  · rintro ⟨⟨hlead, htrail⟩, hmiddle⟩
    rw [toList_parts a, toList_parts b]
    simp only [List.map_append, hlead, htrail, hmiddle]

/-- The stored form compares the letters and their forms. -/
theorem normalizeEmail_eq_iff (a b : String) :
    env.normalizeEmail a = env.normalizeEmail b ↔
      spelling env form a = spelling env form b ∧ variants env form a = variants env form b := by
  unfold Env.normalizeEmail toLower
  rw [String.ofList_inj]
  exact map_eq_map_and lower_iff _ _

/-! ## Where they agree -/

/-- Addresses of the same letters are compared alike if they have the same padding and dotted I's
exactly when they have the same second forms. -/
theorem recipients_agree_iff (h : SimpleFolding env form) (a b : String) :
    (equalFold env.foldRune a b = true ↔ env.normalizeEmail a = env.normalizeEmail b) ↔
      (spelling env form a = spelling env form b →
        (padding a = padding b ∧ dots a = dots b ↔ variants env form a = variants env form b)) := by
  have hstored : env.normalizeEmail a = env.normalizeEmail b ↔
      spelling env form a = spelling env form b ∧ variants env form a = variants env form b :=
    normalizeEmail_eq_iff a b
  rw [equalFold_iff h, hstored]
  constructor
  · intro hagree hspelling
    constructor
    · rintro ⟨hpadding, hdots⟩
      exact (hagree.mp ⟨hpadding, hdots, hspelling⟩).2
    · intro hvariants
      obtain ⟨hpadding, hdots, _⟩ := hagree.mpr ⟨hspelling, hvariants⟩
      exact ⟨hpadding, hdots⟩
  · intro hsame
    constructor
    · rintro ⟨hpadding, hdots, hspelling⟩
      exact ⟨hspelling, (hsame hspelling).mp ⟨hpadding, hdots⟩⟩
    · rintro ⟨hspelling, hvariants⟩
      obtain ⟨hpadding, hdots⟩ := (hsame hspelling).mpr hvariants
      exact ⟨hpadding, hdots, hspelling⟩

end Folding
end Domain

/-! ## Some addresses -/

namespace Service
namespace Folding

open Domain Domain.Folding Postgres

/-- The lower-case letters with a second form, after their second forms. -/
def secondForms : List (Char × Char) :=
  [(0x17F, 0x73), (0xB5, 0x3BC), (0x345, 0x3B9), (0x1FBE, 0x3B9), (0x3D0, 0x3B2), (0x3F5, 0x3B5),
    (0x3D1, 0x3B8), (0x3F0, 0x3BA), (0x3D6, 0x3C0), (0x3F1, 0x3C1), (0x3C2, 0x3C3), (0x3D5, 0x3C6),
    (0x1C80, 0x432), (0x1C81, 0x434), (0x1C82, 0x43E), (0x1C83, 0x441), (0x1C84, 0x442),
    (0x1C85, 0x442), (0x1C86, 0x44A), (0x1C87, 0x463), (0x1C88, 0xA64B), (0x1E9B, 0x1E61),
    (0x1FD3, 0x390), (0x1FE3, 0x3B0), (0xFB05, 0xFB06)].map fun p =>
      (Char.ofNat p.1, Char.ofNat p.2)

def secondForm (v : Char) : Option Char :=
  (secondForms.find? fun p => p.1 = v).map Prod.snd

/-- ASCII and the dotted I. -/
def lowerDotted (c : Char) : Char :=
  if c = dottedI then 'i' else c.toLower

/-- The small deployment with the second forms and the dotted I. -/
def formsEnv : Env :=
  { toyEnv with
    lowerRune := lowerDotted
    foldRune := fun c d => decide (c = dottedI) == decide (d = dottedI) &&
      (secondForm (lowerDotted c)).getD (lowerDotted c) = (secondForm (lowerDotted d)).getD
        (lowerDotted d) }

theorem isSpace_lowerDotted (c : Char) : isSpace (lowerDotted c) = isSpace c := by
  unfold lowerDotted
  split
  · rename_i h
    rw [h]
    decide
  · exact Mailbox.toyEnv_lawful.space c

theorem lowerDotted_space {c : Char} (hc : isSpace c = true) : lowerDotted c = c := by
  have hnot : c ≠ dottedI := by
    rintro rfl
    exact absurd hc (by decide)
  rw [lowerDotted, if_neg hnot]
  rcases Mailbox.toLower_cases c with h | ⟨hlo, hhi, _⟩
  · exact h
  · exact absurd ((Mailbox.isSpace_of_letter hlo (by omega)).symm.trans hc) Bool.false_ne_true

theorem secondForm_space {v m : Char} (h : secondForm v = some m) :
    isSpace v = false ∧ isSpace m = false := by
  have hall : ∀ p ∈ secondForms, isSpace p.1 = false ∧ isSpace p.2 = false := by decide
  obtain ⟨p, hfind, rfl⟩ := Option.map_eq_some_iff.1 h
  have hv : p.1 = v := by simpa using List.find?_some hfind
  rw [← hv]
  exact hall p (List.mem_of_find?_eq_some hfind)

theorem formsEnv_folding : SimpleFolding formsEnv secondForm where
  fold := by
    intro c d
    simp [formsEnv, letter]
  space := isSpace_lowerDotted
  caseless := fun _ => lowerDotted_space
  form_space := fun _ _ => secondForm_space

theorem recipients_agree_capitals :
    equalFold formsEnv.foldRune "MEMBER@example.com" "member@Example.com" = true ↔
      formsEnv.normalizeEmail "MEMBER@example.com" = formsEnv.normalizeEmail "member@Example.com" :=
  (recipients_agree_iff formsEnv_folding _ _).mpr (by decide)

def formsConfig : Config :=
  { toyConfig with env := formsEnv }

/-- Ann has an organization and invites `sam@example.com`; the account is that of `ſam@example.com`.
-/
def lookalikeCalls : List Call :=
  [.registerWithEmail "ann@example.com" "secret" "Ann" "" "acme" "",
    .registerWithEmail "\u017fam@example.com" "hunter2" "Sam" "" "" "",
    .verifySignup "\u017fam@example.com" "123456" "hunter2",
    .inviteMember (Uuid.ofNat 103).string (Uuid.ofNat 102).string "sam@example.com"]

def lookalikeInvited : World :=
  (runOn formsConfig (serve formsConfig toyWorld lookalikeCalls)
    (draws "welcome" 0 1000 100 12 ++ draws "welcome" 1 1100 200 11 ++
      draws "welcome" 2 1200 300 11 ++ draws "welcome" 3 1300 400 8)).world

/-- The account accepts the invitation. -/
def lookalikeAccepts : Except Err Reply × World :=
  (Call.acceptInvite (Uuid.ofNat 202).string "welcome").perform formsConfig
    (fun _ => { now := 1500 }) lookalikeInvited

set_option maxRecDepth 10000 in
/-- `ſam` and `sam` fold but are stored apart, and the one accepts the other's invitation; `İda` and
`ida`, and an address with and without a no-break space, are stored alike but do not fold. -/
theorem recipient_of_another_address :
    (isEmail "\u017fam@example.com" = true ∧ isEmail "sam@example.com" = true ∧
      equalFold formsEnv.foldRune "\u017fam@example.com" "sam@example.com" = true ∧
      formsEnv.normalizeEmail "\u017fam@example.com" ≠ formsEnv.normalizeEmail "sam@example.com") ∧
    (isEmail "\u0130da@example.com" = true ∧ isEmail "ida@example.com" = true ∧
      equalFold formsEnv.foldRune "\u0130da@example.com" "ida@example.com" = false ∧
      formsEnv.normalizeEmail "\u0130da@example.com" = formsEnv.normalizeEmail "ida@example.com") ∧
    (isEmail "sam@example.com\u00a0" = true ∧
      equalFold formsEnv.foldRune "sam@example.com\u00a0" "sam@example.com" = false ∧
      formsEnv.normalizeEmail "sam@example.com\u00a0" = formsEnv.normalizeEmail "sam@example.com") ∧
    lookalikeAccepts.1.isOk = true ∧
      (lookalikeAccepts.2.db.memberships.rows.any fun m =>
        m.orgID = Uuid.ofNat 103 && m.userID = Uuid.ofNat 202) = true ∧
      (lookalikeAccepts.2.db.users.find? (Uuid.ofNat 202)).map UserRow.email =
        some (some "\u017fam@example.com") ∧
      (lookalikeInvited.db.invites.rows.map InviteRow.email) = ["sam@example.com"] := by
  decide +kernel

end Folding
end Service
end OrbitAuth
