import Mathlib.Data.List.Nodup

/-!
# Table — relations with a primary key

A table is a list of rows in which no two rows share their key.  The uniqueness is a field of the
structure, so no operation can produce a table that violates its primary key.

`put` writes a row under its key (an insert when the key is new, an update otherwise) and `erase`
deletes the row under a key.  Statements about tables are made through row membership; the order
of the rows carries no meaning.
-/

namespace OrbitAuth
namespace Foundations

/-- Row types with a primary key. -/
class Keyed (ρ : Type) (κ : outParam Type) where
  key : ρ → κ

structure Table (ρ : Type) {κ : Type} [Keyed ρ κ] where
  rows : List ρ
  nodup : (rows.map Keyed.key).Nodup

namespace Table

variable {ρ κ : Type} [Keyed ρ κ]
variable {t : Table ρ} {p : ρ → Bool} {r : ρ} {f : ρ → ρ}

instance : Membership ρ (Table ρ) where
  mem t r := r ∈ t.rows

theorem mem_def : r ∈ t ↔ r ∈ t.rows := Iff.rfl

def empty : Table ρ where
  rows := []
  nodup := List.nodup_nil

theorem ext_rows {t u : Table ρ} (h : t.rows = u.rows) : t = u := by
  cases t
  cases u
  cases h
  rfl

/-- `EXISTS (SELECT 1 … WHERE p)`. -/
def any (t : Table ρ) (p : ρ → Bool) : Bool :=
  t.rows.any p

/-- The rows that satisfy a `WHERE` clause. -/
def select (t : Table ρ) (p : ρ → Bool) : List ρ :=
  t.rows.filter p

instance decidableBall (t : Table ρ) (P : ρ → Prop) [DecidablePred P] :
    Decidable (∀ r ∈ t, P r) :=
  inferInstanceAs (Decidable (∀ r ∈ t.rows, P r))

instance decidableBex (t : Table ρ) (P : ρ → Prop) [DecidablePred P] :
    Decidable (∃ r ∈ t, P r) :=
  inferInstanceAs (Decidable (∃ r ∈ t.rows, P r))

theorem nodup_map_filter {l : List ρ} (h : (l.map Keyed.key).Nodup) (p : ρ → Bool) :
    ((l.filter p).map Keyed.key).Nodup :=
  h.sublist (List.Sublist.map _ List.filter_sublist)

@[simp] theorem not_mem_empty (r : ρ) : r ∉ (empty : Table ρ) := by
  simp [mem_def, empty]

@[simp] theorem mem_select : r ∈ t.select p ↔ r ∈ t ∧ p r = true := by
  simp [select, mem_def]

@[simp] theorem any_eq_true : t.any p = true ↔ ∃ r ∈ t, p r = true := by
  simp [any, mem_def]

@[simp] theorem any_eq_false : t.any p = false ↔ ∀ r ∈ t, p r = false := by
  simp [any, mem_def]

/-- The primary key: equal keys, equal rows. -/
theorem eq_of_key {r s : ρ} (hr : r ∈ t) (hs : s ∈ t) (h : Keyed.key r = Keyed.key s) : r = s :=
  List.inj_on_of_nodup_map t.nodup hr hs h

theorem nodup_rows (t : Table ρ) : t.rows.Nodup :=
  List.Nodup.of_map _ t.nodup

theorem nodup_select_map (t : Table ρ) (p : ρ → Bool) (f : ρ → ρ)
    (hf : ∀ r, Keyed.key (f r) = Keyed.key r) :
    (((t.select p).map f).map Keyed.key).Nodup := by
  have hcomp : (Keyed.key ∘ f : ρ → κ) = Keyed.key := by
    funext r
    exact hf r
  rw [List.map_map, hcomp]
  exact nodup_map_filter t.nodup p

/-! ## Reading and writing by key -/

variable [DecidableEq κ]

def find? (t : Table ρ) (k : κ) : Option ρ :=
  t.rows.find? fun r => Keyed.key r = k

def erase (t : Table ρ) (k : κ) : Table ρ where
  rows := t.rows.filter fun r => Keyed.key r ≠ k
  nodup := nodup_map_filter t.nodup _

def put (t : Table ρ) (x : ρ) : Table ρ where
  rows := (t.erase (Keyed.key x)).rows ++ [x]
  nodup := by
    rw [List.map_append, List.nodup_append]
    refine ⟨(t.erase (Keyed.key x)).nodup, by simp, ?_⟩
    intro a ha b hb hab
    have hbx : b = Keyed.key x := by simpa using hb
    rcases List.mem_map.1 ha with ⟨r, hr, rfl⟩
    have hne : Keyed.key r ≠ Keyed.key x := by simpa [erase] using (List.mem_filter.1 hr).2
    exact hne (hab.trans hbx)

@[simp] theorem mem_erase {k : κ} : r ∈ t.erase k ↔ r ∈ t ∧ Keyed.key r ≠ k := by
  simp [mem_def, erase]

@[simp] theorem mem_put {x r : ρ} : r ∈ t.put x ↔ r = x ∨ (r ∈ t ∧ Keyed.key r ≠ Keyed.key x) := by
  simp only [mem_def, put, List.mem_append, List.mem_singleton]
  constructor
  · rintro (h | h)
    · exact .inr (mem_erase.1 h)
    · exact .inl h
  · rintro (h | h)
    · exact .inr h
    · exact .inl (mem_erase.2 h)

/-- A row under a new key is one more row. -/
theorem length_put_of_new {x : ρ} (h : ∀ r ∈ t, Keyed.key r ≠ Keyed.key x) :
    (t.put x).rows.length = t.rows.length + 1 := by
  have hkept : (t.erase (Keyed.key x)).rows = t.rows := by
    refine List.filter_eq_self.mpr ?_
    intro r hr
    exact decide_eq_true (h r hr)
  rw [put, List.length_append, hkept]
  rfl

theorem find?_eq_some {k : κ} : t.find? k = some r ↔ r ∈ t ∧ Keyed.key r = k := by
  constructor
  · intro h
    have hk := List.find?_some h
    exact ⟨List.mem_of_find?_eq_some h, by simpa using hk⟩
  · rintro ⟨hr, hk⟩
    cases hf : t.find? k with
    | none =>
        have := List.find?_eq_none.1 hf r hr
        simp [hk] at this
    | some s =>
        have hs : s ∈ t := List.mem_of_find?_eq_some hf
        have hks : Keyed.key s = k := by simpa using List.find?_some hf
        rw [eq_of_key hs hr (hks.trans hk.symm)]

theorem find?_eq_none {k : κ} : t.find? k = none ↔ ∀ r ∈ t, Keyed.key r ≠ k := by
  simp [find?, mem_def]

theorem find?_of_mem (h : r ∈ t) : t.find? (Keyed.key r) = some r :=
  find?_eq_some.2 ⟨h, rfl⟩

/-- Tables with the same rows answer alike. -/
theorem find?_congr {t u : Table ρ} (h : ∀ r, r ∈ t ↔ r ∈ u) (k : κ) : t.find? k = u.find? k := by
  cases hfind : u.find? k with
  | none => exact find?_eq_none.mpr fun r hr => find?_eq_none.mp hfind r ((h r).mp hr)
  | some r =>
      obtain ⟨hr, hkey⟩ := find?_eq_some.mp hfind
      exact find?_eq_some.mpr ⟨(h r).mpr hr, hkey⟩

theorem find?_put (t : Table ρ) (x : ρ) (k : κ) :
    (t.put x).find? k = if Keyed.key x = k then some x else t.find? k := by
  split
  · rename_i hk
    exact find?_eq_some.2 ⟨mem_put.2 (.inl rfl), hk⟩
  · rename_i hk
    cases hf : t.find? k with
    | none =>
        refine find?_eq_none.2 ?_
        intro r hr
        rcases mem_put.1 hr with rfl | ⟨hr, _⟩
        · exact hk
        · exact find?_eq_none.1 hf r hr
    | some r =>
        rcases find?_eq_some.1 hf with ⟨hr, rfl⟩
        exact find?_eq_some.2 ⟨mem_put.2 (.inr ⟨hr, fun h => hk h.symm⟩), rfl⟩

theorem find?_erase (t : Table ρ) (k k' : κ) :
    (t.erase k).find? k' = if k = k' then none else t.find? k' := by
  split
  · rename_i hk
    refine find?_eq_none.2 ?_
    intro r hr hkey
    exact (mem_erase.1 hr).2 (hkey.trans hk.symm)
  · rename_i hk
    cases hf : t.find? k' with
    | none =>
        refine find?_eq_none.2 ?_
        intro r hr
        exact find?_eq_none.1 hf r (mem_erase.1 hr).1
    | some r =>
        rcases find?_eq_some.1 hf with ⟨hr, rfl⟩
        exact find?_eq_some.2 ⟨mem_erase.2 ⟨hr, fun h => hk h.symm⟩, rfl⟩

/-! ## Many rows at once -/

/-- Deleting many keys. -/
theorem mem_foldl_erase (ks : List κ) :
    ∀ {t : Table ρ} {r : ρ}, r ∈ ks.foldl erase t ↔ r ∈ t ∧ Keyed.key r ∉ ks := by
  induction ks with
  | nil =>
      intro t r
      simp
  | cons k ks ih =>
      intro t r
      simp only [List.foldl_cons, ih, mem_erase, List.mem_cons, not_or]
      tauto

/-- Writing many rows with distinct keys. -/
theorem mem_foldl_put (xs : List ρ) :
    ∀ {t : Table ρ} {r : ρ}, (xs.map Keyed.key).Nodup →
      (r ∈ xs.foldl put t ↔ r ∈ xs ∨ (r ∈ t ∧ ∀ x ∈ xs, Keyed.key r ≠ Keyed.key x)) := by
  induction xs with
  | nil =>
      intro t r _
      simp
  | cons x xs ih =>
      intro t r hnd
      rw [List.map_cons, List.nodup_cons] at hnd
      rw [List.foldl_cons, ih hnd.2, mem_put]
      constructor
      · rintro (h | ⟨h | ⟨h, hx⟩, hxs⟩)
        · exact .inl (List.mem_cons_of_mem _ h)
        · exact .inl (by simp [h])
        · exact .inr ⟨h, by simpa using ⟨hx, hxs⟩⟩
      · rintro (h | ⟨h, hx⟩)
        · rcases List.mem_cons.1 h with rfl | h
          · refine .inr ⟨.inl rfl, ?_⟩
            intro y hy hxy
            exact hnd.1 (List.mem_map.2 ⟨y, hy, hxy.symm⟩)
          · exact .inl h
        · have hx' : Keyed.key r ≠ Keyed.key x ∧ ∀ y ∈ xs, Keyed.key r ≠ Keyed.key y := by
            simpa using hx
          exact .inr ⟨.inr ⟨h, hx'.1⟩, hx'.2⟩

/-- `UPDATE … SET f WHERE p`. -/
def update (t : Table ρ) (p : ρ → Bool) (f : ρ → ρ) : Table ρ :=
  ((t.select p).map f).foldl put t

/-- `DELETE … WHERE p`. -/
def delete (t : Table ρ) (p : ρ → Bool) : Table ρ :=
  ((t.select p).map Keyed.key).foldl erase t

theorem mem_delete : r ∈ t.delete p ↔ r ∈ t ∧ p r = false := by
  rw [delete, mem_foldl_erase]
  constructor
  · rintro ⟨hr, hk⟩
    refine ⟨hr, ?_⟩
    by_contra hp
    have hp' : p r = true := by simpa using hp
    exact hk (List.mem_map.2 ⟨r, mem_select.2 ⟨hr, hp'⟩, rfl⟩)
  · rintro ⟨hr, hp⟩
    refine ⟨hr, ?_⟩
    intro hk
    rcases List.mem_map.1 hk with ⟨s, hs, hkey⟩
    have hrs : r = s := eq_of_key hr (mem_select.1 hs).1 hkey.symm
    rw [hrs, (mem_select.1 hs).2] at hp
    cases hp

/-- A row is deleted or it stays. -/
theorem length_delete (t : Table ρ) (p : ρ → Bool) :
    (t.delete p).rows.length + (t.select p).length = t.rows.length := by
  have hperm : (t.delete p).rows.Perm (t.rows.filter fun r => !p r) := by
    rw [List.perm_ext_iff_of_nodup (t.delete p).nodup_rows (t.nodup_rows.filter _)]
    intro r
    rw [← mem_def, mem_delete, mem_def, List.mem_filter, Bool.not_eq_true']
  have hsplit : t.rows.length = _ := List.length_eq_length_filter_add p
  rw [hperm.length_eq, select, hsplit, Nat.add_comm]

/-- An update leaves alone the rows that do not match and rewrites the others, as long as the key
is not among what it sets. -/
theorem mem_update (hf : ∀ r, Keyed.key (f r) = Keyed.key r) :
    r ∈ t.update p f ↔ (∃ s ∈ t, p s = true ∧ f s = r) ∨ (r ∈ t ∧ p r = false) := by
  rw [update, mem_foldl_put _ (nodup_select_map t p f hf)]
  constructor
  · rintro (h | ⟨hr, hx⟩)
    · rcases List.mem_map.1 h with ⟨s, hs, rfl⟩
      exact .inl ⟨s, (mem_select.1 hs).1, (mem_select.1 hs).2, rfl⟩
    · refine .inr ⟨hr, ?_⟩
      by_contra hp
      have hp' : p r = true := by simpa using hp
      exact hx (f r) (List.mem_map.2 ⟨r, mem_select.2 ⟨hr, hp'⟩, rfl⟩) (hf r).symm
  · rintro (⟨s, hs, hp, rfl⟩ | ⟨hr, hp⟩)
    · exact .inl (List.mem_map.2 ⟨s, mem_select.2 ⟨hs, hp⟩, rfl⟩)
    · refine .inr ⟨hr, ?_⟩
      intro x hx hkey
      rcases List.mem_map.1 hx with ⟨s, hs, rfl⟩
      have hrs : r = s := eq_of_key hr (mem_select.1 hs).1 (hkey.trans (hf s))
      rw [hrs, (mem_select.1 hs).2] at hp
      cases hp

/-- Where an update takes a row. -/
theorem update_mem (hf : ∀ r, Keyed.key (f r) = Keyed.key r) (hr : r ∈ t) :
    (if p r then f r else r) ∈ t.update p f := by
  rw [mem_update hf]
  split
  · rename_i hp
    exact .inl ⟨r, hr, hp, rfl⟩
  · rename_i hp
    exact .inr ⟨hr, by simpa using hp⟩

/-! ## Unique columns -/

/-- The column `c` is unique where it is not null. -/
def Unique {γ : Type} (t : Table ρ) (c : ρ → Option γ) : Prop :=
  ∀ r ∈ t, ∀ s ∈ t, ∀ x, c r = some x → c s = some x → r = s

section Unique

variable {γ : Type} {t : Table ρ} {c : ρ → Option γ}

/-- A row can be written over its old version when no other row has its value. -/
theorem unique_put {x : ρ} (ht : t.Unique c)
    (hfree : ∀ s ∈ t, Keyed.key s ≠ Keyed.key x → ∀ v, c x = some v → c s ≠ some v) :
    (t.put x).Unique c := by
  intro a ha b hb v hav hbv
  rcases mem_put.1 ha with rfl | ⟨ha', hane⟩
  · rcases mem_put.1 hb with rfl | ⟨hb', hbne⟩
    · rfl
    · exact absurd hbv (hfree b hb' hbne v hav)
  · rcases mem_put.1 hb with rfl | ⟨hb', _⟩
    · exact absurd hav (hfree a ha' hane v hbv)
    · exact ht a ha' b hb' v hav hbv

/-- An update that does not set the key and sets the column to null at most. -/
theorem unique_update (ht : t.Unique c) (hf : ∀ r, Keyed.key (f r) = Keyed.key r)
    (hc : ∀ r v, c (f r) = some v → c r = some v) : (t.update p f).Unique c := by
  -- every row with a value comes from an old row with the same key and the same value
  have hold : ∀ r ∈ t.update p f, ∀ v, c r = some v →
      ∃ s ∈ t, Keyed.key s = Keyed.key r ∧ c s = some v := by
    intro r hr v hv
    rcases (mem_update hf).1 hr with ⟨s, hs, _, rfl⟩ | ⟨hr, _⟩
    · exact ⟨s, hs, (hf s).symm, hc s v hv⟩
    · exact ⟨r, hr, rfl, hv⟩
  intro a ha b hb v hav hbv
  rcases hold a ha v hav with ⟨a', ha', hakey, hac⟩
  rcases hold b hb v hbv with ⟨b', hb', hbkey, hbc⟩
  have hab : a' = b' := ht a' ha' b' hb' v hac hbc
  exact eq_of_key ha hb (hakey.symm.trans (hab ▸ hbkey))

theorem unique_delete (ht : t.Unique c) : (t.delete p).Unique c :=
  fun a ha b hb => ht a (mem_delete.1 ha).1 b (mem_delete.1 hb).1

end Unique

/-! ## Keys that stay -/

/-- Writing a row keeps every key. -/
theorem key_mem_put {x r : ρ} (hr : r ∈ t) : ∃ s ∈ t.put x, Keyed.key s = Keyed.key r := by
  by_cases hkey : Keyed.key r = Keyed.key x
  · exact ⟨x, mem_put.2 (.inl rfl), hkey.symm⟩
  · exact ⟨r, mem_put.2 (.inr ⟨hr, hkey⟩), rfl⟩

/-- So does an update that does not set the key. -/
theorem key_mem_update (hf : ∀ r, Keyed.key (f r) = Keyed.key r) (hr : r ∈ t) :
    ∃ s ∈ t.update p f, Keyed.key s = Keyed.key r := by
  refine ⟨_, update_mem hf hr, ?_⟩
  split
  · exact hf r
  · rfl

/-- What an update leaves under a key. -/
theorem find?_update (hf : ∀ r, Keyed.key (f r) = Keyed.key r) (k : κ) :
    (t.update p f).find? k = (t.find? k).map fun r => if p r then f r else r := by
  cases hk : t.find? k with
  | none =>
      rw [Option.map_none, find?_eq_none]
      intro r hr
      rcases (mem_update hf).mp hr with ⟨s, hs, _, rfl⟩ | ⟨hs, _⟩
      · rw [hf]
        exact find?_eq_none.mp hk s hs
      · exact find?_eq_none.mp hk r hs
  | some r =>
      obtain ⟨hr, hkey⟩ := find?_eq_some.mp hk
      refine find?_eq_some.mpr ⟨update_mem hf hr, ?_⟩
      dsimp only
      split
      · rw [hf]
        exact hkey
      · exact hkey

end Table

export Table (mem_put mem_select mem_update mem_delete mem_erase find?_eq_some find?_eq_none
  find?_put find?_erase find?_of_mem not_mem_empty any_eq_true any_eq_false eq_of_key update_mem
  unique_update unique_put unique_delete)

end Foundations
end OrbitAuth
