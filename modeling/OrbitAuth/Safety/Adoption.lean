import OrbitAuth.Postgres.Migrations

/-!
# Adoption — the version table against the schema

`adoptLegacy` decides from three observable tables whether to record versions as applied without
running their SQL, and it decides again at every call while nothing is recorded.

* goose itself keeps the version table and the schema in step (`provider_matches`),
* the adoption keeps them in step as long as `schema_migrations` tells the truth about the table
  `users` (`adopt_matches`), so every run in which it does ends with the two in step
  (`bookkeeping_matches`),
* it does not tell the truth once everything has been rolled back, nor in a database that only has
  001..003 and an empty `schema_migrations` (`adoption_without_schema`).

On every database, adopting again changes nothing, and adopting only adds rows to the version table
(`adoption_idempotent_framed`).
-/

namespace OrbitAuth
namespace Migrations

variable {rows : List VersionRow}

variable {db : Database} {version : Int}

/-- The version table and the schema agree; row 0 is goose's own. -/
def Matches (db : Database) : Prop :=
  ∀ version : Int, 0 < version → (db.Recorded version ↔ version ∈ db.schema)

/-- A database on which the former runner applied the first `k` files. -/
def legacyDatabase (k : Nat) : Database :=
  { gooseDBVersion := none
    schemaMigrations := some ((listSources.take k).map Source.name)
    schema := (listSources.take k).map Source.version }

/-- The databases a migrator is started on. -/
inductive Start : Database → Prop
  | fresh : Start ⟨none, none, []⟩
  | legacy (k : Nat) (hk : k ≤ 3) : Start (legacyDatabase k)
  | unnamed : Start ⟨none, some [], [1, 2, 3]⟩

/-- `schema_migrations` tells the truth about the schema, or nobody asks it any more: it names a
file exactly when the table `users` is there. -/
def Truthful (db : Database) : Prop :=
  0 < db.applied ∨
    ∀ names, db.schemaMigrations = some names → (names = [] ↔ db.hasUsers = false)

/-- Every call of the run finds a truthful database. -/
def AllTruthful : Database → List Call → Prop
  | _, [] => True
  | db, call :: calls => Truthful db ∧ AllTruthful (call.perform db) calls

/-! ## Recording a version -/

theorem applied_pos_iff : 0 < db.applied ↔ ∃ version, 0 < version ∧ db.Recorded version := by
  unfold Database.applied Database.Recorded
  rw [List.countP_pos_iff]
  constructor
  · rintro ⟨⟨version, isApplied⟩, hmem, hrow⟩
    simp only [Bool.and_eq_true, decide_eq_true_eq] at hrow
    obtain ⟨hpos, rfl⟩ := hrow
    exact ⟨version, hpos, hmem⟩
  · rintro ⟨version, hpos, hmem⟩
    exact ⟨_, hmem, by simp [hpos]⟩

@[simp] theorem mem_insertVersion {row : VersionRow} :
    row ∈ insertVersion rows version ↔ row ∈ rows ∨ row = ⟨version, true⟩ := by
  unfold insertVersion
  split
  · rename_i hmem
    constructor
    · exact .inl
    · rintro (h | rfl)
      · exact h
      · exact hmem
  · simp

/-- What the adoption's loop leaves recorded: what was, and the chosen sources. -/
theorem mem_recordSources {applyAll : Bool} {names : List String} {row : VersionRow} :
    row ∈ recordSources applyAll names rows ↔
      row ∈ rows ∨ ∃ source ∈ listSources,
        (applyAll = true ∨ source.name ∈ names) ∧ row = ⟨source.version, true⟩ := by
  unfold recordSources
  generalize listSources = sources
  -- the rows recorded so far are the accumulator of the induction
  induction sources generalizing rows with
  | nil => simp
  | cons source sources ih =>
      rw [List.foldl_cons, ih]
      by_cases hchosen : applyAll = true ∨ source.name ∈ names
      · have hif : (!applyAll && !names.contains source.name) = false := by
          rcases hchosen with h | h <;> simp [h]
        simp only [hif, Bool.false_eq_true, if_false, mem_insertVersion]
        simp [hchosen, or_assoc]
      · have hif : (!applyAll && !names.contains source.name) = true := by
          simpa [not_or] using hchosen
        simp only [hif, if_true]
        simp [hchosen]

/-! ## goose keeps the two in step -/

theorem ensureTable_matches (h : Matches db) : Matches (Provider.ensureTable db) := by
  intro version hpos
  have hsame : (Provider.ensureTable db).Recorded version ↔ db.Recorded version := by
    cases htable : db.gooseDBVersion with
    | none => simp [Database.Recorded, Database.rows, Provider.ensureTable, htable, ne_of_gt hpos]
    | some rows => simp [Database.Recorded, Database.rows, Provider.ensureTable, htable]
  exact hsame.trans (h version hpos)

theorem applyPending_matches (h : Matches db) (source : Source) :
    Matches (Provider.applyPending db source) := by
  unfold Provider.applyPending
  split
  · exact h
  · intro version hpos
    have hold := h version hpos
    simp only [Database.Recorded] at hold
    simp [Database.Recorded, Database.rows, ← hold, or_comm]

theorem revert_matches (h : Matches db) (reverted : Int) :
    Matches (Provider.revert db reverted) := by
  intro version hpos
  have hold := h version hpos
  simp only [Database.Recorded] at hold
  simp [Provider.revert, Database.Recorded, Database.rows, ← hold]

/-- Each pending version is applied and recorded at once, whatever the embedded files are. -/
theorem applyAll_matches (sources : List Source) (h : Matches db) :
    Matches (sources.foldl Provider.applyPending db) := by
  induction sources generalizing db with
  | nil => exact h
  | cons source sources ih => exact ih (applyPending_matches h source)

theorem provider_matches (call : Call) (h : Matches db) : Matches (call.provider db) := by
  have htable : Matches (Provider.ensureTable db) := ensureTable_matches h
  cases call with
  | up =>
      simp only [Call.provider, Provider.up]
      exact applyAll_matches listSources htable
  | down =>
      simp only [Call.provider, Provider.down]
      split
      · exact htable
      · exact revert_matches htable _
  | status => exact htable
  | version => exact htable

/-! ## The adoption -/

/-- The adoption of a database it has to adopt. -/
theorem recorded_adoptLegacy {names : List String} (hnone : ¬ 0 < db.applied)
    (hnames : db.schemaMigrations = some names) (hadopt : (names.isEmpty && !db.hasUsers) = false) :
    (adoptLegacy db).Recorded version ↔
      VersionRow.mk version true ∈ versionTable db ∨
        ∃ source ∈ listSources, (names.isEmpty = true ∨ source.name ∈ names) ∧
        version = source.version := by
  simp only [adoptLegacy, hnone, if_false, hnames, hadopt, Bool.false_eq_true, Database.Recorded,
    Database.rows, Option.getD_some, mem_recordSources, VersionRow.mk.injEq, and_true]

theorem schema_adoptLegacy : (adoptLegacy db).schema = db.schema := by
  unfold adoptLegacy
  split
  · rfl
  · split
    · rfl
    · dsimp only
      split <;> rfl

/-- In a truthful database whose version table and schema agree there is nothing to adopt. -/
theorem adoptLegacy_of_matches (h : Matches db) (htrue : Truthful db) : adoptLegacy db = db := by
  unfold adoptLegacy
  split
  · rfl
  · rename_i hnone
    -- nothing is recorded, so nothing is in the schema, and `users` is not there
    have husers : db.hasUsers = false := by
      rw [Database.hasUsers, decide_eq_false_iff_not]
      intro hmem
      exact hnone (applied_pos_iff.mpr ⟨1, by decide, (h 1 (by decide)).mpr hmem⟩)
    split
    · rfl
    · rename_i names hnames
      have hempty : names = [] := by
        rcases htrue with hpos | htrue
        · exact absurd hpos hnone
        · exact (htrue names hnames).mpr husers
      simp [hempty, husers]

/-- A legacy database with some file applied is adopted file by file. -/
theorem adoptLegacy_legacy {k : Nat} (hk : k ≤ 3) (hpos : 0 < k) :
    Matches (adoptLegacy (legacyDatabase k)) := by
  intro version hversion
  rw [schema_adoptLegacy]
  -- three databases, each with closed tables
  obtain rfl | rfl | rfl : k = 1 ∨ k = 2 ∨ k = 3 := by omega
  all_goals
    rw [recorded_adoptLegacy (by decide) rfl (by decide)]
    simp [legacyDatabase, listSources, versionTable, insertVersion, ne_of_gt hversion]

theorem start_matches (hstart : Start db) (htrue : Truthful db) : Matches (adoptLegacy db) := by
  cases hstart with
  | fresh =>
      have hfresh : Matches ⟨none, none, []⟩ := by
        intro version _
        simp [Database.Recorded, Database.rows]
      rw [adoptLegacy_of_matches hfresh htrue]
      exact hfresh
  | legacy k hk =>
      rcases Nat.eq_zero_or_pos k with rfl | hpos
      · have hempty : Matches (legacyDatabase 0) := by
          intro version _
          simp [Database.Recorded, Database.rows, legacyDatabase]
        rw [adoptLegacy_of_matches hempty htrue]
        exact hempty
      · exact adoptLegacy_legacy hk hpos
  | unnamed =>
      -- `users` is there and no file is named
      rcases htrue with hpos | htrue
      · cases hpos
      · cases (htrue [] rfl).mp rfl

theorem adopt_matches (h : Matches db ∨ Start db) (htrue : Truthful db) :
    Matches (adoptLegacy db) := by
  rcases h with h | hstart
  · rw [adoptLegacy_of_matches h htrue]
    exact h
  · exact start_matches hstart htrue

/-! ## Runs -/

theorem run_matches {calls : List Call} (h : Matches db) (htrue : AllTruthful db calls) :
    Matches (run db calls) := by
  induction calls generalizing db with
  | nil => exact h
  | cons call calls ih =>
      exact ih (provider_matches call (adopt_matches (.inl h) htrue.1)) htrue.2

/-- **The version table matches the schema** after every call of a run from a fresh or legacy
database, as long as each call finds `schema_migrations` truthful. -/
theorem bookkeeping_matches (call : Call) (calls : List Call) (hstart : Start db)
    (htrue : AllTruthful db (call :: calls)) : Matches (run db (call :: calls)) := by
  have hfirst : Matches (call.perform db) :=
    provider_matches call (adopt_matches (.inr hstart) htrue.1)
  rw [run_cons]
  exact run_matches hfirst htrue.2

/-- A legacy database with 001 and 002 is upgraded, rolled back to 001 and looked at. -/
theorem bookkeeping_matches_upgrade :
    Matches (run (legacyDatabase 2) [.version, .up, .down, .down, .status]) := by
  refine bookkeeping_matches .version _ (Start.legacy 2 (by decide)) ?_
  refine ⟨.inr ?_, .inl (by decide +kernel), .inl (by decide +kernel),
    .inl (by decide +kernel), .inl (by decide +kernel), trivial⟩
  intro names hnames
  obtain rfl := Option.some.inj hnames
  decide

/-- The adoption records versions whose changes are not there: all of 004..009 where
`schema_migrations` is empty and only 001..003 are present, and 001 again once everything has been
rolled back. -/
theorem adoption_without_schema :
    (Start ⟨none, some [], [1, 2, 3]⟩ ∧
      (run ⟨none, some [], [1, 2, 3]⟩ [.status]).Recorded 4 ∧
      4 ∉ (run ⟨none, some [], [1, 2, 3]⟩ [.status]).schema) ∧
    Start (legacyDatabase 3) ∧
      (run (legacyDatabase 3) (.up :: List.replicate 9 .down ++ [.status])).Recorded 1 ∧
      1 ∉ (run (legacyDatabase 3) (.up :: List.replicate 9 .down ++ [.status])).schema := by
  refine ⟨⟨Start.unnamed, ?_, ?_⟩, Start.legacy 3 (by decide), ?_, ?_⟩
  all_goals decide +kernel

/-! ## Adopting again -/

theorem insertVersion_of_mem (h : VersionRow.mk version true ∈ rows) :
    insertVersion rows version = rows :=
  if_pos h

/-- A table that has all the chosen sources is left alone. -/
theorem recordSources_absorbs {applyAll : Bool} {names : List String}
    (h : ∀ source ∈ listSources, applyAll = true ∨ source.name ∈ names →
      VersionRow.mk source.version true ∈ rows) : recordSources applyAll names rows = rows := by
  unfold recordSources
  revert h
  generalize listSources = sources
  intro h
  induction sources with
  | nil => rfl
  | cons source sources ih =>
      rw [List.foldl_cons]
      have hstep : (if !applyAll && !names.contains source.name then rows
          else insertVersion rows source.version) = rows := by
        split
        · rfl
        · rename_i hchosen
          refine insertVersion_of_mem (h source List.mem_cons_self ?_)
          cases applyAll with
          | true => exact .inl rfl
          | false => exact .inr (by simpa using hchosen)
      rw [hstep]
      exact ih fun s hs => h s (List.mem_cons_of_mem source hs)

theorem recordSources_twice (applyAll : Bool) (names : List String) (rows : List VersionRow) :
    recordSources applyAll names (recordSources applyAll names rows) =
      recordSources applyAll names rows := by
  refine recordSources_absorbs fun source hsource hchosen => ?_
  exact mem_recordSources.mpr (.inr ⟨source, hsource, hchosen, rfl⟩)

/-- The exits of the adoption: nothing happens, or the chosen sources are recorded. -/
theorem adoptLegacy_cases (db : Database) :
    adoptLegacy db = db ∨ ∃ names, db.schemaMigrations = some names ∧
      (names.isEmpty && !db.hasUsers) = false ∧
      adoptLegacy db =
        { db with
          gooseDBVersion := some (recordSources names.isEmpty names (versionTable db)) } := by
  unfold adoptLegacy
  split
  · exact .inl rfl
  · cases hnames : db.schemaMigrations with
    | none => exact .inl rfl
    | some names =>
        cases hskip : names.isEmpty && !db.hasUsers with
        | true => exact .inl (by simp [hskip])
        | false => exact .inr ⟨names, rfl, hskip, by simp [hskip]⟩

theorem adoptLegacy_twice (db : Database) : adoptLegacy (adoptLegacy db) = adoptLegacy db := by
  rcases adoptLegacy_cases db with hsame | ⟨names, hnames, hskip, hadopted⟩
  · rw [hsame, hsame]
  · rw [hadopted]
    rcases adoptLegacy_cases { db with
        gooseDBVersion := some (recordSources names.isEmpty names (versionTable db)) } with
      hsame | ⟨names', hnames', _, hagain⟩
    · exact hsame
    · -- the second time the chosen sources are there already
      rw [hagain]
      obtain rfl : names = names' := Option.some.inj (hnames.symm.trans hnames')
      have htable : versionTable { db with
          gooseDBVersion := some (recordSources names.isEmpty names (versionTable db)) } =
            recordSources names.isEmpty names (versionTable db) := rfl
      rw [htable, recordSources_twice]

/-- One process: its transaction commits, or fails and is rolled back. -/
def attempt (db : Database) (commits : Bool) : Database :=
  if commits then adoptLegacy db else db

theorem attempts_eq (db : Database) (attempts : List Bool) :
    attempts.foldl attempt db = if attempts.any id then adoptLegacy db else db := by
  induction attempts generalizing db with
  | nil => rfl
  | cons commits attempts ih =>
      rw [List.foldl_cons, ih, List.any_cons]
      cases commits with
      | false => simp [attempt]
      | true =>
          simp only [attempt, if_true, id, Bool.true_or, adoptLegacy_twice]
          split <;> rfl

/-! ## What the adoption leaves alone -/

/-- Rows are only added, and no applied row beside one that is there. -/
structure Grows (before after : List VersionRow) : Prop where
  kept : before <+: after
  single : ∀ version, after.count ⟨version, true⟩ = before.count ⟨version, true⟩ ∨
    (before.count ⟨version, true⟩ = 0 ∧ after.count ⟨version, true⟩ = 1)

theorem grows_refl (rows : List VersionRow) : Grows rows rows :=
  ⟨List.prefix_rfl, fun _ => .inl rfl⟩

theorem grows_trans {rows₁ rows₂ rows₃ : List VersionRow} (h : Grows rows₁ rows₂)
    (h' : Grows rows₂ rows₃) :
    Grows rows₁ rows₃ := by
  refine ⟨h.kept.trans h'.kept, fun version => ?_⟩
  have h₂ := h.single version
  have h₃ := h'.single version
  omega

theorem grows_insertVersion (rows : List VersionRow) (version : Int) :
    Grows rows (insertVersion rows version) := by
  unfold insertVersion
  split
  · exact grows_refl rows
  · rename_i hnew
    refine ⟨List.prefix_append _ _, fun other => ?_⟩
    rw [List.count_append]
    by_cases hother : other = version
    · refine .inr ⟨hother ▸ List.count_eq_zero_of_not_mem hnew, ?_⟩
      rw [hother, List.count_eq_zero_of_not_mem hnew]
      simp
    · have hzero : [VersionRow.mk version true].count ⟨other, true⟩ = 0 := by
        refine List.count_eq_zero_of_not_mem ?_
        simp [hother]
      exact .inl (by rw [hzero, Nat.add_zero])

theorem grows_recordSources (applyAll : Bool) (names : List String) (rows : List VersionRow) :
    Grows rows (recordSources applyAll names rows) := by
  unfold recordSources
  generalize listSources = sources
  induction sources generalizing rows with
  | nil => exact grows_refl rows
  | cons source sources ih =>
      rw [List.foldl_cons]
      refine grows_trans ?_ (ih _)
      split
      · exact grows_refl rows
      · exact grows_insertVersion rows source.version

theorem grows_versionTable (db : Database) : Grows db.rows (versionTable db) := by
  unfold Database.rows versionTable
  cases db.gooseDBVersion with
  | none => exact grows_insertVersion [] 0
  | some rows => exact grows_refl rows

/-- On every database: any number of adoptions one after the other, some of them rolled back, leave
what one leaves; an adoption changes neither `schema_migrations` nor the rest of the schema, keeps
every row of the version table and adds no second applied row for a version. -/
theorem adoption_idempotent_framed (db : Database) (attempts : List Bool) :
    (attempts.foldl attempt db = if attempts.any id then adoptLegacy db else db) ∧
      (adoptLegacy db).schemaMigrations = db.schemaMigrations ∧
      (adoptLegacy db).schema = db.schema ∧
      db.rows <+: (adoptLegacy db).rows ∧
      ∀ version, (adoptLegacy db).rows.count ⟨version, true⟩ = db.rows.count ⟨version, true⟩ ∨
        (db.rows.count ⟨version, true⟩ = 0 ∧ (adoptLegacy db).rows.count ⟨version, true⟩ = 1) := by
  have hgrows : (adoptLegacy db).schemaMigrations = db.schemaMigrations ∧
      Grows db.rows (adoptLegacy db).rows := by
    rcases adoptLegacy_cases db with hsame | ⟨names, _, _, hadopted⟩
    · rw [hsame]
      exact ⟨rfl, grows_refl db.rows⟩
    · rw [hadopted]
      exact ⟨rfl, grows_trans (grows_versionTable db) (grows_recordSources _ names _)⟩
  exact ⟨attempts_eq db attempts, hgrows.1, schema_adoptLegacy, hgrows.2.kept, hgrows.2.single⟩

end Migrations
end OrbitAuth
