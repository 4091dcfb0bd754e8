import Mathlib.Data.List.Basic
import Mathlib.Data.String.Basic

/-!
# The results database of the configuration

`Configuration::db()` opens the database lazily: the first time it is called with
`m_database_path` set, it opens the database at that path and creates in it the execution of
this run, whose parameters get a random `magic` value; every call returns `m_database`.
`save_parameters` fails with `Path where to store the results not set` when `db()` returns null.

Over every sequence of calls, the database is opened at most once, by the first call of `db()`
that finds a path, at the path set at that moment (`databasePath`), with one execution; no later
call changes it, so setting another path afterwards has no effect (`runDb_database`).
-/

namespace GfeDriver

namespace Configuration

/-- A database `db()` opened: its path, and the `magic` value of each execution created in it. -/
structure Database where
  path : String
  executions : List Nat
  deriving DecidableEq

/-- The part of `gfe::Configuration` behind `db()`: `m_database_path`, and `m_database`, null
(`none`) or the database it points to. -/
structure DatabaseState where
  mDatabasePath : String
  mDatabase : Option Database

namespace DatabaseState

/-- `Configuration::has_database()`. -/
def hasDatabase (s : DatabaseState) : Bool := !s.mDatabasePath.isEmpty

/-- `Configuration::db()`, where `magic` is the value `std::random_device` gives: the new state
and the pointer returned. -/
def db (s : DatabaseState) (magic : Nat) : DatabaseState × Option Database :=
  if s.mDatabase.isNone && s.hasDatabase then
    ({ s with mDatabase := some ⟨s.mDatabasePath, [magic]⟩ }, some ⟨s.mDatabasePath, [magic]⟩)
  else (s, s.mDatabase)

/-- The database part of `Configuration::save_parameters`: `db()` checked against null, then
`db()->store_parameters(params)`. -/
def saveParameters (s : DatabaseState) (magic : Nat) : Except String DatabaseState :=
  match s.db magic with
  | (_, none) => .error "Path where to store the results not set"
  | (s', some _) => .ok (s'.db magic).1

end DatabaseState

/-- What can happen to the database part of the configuration: `set_database_path(path)`, whose
body is not among the sources and which stores the path, or a call of `db()`. -/
inductive DatabaseOp
  | setDatabasePath (path : String)
  | db (magic : Nat)

/-- One operation. -/
def DatabaseOp.apply (s : DatabaseState) : DatabaseOp → DatabaseState
  | .setDatabasePath path => { s with mDatabasePath := path }
  | .db magic => (s.db magic).1

/-- The operations taken in turn. -/
def runDb (s : DatabaseState) : List DatabaseOp → DatabaseState
  | [] => s
  | op :: ops => runDb (op.apply s) ops

theorem hasDatabase_iff (s : DatabaseState) : s.hasDatabase = true ↔ s.mDatabasePath ≠ "" := by
  rw [DatabaseState.hasDatabase, Bool.not_eq_true', ← Bool.not_eq_true, String.isEmpty_iff]

/-- `save_parameters` fails exactly when no database is open and no path is set; otherwise it
leaves the database as its first `db()` left it. -/
theorem saveParameters_eq (s : DatabaseState) (magic : Nat) :
    s.saveParameters magic =
      if s.mDatabase.isNone && !s.hasDatabase then .error "Path where to store the results not set"
      else .ok (s.db magic).1 := by
  unfold DatabaseState.saveParameters DatabaseState.db
  cases hd : s.mDatabase <;> cases hp : s.hasDatabase <;> simp [hd, hp]

/-- The path the configuration holds after the operations, from `path`: the one
`set_database_path` stored last. -/
def databasePath (path : String) : List DatabaseOp → String
  | [] => path
  | .setDatabasePath p :: ops => databasePath p ops
  | .db _ :: ops => databasePath path ops

theorem runDb_append (s : DatabaseState) (pre post : List DatabaseOp) :
    runDb s (pre ++ post) = runDb (runDb s pre) post := by
  induction pre generalizing s with
  | nil => rfl
  | cons op pre ih => exact ih _

/-- `db()` never changes the path. -/
theorem runDb_mDatabasePath (s : DatabaseState) (ops : List DatabaseOp) :
    (runDb s ops).mDatabasePath = databasePath s.mDatabasePath ops := by
  induction ops generalizing s with
  | nil => rfl
  | cons op ops ih =>
    cases op with
    | setDatabasePath path => exact ih _
    | db magic =>
      rw [runDb, ih, DatabaseOp.apply, DatabaseState.db]
      split <;> rfl

/-- An open database stays as it is. -/
theorem apply_of_isSome {s : DatabaseState} {d : Database} (h : s.mDatabase = some d)
    (op : DatabaseOp) : (op.apply s).mDatabase = some d := by
  cases op with
  | setDatabasePath path => exact h
  | db magic => simp [DatabaseOp.apply, DatabaseState.db, h]

theorem runDb_of_isSome {s : DatabaseState} {d : Database} (h : s.mDatabase = some d)
    (ops : List DatabaseOp) : (runDb s ops).mDatabase = some d := by
  induction ops generalizing s with
  | nil => exact h
  | cons op ops ih => exact ih (apply_of_isSome h op)

/-- A call of `db()` with no path set does nothing. -/
theorem apply_db_of_empty {s : DatabaseState} (hp : s.mDatabasePath = "") (magic : Nat) :
    (DatabaseOp.db magic).apply s = s := by
  have hno : s.hasDatabase = false := by rwa [← Bool.not_eq_true, hasDatabase_iff, not_not]
  simp [DatabaseOp.apply, DatabaseState.db, hno]

/-- The step that opens the database: a call of `db()` with no database open and a path set. -/
theorem apply_db_of_path {s : DatabaseState} (h : s.mDatabase = none) (hp : s.mDatabasePath ≠ "")
    (magic : Nat) :
    ((DatabaseOp.db magic).apply s).mDatabase = some ⟨s.mDatabasePath, [magic]⟩ := by
  simp [DatabaseOp.apply, DatabaseState.db, h, (hasDatabase_iff s).2 hp]

/-- While no call of `db()` finds a path set, no database is opened. -/
theorem runDb_of_no_path {s : DatabaseState} (h : s.mDatabase = none) (ops : List DatabaseOp)
    (hno : ∀ pre magic post, ops = pre ++ .db magic :: post →
      databasePath s.mDatabasePath pre = "") :
    (runDb s ops).mDatabase = none := by
  induction ops generalizing s with
  | nil => exact h
  | cons op ops ih =>
    cases op with
    | setDatabasePath path =>
      exact ih h fun pre magic post hops =>
        hno (.setDatabasePath path :: pre) magic post (by rw [hops]; rfl)
    | db magic =>
      have hempty : s.mDatabasePath = "" := hno [] magic ops rfl
      rw [runDb, apply_db_of_empty hempty]
      exact ih h fun pre magic' post hops => hno (.db magic :: pre) magic' post (by rw [hops]; rfl)

/-- Over every sequence of `set_database_path` and `db()` calls from a configuration with no
database open: while no call of `db()` finds a path set, none is opened; and the first call
that finds one opens it, at the path set at that moment and with one execution, which the
operations after it, path changes and `db()` calls alike, leave as it is. -/
theorem runDb_database (s : DatabaseState) (h : s.mDatabase = none) (ops : List DatabaseOp) :
    ((∀ pre magic post, ops = pre ++ .db magic :: post →
        databasePath s.mDatabasePath pre = "") →
      (runDb s ops).mDatabase = none) ∧
    ∀ pre magic post, ops = pre ++ .db magic :: post → databasePath s.mDatabasePath pre ≠ "" →
      (∀ pre' magic' post', pre = pre' ++ .db magic' :: post' →
        databasePath s.mDatabasePath pre' = "") →
      (runDb s ops).mDatabase = some ⟨databasePath s.mDatabasePath pre, [magic]⟩ := by
  refine ⟨runDb_of_no_path h ops, fun pre magic post hops hpath hfirst => ?_⟩
  have hpre : (runDb s pre).mDatabase = none := runDb_of_no_path h pre hfirst
  rw [← runDb_mDatabasePath] at hpath ⊢
  rw [hops, runDb_append, runDb]
  exact runDb_of_isSome (apply_db_of_path hpre hpath magic) post

/-- A path set, `db()` called, then another path set and `db()` called again. -/
def pathChangeOps : List DatabaseOp :=
  [.setDatabasePath "a.sqlite3", .db 7, .setDatabasePath "b.sqlite3", .db 8]

/-- The second path is never used: the database stays the one opened at the first. -/
theorem runDb_database_pathChange :
    (runDb ⟨"", none⟩ pathChangeOps).mDatabase = some ⟨"a.sqlite3", [7]⟩ :=
  (runDb_database ⟨"", none⟩ rfl pathChangeOps).2 [.setDatabasePath "a.sqlite3"] 7
    [.setDatabasePath "b.sqlite3", .db 8] rfl (by decide) fun pre' magic' post' hpre => by
      have hmem : DatabaseOp.db magic' ∈ [DatabaseOp.setDatabasePath "a.sqlite3"] := by
        rw [hpre]
        simp
      simp at hmem

end Configuration

end GfeDriver
