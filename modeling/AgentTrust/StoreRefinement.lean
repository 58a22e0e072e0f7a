import AgentTrust.ExpiryAgreement
import AgentTrust.Runs

/-! `SQLiteProofStore` refines `InMemoryProofStore`. For proofs with UTC datetimes and
JSON contents the table holds, for each id, the row of the proof in the dict; a row is
read back as its proof, and the order of texts is that of instants, so every operation
gives the same result on both and keeps them related. -/

namespace AgentTrust.StoreRefinement

open JsonTree PyText PyJson Gregorian PyDateTime IsoOrder OrderedDict PyValue Models Exchange
  Storage Tasks Publication HonestAgent StoredJson ExpiryAgreement Runs
open Storage.SQLiteProofStore (rowOf rowOf_eq_some)

section Operations

inductive Op where
  | save (p : StoredProof)
  | get (taskId : Text)
  | delete (taskId : Text)
  | collect

abbrev Result := Except Exc (Option StoredProof)

/-- An operation at a clock reading; all but `get` return `None`. -/
def inMemoryStep (store : InMemoryProofStore) : Op × Wall → Result × InMemoryProofStore
  | (.save p, _) => (.ok none, InMemoryProofStore.save store p)
  | (.get taskId, now) => InMemoryProofStore.get store taskId now
  | (.delete taskId, _) => (.ok none, InMemoryProofStore.delete store taskId)
  | (.collect, now) => (.ok none, InMemoryProofStore.garbageCollect store now)

def sqliteStep (lib : Library) (store : SQLiteProofStore) :
    Op × Wall → Result × SQLiteProofStore
  | (.save p, _) =>
    match SQLiteProofStore.save lib store p with
    | .error e => (.error e, store)
    | .ok saved => (.ok none, saved)
  | (.get taskId, now) => SQLiteProofStore.get lib store taskId now
  | (.delete taskId, _) => (.ok none, SQLiteProofStore.delete store taskId)
  | (.collect, now) => (.ok none, SQLiteProofStore.gcPass store now)

end Operations

section Simulation

variable {lib : Library}

/-- Datetimes in UTC, and contents with distinct keys and no floats. -/
structure Admitted (p : StoredProof) : Prop where
  timestamp : p.proofData.task.timestamp.offset = some utcOffset
  createdAt : p.createdAt.offset = some utcOffset
  expiresAt : p.expiresAt.offset = some utcOffset
  evaluations : ∀ d ∈ p.proofData.dependencies, ∀ e ∈ d.evaluations,
    e.evaluatedAt.offset = some utcOffset
  invocation : plain (.obj p.proofData.task.invocation)
  outcome : plain (.obj p.proofData.task.outcome)

/-- A proof that SQLite holds: its text is encodable, and nested no deeper than it is read. -/
structure Storable (lib : Library) (p : StoredProof) : Prop extends Admitted p where
  encodable : (rowOf lib p).isSome
  shallow : p.dump.depth ≤ lib.nesting

theorem reads_utc (documented : Documented lib) {d : DateTime}
    (utc : d.offset = some utcOffset) : Reads lib d := by
  have same : d = utcAt d.wall := DateTime.ext rfl utc
  rw [same]
  exact documented.reads d.wall

theorem Storable.readable (documented : Documented lib) {p : StoredProof}
    (storable : Storable lib p) : p.Readable lib where
  dependencies := fun d hd e he => reads_utc documented (storable.evaluations d hd e he)
  timestamp := reads_utc documented storable.timestamp
  createdAt := reads_utc documented storable.createdAt
  expiresAt := reads_utc documented storable.expiresAt

theorem decodeRow_rowOf (documented : Documented lib) {p : StoredProof} {row : Row}
    (storable : Storable lib p) (row_of : rowOf lib p = some row) :
    SQLiteProofStore.decodeRow lib row = .ok p := by
  have carried := plain_storedProof storable.invocation storable.outcome
  rw [SQLiteProofStore.decodeRow,
    documented.json _ _ carried storable.shallow (rowOf_eq_some row_of).1, Option.bind_some,
    StoredProofOf.validate_dump (storable.readable documented)]

/-- The table holds the rows of the proofs in the dict, and nothing else. -/
structure Mirrors (lib : Library) (store : InMemoryProofStore) (table : SQLiteProofStore) :
    Prop where
  storable : ∀ taskId p, Dict.get store taskId = some p → Storable lib p
  rows : ∀ taskId, Dict.get table taskId = (Dict.get store taskId).bind (rowOf lib)

variable {store : InMemoryProofStore} {table : SQLiteProofStore}

theorem Mirrors.aware (mirrors : Mirrors lib store table) : InMemoryProofStore.Aware store := by
  intro taskId p present
  rw [(mirrors.storable taskId p present).expiresAt]
  rfl

theorem mirrors_empty : Mirrors lib Dict.empty Dict.empty where
  storable := by simp
  rows := by simp

theorem mirrors_set (mirrors : Mirrors lib store table) {p : StoredProof} {row : Row}
    (storable : Storable lib p) (row_of : rowOf lib p = some row) (taskId : Text) :
    Mirrors lib (store.set taskId p) (table.set taskId row) where
  storable := by
    intro id q present
    by_cases same : taskId = id
    · rw [same, Dict.get_set_self] at present
      exact Option.some.inj present ▸ storable
    · rw [Dict.get_set_other store same] at present
      exact mirrors.storable id q present
  rows := by
    intro id
    by_cases same : taskId = id
    · rw [same, Dict.get_set_self, Dict.get_set_self, Option.bind_some, row_of]
    · rw [Dict.get_set_other table same, Dict.get_set_other store same, mirrors.rows]

theorem mirrors_erase (mirrors : Mirrors lib store table) (taskId : Text) :
    Mirrors lib (store.erase taskId) (table.erase taskId) where
  storable := by
    intro id q present
    by_cases same : taskId = id
    · rw [same, Dict.get_erase_self] at present
      simp at present
    · rw [Dict.get_erase_other store same] at present
      exact mirrors.storable id q present
  rows := by
    intro id
    by_cases same : taskId = id
    · rw [same, Dict.get_erase_self, Dict.get_erase_self, Option.bind_none]
    · rw [Dict.get_erase_other table same, Dict.get_erase_other store same, mirrors.rows]

/-- The text of a row is before that of the clock exactly when the proof has expired. -/
theorem textBefore_rowOf {p : StoredProof} {row : Row} (storable : Storable lib p)
    (row_of : rowOf lib p = some row) (now : Wall) :
    (!textBefore row.expiresAt (isoformat (utcAt now))) = InMemoryProofStore.timely now p := by
  have expiry : p.expiresAt = utcAt p.expiresAt.wall := DateTime.ext rfl storable.expiresAt
  have order : textBefore row.expiresAt (isoformat (utcAt now)) =
      decide (p.expiresAt.instant < now.micros) := by
    rw [Bool.eq_iff_iff, decide_eq_true_eq, (rowOf_eq_some row_of).2, expiry, instant_utcAt]
    rw [utcAt, textBefore_now]
    exact Int.ofNat_lt.symm
  rw [order, InMemoryProofStore.timely]

theorem mirrors_collect (mirrors : Mirrors lib store table) (now : Wall) :
    Mirrors lib (InMemoryProofStore.garbageCollect store now)
      (SQLiteProofStore.gcPass table now) where
  storable := by
    intro id p present
    rw [InMemoryProofStore.get_garbageCollect mirrors.aware] at present
    exact mirrors.storable id p (Option.filter_eq_some_iff.mp present).1
  rows := by
    intro id
    rw [SQLiteProofStore.get_gcPass, mirrors.rows,
      InMemoryProofStore.get_garbageCollect mirrors.aware]
    cases present : Dict.get store id with
    | none => rfl
    | some p =>
      have storable := mirrors.storable id p present
      obtain ⟨row, row_of⟩ := Option.isSome_iff_exists.mp storable.encodable
      rw [Option.bind_some, row_of, Option.filter_some, Option.filter_some,
        textBefore_rowOf storable row_of]
      split
      · rw [Option.bind_some, row_of]
      · rfl

theorem mirrors_get (documented : Documented lib) (mirrors : Mirrors lib store table)
    (taskId : Text) (now : Wall) :
    (SQLiteProofStore.get lib table taskId now).1 =
        (InMemoryProofStore.get store taskId now).1 ∧
      Mirrors lib (InMemoryProofStore.get store taskId now).2
        (SQLiteProofStore.get lib table taskId now).2 := by
  have rows := mirrors.rows taskId
  cases present : Dict.get store taskId with
  | none =>
    rw [present, Option.bind_none] at rows
    rw [InMemoryProofStore.get, SQLiteProofStore.get, present, rows]
    exact ⟨rfl, mirrors⟩
  | some p =>
    have storable := mirrors.storable taskId p present
    obtain ⟨row, row_of⟩ := Option.isSome_iff_exists.mp storable.encodable
    have aware := mirrors.aware taskId p present
    have expiry : SQLiteProofStore.rowExpiry row = .ok p.expiresAt := by
      have written : row = ⟨row.proofJson, isoformat p.expiresAt⟩ := by
        rw [← (rowOf_eq_some row_of).2]
      rw [written, SQLiteProofStore.rowExpiry_isoformat aware, readBack_of_utc storable.expiresAt]
    rw [present, Option.bind_some, row_of] at rows
    rw [InMemoryProofStore.get_of_proof present aware,
      SQLiteProofStore.get_of_row rows expiry aware, decodeRow_rowOf documented storable row_of]
    split
    · exact ⟨rfl, mirrors_erase mirrors taskId⟩
    · exact ⟨rfl, mirrors⟩

def Saves (lib : Library) (op : Op × Wall) : Prop := ∀ p, op.1 = .save p → Storable lib p

theorem mirrors_step (documented : Documented lib) (mirrors : Mirrors lib store table)
    {op : Op × Wall} (saves : Saves lib op) :
    (sqliteStep lib table op).1 = (inMemoryStep store op).1 ∧
      Mirrors lib (inMemoryStep store op).2 (sqliteStep lib table op).2 := by
  obtain ⟨op, now⟩ := op
  cases op with
  | save p =>
    have storable := saves p rfl
    obtain ⟨row, row_of⟩ := Option.isSome_iff_exists.mp storable.encodable
    have saved : SQLiteProofStore.save lib table p = .ok (table.set p.proofData.task.taskId row) :=
      SQLiteProofStore.save_rowOf row_of
    rw [sqliteStep, saved]
    exact ⟨rfl, mirrors_set mirrors storable row_of _⟩
  | get taskId => exact mirrors_get documented mirrors taskId now
  | delete taskId => exact ⟨rfl, mirrors_erase mirrors taskId⟩
  | collect => exact ⟨rfl, mirrors_collect mirrors now⟩

end Simulation

section Sample

theorem sampleUntil_storable (w : Wall) : Storable textLibrary (sampleUntil (utcAt w)) := by
  have dependencies : (sampleUntil (utcAt w)).proofData.dependencies = [] := rfl
  have invocation : plain (.obj sampleTaskDone.invocation) := by decide
  have outcome : plain (.obj sampleTaskDone.outcome) := by decide
  have row_of := rowOf_textLibrary (sampleUntil_scalar (utcAt w))
  exact ⟨⟨rfl, rfl, rfl, by simp [dependencies], invocation, outcome⟩, by simp [row_of],
    sampleUntil_shallow _⟩

end Sample

section Refused

end Refused

end AgentTrust.StoreRefinement
