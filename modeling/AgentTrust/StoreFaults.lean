import AgentTrust.FaultySteps
import AgentTrust.Storage

/-! The SQLite store step by step. An operation opens a connection of its own, the first of
them after creating the schema, and translates what the database raises from then on; what
it raises while the connection is opened comes through as it is. -/

namespace AgentTrust.StoreFaults

open PyText PyDateTime Gregorian OrderedDict PyValue Models Effects Exchange Storage FaultySteps

section Source

/-- An exception: of the package or of Python, or one that the database raises. -/
inductive Raised where
  | exc (e : Exc)
  | database (text : Message)

def Raised.text : Raised → Message
  | .exc e => e.text
  | .database text => text

inductive Step where
  | connect
  | journalMode
  | createTable
  | createIndex
  | execute
  | fetch
  | decode
  | commit

/-- The table and `_schema_ready`. -/
structure Database where
  table : SQLiteProofStore
  schemaReady : Bool

/-- The table as the uncommitted changes of a connection leave it. They go with the
connection, if it is closed before they are committed. -/
abbrev Connection := SQLiteProofStore

abbrev Op := Prog Raised Step Database

variable (faults : Faults Raised)

def raised {α : Type} (x : Except Exc α) : Op α :=
  match x with
  | .ok a => pure a
  | .error e => throw (.exc e)

def storageError (label : String) (e : Raised) : Raised :=
  .exc ⟨.storageError, msg label ++ e.text⟩

def ensureSchema : Op Unit := do
  let db ← current
  if db.schemaReady then return
  step faults .connect
  step faults .journalMode
  step faults .createTable
  step faults .createIndex
  step faults .commit
  update fun db => { db with schemaReady := true }

def openConnection : Op Connection := do
  ensureSchema faults
  step faults .connect
  let db ← current
  return db.table

def execute (change : SQLiteProofStore → SQLiteProofStore) (conn : Connection) :
    Op Connection := do
  step faults .execute
  return change conn

def commit (conn : Connection) : Op Unit := do
  step faults .commit
  update fun db => { db with table := conn }

/-- `save`; the proof is dumped before the connection is opened. -/
def save (lib : Library) (proof : StoredProof) : Op Unit := do
  let proofJson ← raised (valid (lib.dumpJson proof.dump))
  let conn ← openConnection faults
  tryCatch
    (do
      let conn ← execute faults
        (fun table => table.set proof.proofData.task.taskId ⟨proofJson, isoformat proof.expiresAt⟩)
        conn
      commit faults conn)
    fun e => throw (storageError "Failed to save proof: " e)

def delete (taskId : Text) : Op Unit := do
  let conn ← openConnection faults
  tryCatch
    (do
      let conn ← execute faults (SQLiteProofStore.delete · taskId) conn
      commit faults conn)
    fun e => throw (storageError "Failed to delete proof: " e)

/-- `except (ATPProofExpiredError, ATPStorageError): raise`, and the clause after it. -/
def retrieval (e : Raised) : Raised :=
  match e with
  | .exc ⟨.storageError, text⟩ => .exc ⟨.storageError, text⟩
  | .exc ⟨.proofNotFoundError, text⟩ => .exc ⟨.proofNotFoundError, text⟩
  | .exc ⟨.proofExpiredError, text⟩ => .exc ⟨.proofExpiredError, text⟩
  | e => storageError "Failed to retrieve proof: " e

/-- What `get` does in its `try` clause. -/
def retrieve (lib : Library) (taskId : Text) (now : Wall) (conn : Connection) :
    Op (Option StoredProof) := do
  step faults .execute
  step faults .fetch
  match Dict.get conn taskId with
  | none => return none
  | some row =>
    step faults .decode
    let expiresAt ← raised (SQLiteProofStore.rowExpiry row)
    let late ← raised (before expiresAt (utcAt now))
    if late then
      delete faults taskId
      throw (.exc (expired taskId expiresAt))
    else
      step faults .decode
      let proof ← raised (SQLiteProofStore.decodeRow lib row)
      return some proof

def get (lib : Library) (taskId : Text) (now : Wall) : Op (Option StoredProof) := do
  let conn ← openConnection faults
  tryCatch (retrieve faults lib taskId now conn) fun e => throw (retrieval e)

def list (now : Wall) : Op (List Text) := do
  let conn ← openConnection faults
  tryCatch
    (do
      step faults .execute
      step faults .fetch
      return SQLiteProofStore.list conn now)
    fun e => throw (storageError "Failed to list proofs: " e)

end Source

section Opening

variable {faults : Faults Raised} {s : Traced Step Database}

def schemaSteps (schemaReady : Bool) : List Step :=
  if schemaReady then [] else [.connect, .journalMode, .createTable, .createIndex, .commit]

def opening (schemaReady : Bool) : List Step := schemaSteps schemaReady ++ [.connect]

theorem ensureSchema_eq : ensureSchema faults = (do
    let db ← current
    if db.schemaReady then return
    forM (schemaSteps false) (step faults)
    update fun db => { db with schemaReady := true }) := by
  simp [ensureSchema, schemaSteps]

theorem ensureSchema_ready (ready : s.state.schemaReady = true) :
    (ensureSchema faults).run s = .ok () s := by
  rw [ensureSchema, run_bind_ok (run_current s), if_pos ready]
  rfl

theorem ensureSchema_unready (unready : s.state.schemaReady = false) :
    (ensureSchema faults).run s = (forM (schemaSteps false) (step faults) >>= fun _ =>
      update fun db => { db with schemaReady := true }).run s := by
  rw [ensureSchema_eq, run_bind_ok (run_current s), if_neg (by simp [unready])]

theorem ensureSchema_quiet
    (quiet : Quiet faults s.steps.length (schemaSteps s.state.schemaReady).length) :
    (ensureSchema faults).run s =
      .ok () ⟨⟨s.state.table, true⟩, s.steps ++ schemaSteps s.state.schemaReady⟩ := by
  obtain ⟨⟨table, schemaReady⟩, steps⟩ := s
  cases schemaReady with
  | true => simpa [schemaSteps] using ensureSchema_ready rfl
  | false =>
    rw [ensureSchema_unready rfl, run_bind_ok (steps_quiet quiet)]
    rfl

theorem ensureSchema_struck
    (struck : ¬ Quiet faults s.steps.length (schemaSteps s.state.schemaReady).length) :
    ∃ i e s', faults i = some e ∧ (ensureSchema faults).run s = .error e s' ∧
      s'.state = s.state := by
  obtain ⟨⟨table, schemaReady⟩, steps⟩ := s
  cases schemaReady with
  | true => exact absurd (fun i inside => by simp [schemaSteps] at inside) struck
  | false =>
    obtain ⟨i, e, s', raised, ended, same⟩ := steps_struck struck
    exact ⟨i, e, s', raised, by rw [ensureSchema_unready rfl, run_bind_error ended], same⟩

theorem openConnection_quiet
    (quiet : Quiet faults s.steps.length (opening s.state.schemaReady).length) :
    (openConnection faults).run s = .ok s.state.table
      ⟨⟨s.state.table, true⟩, s.steps ++ opening s.state.schemaReady⟩ := by
  rw [opening, List.length_append, quiet_add] at quiet
  have connected : faults (s.steps ++ schemaSteps s.state.schemaReady).length = none := by
    simpa using quiet.2 0 (by simp)
  rw [openConnection, run_bind_ok (ensureSchema_quiet quiet.1),
    run_bind_ok (step_ok connected Step.connect), run_bind_ok (run_current _), opening,
    ← List.append_assoc]
  rfl

theorem openConnection_struck
    (struck : ¬ Quiet faults s.steps.length (opening s.state.schemaReady).length) :
    ∃ i e s', faults i = some e ∧ (openConnection faults).run s = .error e s' ∧
      s'.state.table = s.state.table := by
  rw [opening, List.length_append, quiet_add, not_and] at struck
  rw [openConnection]
  by_cases ready : Quiet faults s.steps.length (schemaSteps s.state.schemaReady).length
  · cases connected : faults (s.steps ++ schemaSteps s.state.schemaReady).length with
    | none =>
      refine absurd (fun i inside => ?_) (struck ready)
      simpa [Nat.lt_one_iff.mp inside] using connected
    | some e =>
      refine ⟨_, e, ⟨⟨s.state.table, true⟩, s.steps ++ schemaSteps s.state.schemaReady⟩,
        connected, ?_, rfl⟩
      rw [run_bind_ok (ensureSchema_quiet ready),
        run_bind_error (step_error connected Step.connect)]
  · obtain ⟨i, e, s', raised, ended, same⟩ := ensureSchema_struck ready
    exact ⟨i, e, s', raised, by rw [run_bind_error ended], by rw [same]⟩

end Opening

section Operations

variable {lib : Library} {faults : Faults Raised} {s : Traced Step Database}

inductive Operation where
  | save (proof : StoredProof)
  | get (taskId : Text) (now : Wall)
  | delete (taskId : Text)
  | list (now : Wall)

def Operation.run (lib : Library) (faults : Faults Raised) : Operation → Op Unit
  | .save proof => StoreFaults.save faults lib proof
  | .get taskId now => do
    let _ ← StoreFaults.get faults lib taskId now
  | .delete taskId => StoreFaults.delete faults taskId
  | .list now => do
    let _ ← StoreFaults.list faults now

def Operation.Documents : Operation → Raised → Prop
  | .get _ _, .exc e => e.cls = .storageError ∨ e.cls = .proofExpiredError
  | _, .exc e => e.cls = .storageError
  | _, .database _ => False

def Operation.writes : Operation → Bool
  | .save _ => true
  | .delete _ => true
  | _ => false

/-- An operation completes or raises as documented, and a write that raises has changed
nothing. -/
def Operation.FailsCleanly (lib : Library) (faults : Faults Raised) (s : Traced Step Database)
    (op : Operation) : Prop :=
  Ends (op.run lib faults) s fun r db =>
    RaisesOnly (fun e => op.Documents e ∧ (op.writes → db.table = s.state.table)) r

def Operation.Encodable (lib : Library) : Operation → Prop
  | .save proof => (lib.dumpJson proof.dump).isSome
  | _ => True

def databaseFaults (failures : Faults Message) : Faults Raised :=
  fun i => (failures i).map .database

theorem opened_iff {α : Type} {body : Connection → Op α} {handler : Raised → Raised}
    {P : Raised → Prop} {writes : Prop} (faulty : ∀ i e, faults i = some e → ¬ P e)
    (translated : ∀ conn, Raises (fun e => P (handler e)) (body conn))
    (kept : writes → ∀ conn s', Ends (body conn) s' fun r db =>
      RaisesOnly (fun _ => db.table = s'.state.table) r) :
    Ends (openConnection faults >>= fun conn => tryCatch (body conn) fun e => throw (handler e)) s
        (fun r db => RaisesOnly (fun e => P e ∧ (writes → db.table = s.state.table)) r) ↔
      Quiet faults s.steps.length (opening s.state.schemaReady).length := by
  by_cases quiet : Quiet faults s.steps.length (opening s.state.schemaReady).length
  · refine iff_of_true ?_ quiet
    rw [ends_bind, openConnection_quiet quiet]
    refine ends_translated.mpr ?_
    by_cases write : writes
    · refine ends_mono (ends_and (translated _ _) (kept write _ _)) fun r db only => ?_
      refine raisesOnly_mapError.mpr fun e raised => ⟨only.1 e raised, fun _ => only.2 e raised⟩
    · refine ends_mono (translated _ _) fun r db only => ?_
      exact raisesOnly_mapError.mpr fun e raised => ⟨only e raised, fun h => absurd h write⟩
  · refine iff_of_false ?_ quiet
    obtain ⟨i, e, s', raised, ended, _⟩ := openConnection_struck quiet
    rw [ends_bind, ended]
    exact fun only => faulty i e raised ((raisesOnly_error e).mp only).1

theorem write_kept (change : SQLiteProofStore → SQLiteProofStore) (conn : Connection)
    (s : Traced Step Database) :
    Ends (execute faults change conn >>= commit faults) s fun r db =>
      RaisesOnly (fun _ => db.table = s.state.table) r := by
  rw [execute, bind_assoc, ends_step]
  cases faults s.steps.length with
  | some e => exact (raisesOnly_error e).mpr rfl
  | none =>
    rw [pure_bind, commit, ends_step]
    cases faults (s.steps ++ [Step.execute]).length with
    | some e => exact (raisesOnly_error e).mpr rfl
    | none => exact (ends_ok (run_update _ _)).mpr (raisesOnly_ok ())

theorem save_undumped {proof : StoredProof} (dumped : lib.dumpJson proof.dump = none) :
    save faults lib proof = throw (.exc (foreign .valueError)) := by
  rw [save, dumped]
  rfl

theorem save_dumped {proof : StoredProof} {proofJson : Text}
    (dumped : lib.dumpJson proof.dump = some proofJson) :
    save faults lib proof = openConnection faults >>= fun conn =>
      tryCatch
        (execute faults (fun table =>
          table.set proof.proofData.task.taskId ⟨proofJson, isoformat proof.expiresAt⟩) conn >>=
            commit faults)
        fun e => throw (storageError "Failed to save proof: " e) := by
  rw [save, dumped]
  rfl

theorem raised_raises {α : Type} {P : Raised → Prop} {x : Except Exc α}
    (only : RaisesOnly (fun e => P (.exc e)) x) : Raises P (raised x) := by
  cases x with
  | ok a => exact raises_pure a
  | error e => exact raises_throw ((raisesOnly_error e).mp only)

/-- The exceptions that `get` meets: none of them is a `ATPProofNotFoundError`. -/
def Expected : Raised → Prop
  | .exc e => e.cls ≠ .proofNotFoundError
  | .database _ => True

theorem retrieval_documented {e : Raised} (expected : Expected e) (taskId : Text) (now : Wall) :
    (Operation.get taskId now).Documents (retrieval e) := by
  cases e with
  | exc e =>
    obtain ⟨cls, text⟩ := e
    cases cls <;> simp_all [Expected, retrieval, storageError, Operation.Documents]
  | database text => exact .inl rfl

theorem openConnection_raises {P : Raised → Prop} (faulty : ∀ i e, faults i = some e → P e) :
    Raises P (openConnection faults) := by
  intro s
  by_cases quiet : Quiet faults s.steps.length (opening s.state.schemaReady).length
  · exact (ends_ok (openConnection_quiet quiet)).mpr (raisesOnly_ok _)
  · obtain ⟨i, e, s', raised, ended, _⟩ := openConnection_struck quiet
    exact (ends_error ended).mpr ((raisesOnly_error e).mpr (faulty i e raised))

theorem delete_raises (faulty : ∀ i e, faults i = some e → Expected e) (taskId : Text) :
    Raises Expected (delete faults taskId) := by
  refine raises_bind (openConnection_raises faulty) fun conn => raises_translated ?_
  exact raises_of_forall fun e => by simp [Expected, storageError]

def Undecodable (e : Exc) : Prop := e.cls = .valueError ∨ e.cls = .typeError

theorem rowExpiry_undecodable (row : Row) :
    RaisesOnly Undecodable (SQLiteProofStore.rowExpiry row) := by
  unfold SQLiteProofStore.rowExpiry
  split
  · exact (raisesOnly_error _).mpr (.inl rfl)
  · exact raisesOnly_ok _

theorem before_undecodable (a b : DateTime) : RaisesOnly Undecodable (before a b) := by
  unfold before
  split
  · exact raisesOnly_ok _
  · exact (raisesOnly_error _).mpr (.inr rfl)

theorem decodeRow_undecodable (lib : Library) (row : Row) :
    RaisesOnly Undecodable (SQLiteProofStore.decodeRow lib row) := by
  unfold SQLiteProofStore.decodeRow
  split
  · exact raisesOnly_ok _
  · exact (raisesOnly_error _).mpr (.inl rfl)

theorem expected_of_undecodable {e : Exc} (undecodable : Undecodable e) : Expected (.exc e) := by
  rcases undecodable with cls | cls <;> simp [Expected, cls]

theorem retrieval_undecodable {e : Exc} (undecodable : Undecodable e) :
    retrieval (.exc e) = .exc (SQLiteProofStore.failed e) := by
  obtain ⟨cls, text⟩ := e
  rcases undecodable with rfl | rfl <;> rfl

theorem decoding_raises {α : Type} {x : Except Exc α} (only : RaisesOnly Undecodable x) :
    Raises Expected (raised x) :=
  raised_raises (raisesOnly_mono (fun _ => expected_of_undecodable) only)

theorem retrieve_raises (faulty : ∀ i e, faults i = some e → Expected e) (taskId : Text)
    (now : Wall) (conn : Connection) : Raises Expected (retrieve faults lib taskId now conn) := by
  unfold retrieve
  refine raises_bind (raises_step faulty _) fun _ => raises_bind (raises_step faulty _) fun _ => ?_
  cases Dict.get conn taskId with
  | none => exact raises_pure none
  | some row =>
    refine raises_bind (raises_step faulty _) fun _ => ?_
    refine raises_bind (decoding_raises (rowExpiry_undecodable row)) fun expiresAt => ?_
    refine raises_bind (decoding_raises (before_undecodable _ _)) fun late => ?_
    cases late with
    | true =>
      refine raises_bind (delete_raises faulty taskId) fun _ => raises_throw ?_
      simp [Expected, expired]
    | false =>
      refine raises_bind (raises_step faulty _) fun _ => ?_
      exact raises_bind (decoding_raises (decodeRow_undecodable lib row)) fun proof => raises_pure _

theorem databaseFaults_eq_some {failures : Faults Message} {i : Nat} {e : Raised}
    (failed : databaseFaults failures i = some e) : ∃ text, e = .database text := by
  obtain ⟨text, _, rfl⟩ := Option.map_eq_some_iff.mp failed
  exact ⟨text, rfl⟩

theorem quiet_databaseFaults {failures : Faults Message} {first count : Nat} :
    Quiet (databaseFaults failures) first count ↔ Quiet failures first count :=
  forall₂_congr fun _ _ => Option.map_eq_none_iff

theorem not_documents_database (op : Operation) (text : Message) :
    ¬ op.Documents (.database text) := by
  cases op <;> exact id

theorem save_failsCleanly_iff (proof : StoredProof)
    (faulty : ∀ i e, faults i = some e → ¬ (Operation.save proof).Documents e) :
    (Operation.save proof).FailsCleanly lib faults s ↔ (Operation.save proof).Encodable lib ∧
      Quiet faults s.steps.length (opening s.state.schemaReady).length := by
  rw [Operation.FailsCleanly, Operation.run, Operation.Encodable]
  cases dumped : lib.dumpJson proof.dump with
  | none =>
    refine iff_of_false (fun ends => ?_) (by simp)
    rw [save_undumped dumped] at ends
    have refused : (Operation.save proof).Documents (.exc (foreign .valueError)) :=
      ((raisesOnly_error _).mp ends).1
    simp [Operation.Documents, foreign] at refused
  | some proofJson =>
    rw [save_dumped dumped]
    refine Iff.trans ?_ (and_iff_right rfl).symm
    refine opened_iff faulty (fun conn => ?_) fun _ conn s' => write_kept _ conn s'
    exact raises_of_forall fun e => rfl

/-- Whatever steps fail, an operation fails cleanly exactly if its connection is opened and,
for a save, the proof can be dumped. -/
theorem failsCleanly_iff (lib : Library) (failures : Faults Message) (s : Traced Step Database)
    (op : Operation) :
    op.FailsCleanly lib (databaseFaults failures) s ↔ op.Encodable lib ∧
      Quiet failures s.steps.length (opening s.state.schemaReady).length := by
  have faulty : ∀ i e, databaseFaults failures i = some e → ¬ op.Documents e := by
    intro i e failed
    obtain ⟨text, rfl⟩ := databaseFaults_eq_some failed
    exact not_documents_database op text
  rw [← quiet_databaseFaults]
  cases op with
  | save proof => exact save_failsCleanly_iff proof faulty
  | get taskId now =>
    refine Iff.trans ?_ (and_iff_right trivial).symm
    refine ends_discard.trans ?_
    simp only [raisesOnly_map]
    refine opened_iff faulty (fun conn => ?_) fun write => by simp [Operation.writes] at write
    have expected : ∀ i e, databaseFaults failures i = some e → Expected e := by
      intro i e failed
      obtain ⟨text, rfl⟩ := databaseFaults_eq_some failed
      trivial
    intro s'
    refine ends_mono (retrieve_raises expected taskId now conn s') fun r _ => ?_
    exact raisesOnly_mono fun e expected => retrieval_documented expected taskId now
  | delete taskId =>
    refine Iff.trans ?_ (and_iff_right trivial).symm
    refine opened_iff faulty (fun conn => ?_) fun _ conn s' => write_kept _ conn s'
    exact raises_of_forall fun e => rfl
  | list now =>
    refine Iff.trans ?_ (and_iff_right trivial).symm
    refine ends_discard.trans ?_
    simp only [raisesOnly_map]
    refine opened_iff faulty (fun conn => ?_) fun write => by simp [Operation.writes] at write
    exact raises_of_forall fun e => rfl

end Operations

section Refinement

variable {lib : Library} {s : Traced Step Database}

def noFaults : Faults Raised := fun _ => none

theorem openConnection_noFaults : ∃ steps, (openConnection noFaults).run s =
    .ok s.state.table ⟨⟨s.state.table, true⟩, steps⟩ :=
  ⟨_, openConnection_quiet fun _ _ => rfl⟩

theorem write_noFaults (change : SQLiteProofStore → SQLiteProofStore) (handler : Raised → Raised) :
    ∃ steps, (openConnection noFaults >>= fun conn =>
        tryCatch (execute noFaults change conn >>= commit noFaults)
          fun e => throw (handler e)).run s =
      .ok () ⟨⟨change s.state.table, true⟩, steps⟩ := by
  obtain ⟨steps, opened⟩ := openConnection_noFaults (s := s)
  exact ⟨_, by rw [run_bind_ok opened]; rfl⟩

theorem delete_noFaults (taskId : Text) : ∃ steps, (delete noFaults taskId).run s =
    .ok () ⟨⟨SQLiteProofStore.delete s.state.table taskId, true⟩, steps⟩ :=
  write_noFaults (SQLiteProofStore.delete · taskId) (storageError "Failed to delete proof: ")

theorem save_noFaults (proof : StoredProof) : Ends (save noFaults lib proof) s fun r db =>
    match SQLiteProofStore.save lib s.state.table proof with
    | .ok table => r = .ok () ∧ db = ⟨table, true⟩
    | .error e => r = .error (.exc e) ∧ db = s.state := by
  unfold SQLiteProofStore.save
  cases dumped : lib.dumpJson proof.dump with
  | none =>
    rw [save_undumped dumped]
    exact ⟨rfl, rfl⟩
  | some proofJson =>
    obtain ⟨steps, saved⟩ := write_noFaults (s := s)
      (fun table => table.set proof.proofData.task.taskId ⟨proofJson, isoformat proof.expiresAt⟩)
      (storageError "Failed to save proof: ")
    rw [save_dumped dumped, ends_ok saved]
    exact ⟨rfl, rfl⟩

theorem list_noFaults (now : Wall) : Ends (list noFaults now) s fun r db =>
    r = .ok (SQLiteProofStore.list s.state.table now) ∧ db = ⟨s.state.table, true⟩ := by
  obtain ⟨steps, opened⟩ := openConnection_noFaults (s := s)
  rw [list, ends_bind, opened]
  exact ⟨rfl, rfl⟩

theorem get_noFaults (taskId : Text) (now : Wall) :
    Ends (get noFaults lib taskId now) s fun r db =>
      r = (SQLiteProofStore.get lib s.state.table taskId now).1.mapError .exc ∧
        db = ⟨(SQLiteProofStore.get lib s.state.table taskId now).2, true⟩ := by
  obtain ⟨steps, opened⟩ := openConnection_noFaults (s := s)
  rw [get, ends_bind, opened]
  refine ends_translated.mpr ?_
  unfold retrieve SQLiteProofStore.get
  rw [ends_step_ok rfl, ends_step_ok rfl]
  cases Dict.get s.state.table taskId with
  | none => exact ⟨rfl, rfl⟩
  | some row =>
    dsimp only
    rw [ends_step_ok rfl]
    cases expiry : SQLiteProofStore.rowExpiry row with
    | error e =>
      have refused := rowExpiry_undecodable row e expiry
      exact ⟨congrArg Except.error (retrieval_undecodable refused), rfl⟩
    | ok expiresAt =>
      simp only [raised, pure_bind]
      cases compared : before expiresAt (utcAt now) with
      | error e =>
        have refused := before_undecodable _ _ e compared
        exact ⟨congrArg Except.error (retrieval_undecodable refused), rfl⟩
      | ok late =>
        simp only [pure_bind]
        cases late with
        | true =>
          obtain ⟨steps, deleted⟩ := delete_noFaults (s := ⟨⟨s.state.table, true⟩, _⟩) taskId
          rw [if_pos rfl, ends_bind, deleted]
          exact ⟨rfl, rfl⟩
        | false =>
          rw [if_neg Bool.false_ne_true, ends_step_ok rfl]
          cases decoded : SQLiteProofStore.decodeRow lib row with
          | error e =>
            have refused := decodeRow_undecodable lib row e decoded
            exact ⟨congrArg Except.error (retrieval_undecodable refused), rfl⟩
          | ok proof => exact ⟨rfl, rfl⟩

end Refinement

section Sample

def emptyStore : Traced Step Database := ⟨⟨Dict.empty, true⟩, []⟩

def unopened : Faults Message :=
  fun i => if i = 0 then some (msg "unable to open database file") else none

theorem unopened_escapes :
    (get (databaseFaults unopened) isoLibrary "t".toList noon.wall).run emptyStore =
        .error (.database (msg "unable to open database file")) emptyStore ∧
      ¬ (Operation.get "t".toList noon.wall).FailsCleanly isoLibrary (databaseFaults unopened)
        emptyStore := by
  refine ⟨rfl, fun cleanly => ?_⟩
  exact ((raisesOnly_error _).mp cleanly).1

end Sample

end AgentTrust.StoreFaults
