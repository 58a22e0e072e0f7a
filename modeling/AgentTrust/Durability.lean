import AgentTrust.Runs
import AgentTrust.StoreFaults
import AgentTrust.StoreHistory

/-! The SQLite store over failing steps and new processes. Whatever fails, an operation
takes effect as a whole or leaves the table alone, and its answer tells which. The table is
therefore that of the operations that took effect, and a proof that was saved is returned by
every later look that answers, in whatever process. -/

namespace AgentTrust.Durability

open JsonTree PyText PyJson Gregorian PyDateTime OrderedDict PyValue Models Effects Exchange
  Storage Tasks Publication HonestAgent ExpiryAgreement StoredJson StoreRefinement StoreHistory
  Runs FaultySteps StoreFaults
open StoreRefinement (Op)

section Source

variable (lib : Library)

/-- A pass of `_gc_loop`; the loop logs what it raises and goes on. -/
def gcPass (faults : Faults Raised) (now : Wall) : StoreFaults.Op Unit := do
  let conn ← openConnection faults
  let conn ← execute faults (SQLiteProofStore.gcPass · now) conn
  commit faults conn

def attempt (faults : Faults Raised) : Op × Wall → StoreFaults.Op (Option StoredProof)
  | (.save p, _) => do
    save faults lib p
    return none
  | (.get taskId, now) => get faults lib taskId now
  | (.delete taskId, _) => do
    delete faults taskId
    return none
  | (.collect, now) => do
    gcPass faults now
    return none

abbrev Answer (α : Type) := Except Raised α

def answered {α : Type} (db : Database) (x : StoreFaults.Op α) : Answer α × Database :=
  match x.run ⟨db, []⟩ with
  | .ok a s => (.ok a, s.state)
  | .error e s => (.error e, s.state)

def answer (db : Database) (op : Op × Wall) (failures : Faults Message) :
    Answer (Option StoredProof) × Database :=
  answered db (attempt lib (databaseFaults failures) op)

def listing (db : Database) (now : Wall) (failures : Faults Message) :
    Answer (List Text) × Database :=
  answered db (list (databaseFaults failures) now)

/-- What befalls the store: an operation some of whose steps fail, or a new process. -/
inductive Happening where
  | called (op : Op × Wall) (failures : Faults Message)
  | listed (now : Wall) (failures : Faults Message)
  | restarted

def next (db : Database) : Happening → Database
  | .called op failures => (answer lib db op failures).2
  | .listed now failures => (listing db now failures).2
  | .restarted => { db with schemaReady := false }

def fresh : Database := ⟨Dict.empty, false⟩

def reached (run : List Happening) : Database := run.foldl (next lib) fresh

end Source

section Answers

/-- An answer by which the operation took effect: it returned or reported an expiry. -/
def TookEffect : Answer (Option StoredProof) → Bool
  | .ok _ => true
  | .error (.exc e) => e.cls == .proofExpiredError
  | .error (.database _) => false

def Unexpiring : Raised → Prop
  | .exc e => e.cls ≠ .proofExpiredError
  | .database _ => True

/-- An exception by which a failing step kept an operation from taking effect. -/
structure Interrupts (faults : Faults Raised) (e : Raised) : Prop where
  unexpiring : Unexpiring e
  failing : ∃ i, faults i ≠ none

theorem not_tookEffect {e : Raised} (unexpiring : Unexpiring e) :
    TookEffect (.error e) = false := by
  cases e with
  | exc e => simpa [TookEffect, Unexpiring] using unexpiring
  | database text => rfl

theorem unexpiring_databaseFaults {failures : Faults Message} (i : Nat) (e : Raised)
    (failed : databaseFaults failures i = some e) : Unexpiring e := by
  obtain ⟨text, rfl⟩ := databaseFaults_eq_some failed
  trivial

theorem unexpiring_storageError (label : String) (e : Raised) :
    Unexpiring (storageError label e) := by
  simp [Unexpiring, storageError]

theorem unexpiring_retrieval {e : Raised} (unexpiring : Unexpiring e) :
    Unexpiring (retrieval e) := by
  cases e with
  | exc e =>
    obtain ⟨cls, text⟩ := e
    cases cls <;> simp_all [Unexpiring, retrieval, storageError]
  | database text => exact unexpiring_storageError _ _

/-- The program ends as told, or a failing step leaves the table as it was. -/
def EndsOr {α : Type} (faults : Faults Raised) (x : StoreFaults.Op α) (s : Traced Step Database)
    (told : Except Exc α × SQLiteProofStore) : Prop :=
  Ends x s fun r db => r = told.1.mapError .exc ∧ db.table = told.2 ∨
    ∃ e, r = .error e ∧ Interrupts faults e ∧ db.table = s.state.table

variable {α : Type} {lib : Library} {faults : Faults Raised} {s : Traced Step Database}
  {told : Except Exc α × SQLiteProofStore}

theorem endsOr_opened (faulty : ∀ i e, faults i = some e → Unexpiring e)
    {body : Connection → StoreFaults.Op α}
    (opened : ∀ s', s'.state.table = s.state.table → EndsOr faults (body s.state.table) s' told) :
    EndsOr faults (openConnection faults >>= body) s told := by
  unfold EndsOr
  rw [ends_bind]
  by_cases quiet : Quiet faults s.steps.length (opening s.state.schemaReady).length
  · rw [openConnection_quiet quiet]
    exact opened _ rfl
  · obtain ⟨i, e, s', raised, ended, same⟩ := openConnection_struck quiet
    rw [ended]
    exact .inr ⟨e, rfl, ⟨faulty i e raised, i, by simp [raised]⟩, same⟩

theorem endsOr_step (faulty : ∀ i e, faults i = some e → Unexpiring e) {k : Step}
    {f : Unit → StoreFaults.Op α}
    (stepped : ∀ s', s'.state.table = s.state.table → EndsOr faults (f ()) s' told) :
    EndsOr faults (step faults k >>= f) s told := by
  unfold EndsOr
  rw [ends_step]
  cases struck : faults s.steps.length with
  | some e => exact .inr ⟨e, rfl, ⟨faulty _ e struck, s.steps.length, by simp [struck]⟩, rfl⟩
  | none => exact stepped _ rfl

theorem endsOr_translated {x : StoreFaults.Op α} {handler : Raised → Raised}
    {told' : Except Exc α × SQLiteProofStore} (ends : EndsOr faults x s told)
    (unexpiring : ∀ e, Unexpiring e → Unexpiring (handler e))
    (same : (told.1.mapError .exc).mapError handler = told'.1.mapError .exc ∧ told.2 = told'.2) :
    EndsOr faults (tryCatch x fun e => throw (handler e)) s told' := by
  refine ends_translated.mpr (ends_mono ends ?_)
  rintro r db (⟨rfl, table⟩ | ⟨e, rfl, interrupted, table⟩)
  · exact .inl ⟨same.1, table.trans same.2⟩
  · exact .inr ⟨handler e, rfl, ⟨unexpiring e interrupted.unexpiring, interrupted.failing⟩, table⟩

theorem mapError_eq_ok {ε ε' : Type} {f : ε → ε'} {x : Except ε α} {a : α} :
    x.mapError f = .ok a ↔ x = .ok a := by
  cases x <;> simp [Except.mapError]

theorem mapError_exc_eq_error {x : Except Exc α} {e : Exc} :
    x.mapError Raised.exc = .error (.exc e) ↔ x = .error e := by
  cases x <;> simp [Except.mapError]

theorem write_endsOr (faulty : ∀ i e, faults i = some e → Unexpiring e)
    (change : SQLiteProofStore → SQLiteProofStore) (conn : Connection) :
    EndsOr faults (execute faults change conn >>= commit faults) s (.ok (), change conn) := by
  rw [execute, bind_assoc]
  refine endsOr_step faulty fun s' same => ?_
  rw [pure_bind, commit]
  refine endsOr_step faulty fun s'' same' => ?_
  exact (ends_ok (run_update _ _)).mpr (.inl ⟨rfl, rfl⟩)

theorem opened_write_endsOr (faulty : ∀ i e, faults i = some e → Unexpiring e)
    (change : SQLiteProofStore → SQLiteProofStore) (label : String) :
    EndsOr faults (openConnection faults >>= fun conn =>
      tryCatch (execute faults change conn >>= commit faults)
        fun e => throw (storageError label e)) s (.ok (), change s.state.table) :=
  endsOr_opened faulty fun _ _ => endsOr_translated (write_endsOr faulty change _)
    (fun e _ => unexpiring_storageError label e) ⟨rfl, rfl⟩

theorem delete_endsOr (faulty : ∀ i e, faults i = some e → Unexpiring e) (taskId : Text) :
    EndsOr faults (delete faults taskId) s (.ok (), SQLiteProofStore.delete s.state.table taskId) :=
  opened_write_endsOr faulty (SQLiteProofStore.delete · taskId) "Failed to delete proof: "

def retrieved (lib : Library) (store : SQLiteProofStore) (taskId : Text) (now : Wall) :
    Except Exc (Option StoredProof) × SQLiteProofStore :=
  match Dict.get store taskId with
  | none => (.ok none, store)
  | some row =>
    match SQLiteProofStore.rowExpiry row with
    | .error e => (.error e, store)
    | .ok expiresAt =>
      match before expiresAt (utcAt now) with
      | .error e => (.error e, store)
      | .ok true => (.error (expired taskId expiresAt), SQLiteProofStore.delete store taskId)
      | .ok false => ((SQLiteProofStore.decodeRow lib row).map some, store)

theorem retrieved_translated (lib : Library) (store : SQLiteProofStore) (taskId : Text)
    (now : Wall) :
    ((retrieved lib store taskId now).1.mapError .exc).mapError retrieval =
        (SQLiteProofStore.get lib store taskId now).1.mapError .exc ∧
      (retrieved lib store taskId now).2 = (SQLiteProofStore.get lib store taskId now).2 := by
  unfold retrieved SQLiteProofStore.get
  cases Dict.get store taskId with
  | none => exact ⟨rfl, rfl⟩
  | some row =>
    dsimp only
    cases expiry : SQLiteProofStore.rowExpiry row with
    | error e =>
      exact ⟨congrArg _ (retrieval_undecodable (rowExpiry_undecodable row e expiry)), rfl⟩
    | ok expiresAt =>
      dsimp only
      cases compared : before expiresAt (utcAt now) with
      | error e =>
        exact ⟨congrArg _ (retrieval_undecodable (before_undecodable _ _ e compared)), rfl⟩
      | ok late =>
        cases late with
        | true => exact ⟨rfl, rfl⟩
        | false =>
          dsimp only
          cases decoded : SQLiteProofStore.decodeRow lib row with
          | error e =>
            exact ⟨congrArg _ (retrieval_undecodable (decodeRow_undecodable lib row e decoded)),
              rfl⟩
          | ok proof => exact ⟨rfl, rfl⟩

theorem retrieve_endsOr (faulty : ∀ i e, faults i = some e → Unexpiring e) (taskId : Text)
    (now : Wall) : EndsOr faults (retrieve faults lib taskId now s.state.table) s
      (retrieved lib s.state.table taskId now) := by
  unfold retrieve retrieved
  refine endsOr_step faulty fun s₁ same₁ => endsOr_step faulty fun s₂ same₂ => ?_
  have kept := same₂.trans same₁
  rw [← kept]
  cases Dict.get s₂.state.table taskId with
  | none => exact .inl ⟨rfl, rfl⟩
  | some row =>
    refine endsOr_step faulty fun s₃ same₃ => ?_
    rw [← same₃]
    dsimp only
    cases SQLiteProofStore.rowExpiry row with
    | error e => exact .inl ⟨rfl, rfl⟩
    | ok expiresAt =>
      simp only [raised, pure_bind]
      cases before expiresAt (utcAt now) with
      | error e => exact .inl ⟨rfl, rfl⟩
      | ok late =>
        simp only [pure_bind]
        cases late with
        | true =>
          refine ends_seq (delete_endsOr faulty taskId) (fun _ s₄ deleted => ?_) ?_
          · obtain ⟨_, deleted⟩ | ⟨e, raised, _⟩ := deleted
            · exact .inl ⟨rfl, deleted⟩
            · simp at raised
          · rintro e db (⟨returned, _⟩ | ⟨_, raised, interrupts, same⟩)
            · simp [Except.mapError] at returned
            · obtain rfl := Except.error.inj raised
              exact .inr ⟨e, rfl, interrupts, same⟩
        | false =>
          refine endsOr_step faulty fun s₄ same₄ => ?_
          rw [← same₄]
          cases SQLiteProofStore.decodeRow lib row with
          | error e => exact .inl ⟨rfl, rfl⟩
          | ok proof => exact .inl ⟨rfl, rfl⟩

theorem get_endsOr (faulty : ∀ i e, faults i = some e → Unexpiring e) (taskId : Text)
    (now : Wall) : EndsOr faults (get faults lib taskId now) s
      (SQLiteProofStore.get lib s.state.table taskId now) := by
  refine endsOr_opened faulty fun s' same => ?_
  rw [← same]
  exact endsOr_translated (retrieve_endsOr faulty taskId now) (fun _ => unexpiring_retrieval)
    (retrieved_translated lib _ taskId now)

theorem save_endsOr (faulty : ∀ i e, faults i = some e → Unexpiring e) (p : StoredProof) :
    EndsOr faults (save faults lib p) s
      (match SQLiteProofStore.save lib s.state.table p with
        | .ok table => (.ok (), table)
        | .error e => (.error e, s.state.table)) := by
  unfold SQLiteProofStore.save
  cases dumped : lib.dumpJson p.dump with
  | none =>
    rw [save_undumped dumped]
    exact .inl ⟨rfl, rfl⟩
  | some proofJson =>
    rw [save_dumped dumped]
    exact opened_write_endsOr faulty _ "Failed to save proof: "

theorem list_endsOr (faulty : ∀ i e, faults i = some e → Unexpiring e) (now : Wall) :
    EndsOr faults (list faults now) s
      (.ok (SQLiteProofStore.list s.state.table now), s.state.table) := by
  refine endsOr_opened faulty fun s' same => ?_
  have body : EndsOr faults (do
      step faults .execute
      step faults .fetch
      return SQLiteProofStore.list s.state.table now) s'
      (.ok (SQLiteProofStore.list s.state.table now), s.state.table) := by
    refine endsOr_step faulty fun s₁ same₁ => endsOr_step faulty fun s₂ same₂ => ?_
    exact .inl ⟨rfl, same₂.trans (same₁.trans same)⟩
  exact endsOr_translated body (fun e _ => unexpiring_storageError _ e) ⟨rfl, rfl⟩

theorem gcPass_endsOr (faulty : ∀ i e, faults i = some e → Unexpiring e) (now : Wall) :
    EndsOr faults (gcPass faults now) s (.ok (), SQLiteProofStore.gcPass s.state.table now) :=
  endsOr_opened faulty fun _ _ => write_endsOr faulty _ _

theorem endsOr_returning {x : StoreFaults.Op Unit} {told : Except Exc Unit × SQLiteProofStore}
    (ends : EndsOr faults x s told) : EndsOr faults (do x; return none) s
      (told.1.map (fun _ => (none : Option StoredProof)), told.2) := by
  refine ends_seq ends (fun a s' told' => ?_) ?_
  · obtain ⟨returned, table⟩ | ⟨e, raised, _⟩ := told'
    · refine .inl ⟨?_, table⟩
      cases given : told.1 with
      | ok u => rfl
      | error e => simp [given, Except.mapError] at returned
    · simp at raised
  · rintro e db (⟨raised, table⟩ | ⟨_, raised, interrupts, same⟩)
    · refine .inl ⟨?_, table⟩
      cases given : told.1 with
      | ok u => simp [given, Except.mapError] at raised
      | error e' =>
        rw [given] at raised
        exact congrArg Except.error (Except.error.inj raised)
    · obtain rfl := Except.error.inj raised
      exact .inr ⟨e, rfl, interrupts, same⟩

theorem attempt_endsOr (faulty : ∀ i e, faults i = some e → Unexpiring e) (op : Op × Wall) :
    EndsOr faults (attempt lib faults op) s (sqliteStep lib s.state.table op) := by
  obtain ⟨op, now⟩ := op
  cases op with
  | save p =>
    have saving : EndsOr faults (save faults lib p) s _ := save_endsOr faulty p
    have ends := endsOr_returning saving
    rw [sqliteStep]
    cases saved : SQLiteProofStore.save lib s.state.table p with
    | ok table =>
      rw [saved] at ends
      exact ends
    | error e =>
      rw [saved] at ends
      exact ends
  | get taskId => exact get_endsOr faulty taskId now
  | delete taskId => exact endsOr_returning (delete_endsOr faulty taskId)
  | collect => exact endsOr_returning (gcPass_endsOr faulty now)

end Answers

section Runs

variable {lib : Library} {db : Database}

def completes (lib : Library) (db : Database) : Happening → List (Op × Wall)
  | .called op failures => if TookEffect (answer lib db op failures).1 then [op] else []
  | .listed _ _ => []
  | .restarted => []

def completed (lib : Library) (run : List Happening) : List (Op × Wall) :=
  emitted (next lib) (completes lib) fresh run

theorem answered_ends {α : Type} {x : StoreFaults.Op α} {Q : Answer α → Database → Prop}
    (ends : Ends x ⟨db, []⟩ Q) : Q (answered db x).1 (answered db x).2 := by
  unfold Ends at ends
  unfold answered
  cases ran : x.run ⟨db, []⟩ with
  | ok a s =>
    rw [ran] at ends
    exact ends
  | error e s =>
    rw [ran] at ends
    exact ends

theorem sqliteStep_failed {table : SQLiteProofStore} {op : Op × Wall}
    (failed : TookEffect ((sqliteStep lib table op).1.mapError .exc) = false) :
    (sqliteStep lib table op).2 = table := by
  obtain ⟨op, now⟩ := op
  cases op with
  | save p =>
    cases saved : SQLiteProofStore.save lib table p with
    | ok table' => simp [sqliteStep, saved, Except.mapError, TookEffect] at failed
    | error e => simp [sqliteStep, saved]
  | get taskId =>
    unfold sqliteStep SQLiteProofStore.get at failed ⊢
    dsimp only at failed ⊢
    split
    · rfl
    · split
      · rfl
      · split
        · rfl
        · simp_all [Except.mapError, TookEffect, expired]
        · split <;> rfl
  | delete taskId => simp [sqliteStep, Except.mapError, TookEffect] at failed
  | collect => simp [sqliteStep, Except.mapError, TookEffect] at failed

/-- An operation takes effect as a whole or not at all, and its answer tells which. -/
theorem answer_cases (lib : Library) (db : Database) (op : Op × Wall)
    (failures : Faults Message) :
    TookEffect (answer lib db op failures).1 = true ∧
        (answer lib db op failures).1 = (sqliteStep lib db.table op).1.mapError .exc ∧
        (answer lib db op failures).2.table = (sqliteStep lib db.table op).2 ∨
      TookEffect (answer lib db op failures).1 = false ∧
        (answer lib db op failures).2.table = db.table := by
  rcases answered_ends (attempt_endsOr (s := ⟨db, []⟩) unexpiring_databaseFaults op) with
    ⟨given, table⟩ | ⟨e, given, interrupts, table⟩
  · cases effect : TookEffect (answer lib db op failures).1 with
    | true => exact .inl ⟨rfl, given, table⟩
    | false =>
      refine .inr ⟨rfl, table.trans (sqliteStep_failed ?_)⟩
      rw [← effect]
      exact congrArg TookEffect given.symm
  · refine .inr ⟨?_, table⟩
    rw [answer, given]
    exact not_tookEffect interrupts.unexpiring

theorem listing_kept (now : Wall) (failures : Faults Message) :
    (listing db now failures).2.table = db.table := by
  rcases answered_ends (list_endsOr (s := ⟨db, []⟩) unexpiring_databaseFaults now) with
    ⟨_, table⟩ | ⟨_, _, _, table⟩
  · exact table
  · exact table

theorem listing_told {now : Wall} {failures : Faults Message} {ids : List Text}
    (told : (listing db now failures).1 = .ok ids) : ids = SQLiteProofStore.list db.table now := by
  rcases answered_ends (list_endsOr (s := ⟨db, []⟩) unexpiring_databaseFaults now) with
    ⟨given, _⟩ | ⟨e, given, _⟩
  · exact Except.ok.inj (told.symm.trans given)
  · exact absurd (told.symm.trans given) (by simp)

theorem table_next (db : Database) (e : Happening) : (next lib db e).table =
    (completes lib db e).foldl (fun table op => (sqliteStep lib table op).2) db.table := by
  cases e with
  | called op failures =>
    rcases answer_cases lib db op failures with ⟨effect, _, table⟩ | ⟨effect, table⟩
    · simpa [next, completes, effect] using table
    · simpa [next, completes, effect] using table
  | listed now failures => exact listing_kept now failures
  | restarted => rfl

theorem table_reached (run : List Happening) :
    (reached lib run).table = tableAfter lib (completed lib run) :=
  foldl_emitted table_next fresh run

theorem called_of_completed {run : List Happening} {op : Op × Wall}
    (inside : op ∈ completed lib run) : ∃ failures, .called op failures ∈ run := by
  obtain ⟨e, member, db, completes_⟩ := mem_emitted inside
  cases e with
  | called op' failures =>
    simp only [completes] at completes_
    split at completes_
    · obtain rfl := List.mem_singleton.mp completes_
      exact ⟨failures, member⟩
    · simp at completes_
  | listed now failures => simp [completes] at completes_
  | restarted => simp [completes] at completes_

theorem answer_unfailing (lib : Library) (db : Database) (op : Op × Wall)
    (failures : Faults Message) (unfailing : ∀ i, failures i = none) :
    (answer lib db op failures).1 = (sqliteStep lib db.table op).1.mapError .exc := by
  rcases answered_ends (attempt_endsOr (s := ⟨db, []⟩) unexpiring_databaseFaults op) with
    ⟨given, _⟩ | ⟨_, _, interrupts, _⟩
  · exact given
  · obtain ⟨i, failing⟩ := interrupts.failing
    exact absurd (by rw [databaseFaults, unfailing i]; rfl) failing

/-- What is saved in a run and the readings of its clock. -/
structure Admissible (lib : Library) (run : List Happening) (now : Wall) : Prop where
  saves : ∀ op failures, .called op failures ∈ run → Saves lib op
  latest : ∀ op failures, .called op failures ∈ run → op.2.micros ≤ now.micros

theorem Admissible.completed_saves {run : List Happening} {now : Wall}
    (admissible : Admissible lib run now) : ∀ op ∈ completed lib run, Saves lib op := by
  intro op inside
  obtain ⟨failures, member⟩ := called_of_completed inside
  exact admissible.saves op failures member

theorem Admissible.completed_latest {run : List Happening} {now : Wall}
    (admissible : Admissible lib run now) :
    ∀ op ∈ completed lib run, op.2.micros ≤ now.micros := by
  intro op inside
  obtain ⟨failures, member⟩ := called_of_completed inside
  exact admissible.latest op failures member

abbrev looked (lib : Library) (run : List Happening) (taskId : Text) (now : Wall)
    (failures : Faults Message) : Answer (Option StoredProof) :=
  (answer lib (reached lib run) (.get taskId, now) failures).1

theorem looked_truthful {run : List Happening} {taskId : Text} {now : Wall}
    {failures : Faults Message} (effect : TookEffect (looked lib run taskId now failures) = true) :
    looked lib run taskId now failures =
      (SQLiteProofStore.get lib (tableAfter lib (completed lib run)) taskId now).1.mapError
        .exc := by
  rcases answer_cases lib (reached lib run) (.get taskId, now) failures with
    ⟨_, given, _⟩ | ⟨none_, _⟩
  · rw [table_reached] at given
    exact given
  · exact absurd (effect.symm.trans none_) (by simp)

theorem looked_unfailing {run : List Happening} {taskId : Text} {now : Wall}
    {failures : Faults Message} (unfailing : ∀ i, failures i = none) :
    looked lib run taskId now failures =
      (SQLiteProofStore.get lib (tableAfter lib (completed lib run)) taskId now).1.mapError
        .exc := by
  rw [← table_reached]
  exact answer_unfailing lib (reached lib run) (.get taskId, now) failures unfailing

theorem looked_returned (documented : Documented lib) {run : List Happening} {taskId : Text}
    {now : Wall} {failures : Faults Message} (admissible : Admissible lib run now)
    {p : StoredProof} (found : looked lib run taskId now failures = .ok (some p)) :
    SavedLast (completed lib run) taskId p ∧ (now.micros : Int) ≤ p.expiresAt.instant := by
  have given := looked_truthful (by rw [found]; rfl)
  rw [found] at given
  exact (sqlite_returned_iff documented admissible.completed_saves
    admissible.completed_latest).mp (mapError_eq_ok.mp given.symm)

theorem looked_nothing (documented : Documented lib) {run : List Happening} {taskId : Text}
    {now : Wall} {failures : Faults Message} (admissible : Admissible lib run now)
    (empty : looked lib run taskId now failures = .ok none) {p : StoredProof}
    {later : List (Op × Wall)} (then_ : SavedThen (completed lib run) taskId p later) :
    ∃ op ∈ later, Notices taskId p op := by
  have given := looked_truthful (by rw [empty]; rfl)
  rw [empty] at given
  have absent := mapError_eq_ok.mp given.symm
  by_contra unnoticed
  simp only [not_exists, not_and] at unnoticed
  by_cases passed : late now p
  · have raised := (sqlite_raised_iff documented admissible.completed_saves).mpr
      ⟨p, later, then_, passed, unnoticed, rfl⟩
    exact absurd (absent.symm.trans raised) (by simp)
  · have aware := (savedThen_storable admissible.completed_saves then_).expiresAt
    have live : (now.micros : Int) ≤ p.expiresAt.instant := by simpa [late, aware] using passed
    have returned := (sqlite_returned_iff documented admissible.completed_saves
      admissible.completed_latest).mpr ⟨⟨later, then_⟩, live⟩
    exact absurd (absent.symm.trans returned) (by simp)

theorem looked_live (documented : Documented lib) {run : List Happening} {taskId : Text}
    {now : Wall} {failures : Faults Message} (admissible : Admissible lib run now)
    (unfailing : ∀ i, failures i = none) {p : StoredProof}
    (last : SavedLast (completed lib run) taskId p)
    (live : (now.micros : Int) ≤ p.expiresAt.instant) :
    looked lib run taskId now failures = .ok (some p) := by
  rw [looked_unfailing unfailing, (sqlite_returned_iff documented admissible.completed_saves
    admissible.completed_latest).mpr ⟨last, live⟩]
  rfl

/-- What a look at an id is answered after any run of happenings, whatever fails in the look or
failed before it, told by the operations that took effect. -/
theorem answers_durable (documented : Documented lib) {run : List Happening} {now : Wall}
    (admissible : Admissible lib run now) (taskId : Text) (failures : Faults Message) :
    let done := completed lib run
    (∀ p, looked lib run taskId now failures = .ok (some p) →
      SavedLast done taskId p ∧ (now.micros : Int) ≤ p.expiresAt.instant) ∧
    (looked lib run taskId now failures = .ok none →
      ∀ p later, SavedThen done taskId p later → ∃ op ∈ later, Notices taskId p op) ∧
    (∀ e, looked lib run taskId now failures = .error (.exc e) → e.cls = .proofExpiredError →
      ∃ p later, SavedThen done taskId p later ∧ late now p ∧
        (∀ op ∈ later, ¬ Notices taskId p op) ∧ e = expired taskId p.expiresAt) ∧
    ((∀ i, failures i = none) → ∀ p, SavedLast done taskId p →
      (now.micros : Int) ≤ p.expiresAt.instant →
        looked lib run taskId now failures = .ok (some p)) ∧
    (∀ ids, (listing (reached lib run) now failures).1 = .ok ids →
      (taskId ∈ ids ↔ ∃ p, SavedLast done taskId p ∧
        (now.micros : Int) < p.expiresAt.instant)) := by
  refine ⟨fun p => looked_returned documented admissible,
    fun empty p later => looked_nothing documented admissible empty, fun e failed cls => ?_,
    fun unfailing p => looked_live documented admissible unfailing, fun ids told => ?_⟩
  · have given := looked_truthful (by rw [failed, TookEffect, cls]; rfl)
    rw [failed] at given
    exact (sqlite_raised_iff documented admissible.completed_saves).mp
      (mapError_exc_eq_error.mp given.symm)
  · rw [listing_told told, table_reached]
    exact sqlite_listed_iff documented admissible.completed_saves admissible.completed_latest

end Runs

section Sample

def unfailing : Faults Message := fun _ => none

def lostCommit : Faults Message := fun i => if i = 7 then some (msg "disk I/O error") else none

def sampleHappenings : List Happening :=
  [.called (.save (sampleUntil onePm), january 12) unfailing, .restarted,
   .called (.delete sampleTask.str, january 12) lostCommit, .restarted]

theorem sampleHappenings_completed : completed textLibrary sampleHappenings =
    [(.save (sampleUntil onePm), january 12)] := by
  have storable : Storable textLibrary (sampleUntil onePm) := sampleUntil_storable onePm.wall
  obtain ⟨row, row_of⟩ := Option.isSome_iff_exists.mp storable.encodable
  have saved : TookEffect (answer textLibrary fresh (.save (sampleUntil onePm), january 12)
      unfailing).1 = true := by
    have given := answer_unfailing textLibrary fresh (.save (sampleUntil onePm), january 12)
      unfailing fun _ => rfl
    rw [given, sqliteStep, SQLiteProofStore.save_rowOf row_of]
    rfl
  have lost : ∀ table, TookEffect (answer textLibrary ⟨table, false⟩
      (.delete sampleTask.str, january 12) lostCommit).1 = false := fun table => rfl
  simp [completed, sampleHappenings, emitted, completes, saved, next, lost]

theorem sampleHappenings_admissible : Admissible textLibrary sampleHappenings (january 13) := by
  have events : ∀ op failures, .called op failures ∈ sampleHappenings →
      op = (.save (sampleUntil onePm), january 12) ∨ op = (.delete sampleTask.str, january 12) := by
    intro op failures member
    simp only [sampleHappenings, List.mem_cons, List.not_mem_nil, or_false, reduceCtorEq,
      Happening.called.injEq, false_or] at member
    exact member.imp And.left And.left
  have earlier : (january 12).micros ≤ (january 13).micros := by decide
  constructor
  · intro op failures member p save_
    rcases events op failures member with rfl | rfl
    · obtain rfl := Op.save.inj save_
      exact sampleUntil_storable onePm.wall
    · simp at save_
  · intro op failures member
    rcases events op failures member with rfl | rfl <;> exact earlier

theorem sampleHappenings_savedLast :
    SavedLast (completed textLibrary sampleHappenings) sampleTask.str (sampleUntil onePm) := by
  rw [sampleHappenings_completed]
  exact ⟨[], rfl, ⟨[], january 12, rfl⟩, by simp⟩

theorem sampleHappenings_returned : looked textLibrary sampleHappenings sampleTask.str (january 13)
    unfailing = .ok (some (sampleUntil onePm)) :=
  (answers_durable textLibrary_documented sampleHappenings_admissible sampleTask.str
    unfailing).2.2.2.1 (fun _ => rfl) _ sampleHappenings_savedLast (by decide)

end Sample

end AgentTrust.Durability
