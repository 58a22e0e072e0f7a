import AgentTrust.ExpiryAgreement
import AgentTrust.Runs

/-! `SQLiteProofStore` under concurrency. A call runs one SQL statement with its commit
at a time, and between its statements other calls run and the clock advances. A saved
proof is claimed until a later save or delete of its task id is called. A GC pass deletes
no live claimed proof, whenever it read the clock; the statements that can are those of
calls already in progress for the same task id, the `DELETE` of a `get` among them. -/

namespace AgentTrust.StoreRaces

open PyText Gregorian PyDateTime IsoOrder OrderedDict PyValue Models Exchange Storage
  SQLiteProofStore Tasks HonestAgent StoredJson ExpiryAgreement Runs

section Calls

abbrev UtcProof := { p : StoredProof // p.expiresAt.offset = some utcOffset }

def UtcProof.taskId (p : UtcProof) : Text := p.val.proofData.task.taskId

inductive Job where
  | inserting (p : UtcProof) (row : Row)
  | selecting (taskId : Text)
  | checking (taskId : Text) (row : Option Row)
  | dropping (taskId : Text)
  | deleting (taskId : Text)
  | collecting (started : Wall)

structure State where
  table : SQLiteProofStore
  clock : Wall
  jobs : List Job
  /-- Proofs whose save has completed, with no later save or delete called for their ids. -/
  claims : List UtcProof

inductive Call where
  | save (p : UtcProof)
  | get (taskId : Text)
  | delete (taskId : Text)
  | collect

inductive Move where
  | call (c : Call)
  | tick (now : Wall)
  | resume (i : Nat)

def start (clock : Wall) : State := ⟨Dict.empty, clock, [], []⟩

def State.spawn (s : State) (job : Job) : State := { s with jobs := s.jobs ++ [job] }

def State.proceed (s : State) (i : Nat) (job : Job) : State := { s with jobs := s.jobs.set i job }

def State.finish (s : State) (i : Nat) : State := { s with jobs := s.jobs.eraseIdx i }

/-- A save or a delete of `taskId` is called. -/
abbrev State.release (s : State) (taskId : Text) : State :=
  { s with claims := s.claims.filter fun p => p.taskId ≠ taskId }

def expiredRow (row : Row) (now : Wall) : Bool :=
  match rowExpiry row with
  | .error _ => false
  | .ok expiresAt =>
    match before expiresAt (utcAt now) with
    | .error _ => false
    | .ok late => late

/-- Up to the first statement; a save without an encodable dump raises before it. -/
def State.begin (lib : Library) (s : State) : Call → State
  | .save p =>
    match rowOf lib p.val with
    | none => s
    | some row => (s.release p.taskId).spawn (.inserting p row)
  | .get taskId => s.spawn (.selecting taskId)
  | .delete taskId => (s.release taskId).spawn (.deleting taskId)
  | .collect => s.spawn (.collecting s.clock)

/-- The next part of the call number `i`. -/
def State.perform (s : State) (i : Nat) : Job → State
  | .inserting p row =>
    { s.finish i with table := s.table.set p.taskId row, claims := p :: s.claims }
  | .selecting taskId => s.proceed i (.checking taskId (Dict.get s.table taskId))
  | .checking _ none => s.finish i
  | .checking taskId (some row) =>
    if expiredRow row s.clock then s.proceed i (.dropping taskId) else s.finish i
  | .dropping taskId => { s.finish i with table := delete s.table taskId }
  | .deleting taskId => { s.finish i with table := delete s.table taskId }
  | .collecting started => { s.finish i with table := gcPass s.table started }

def step (lib : Library) (s : State) : Move → State
  | .call c => s.begin lib c
  | .tick now => if s.clock.micros ≤ now.micros then { s with clock := now } else s
  | .resume i =>
    match s.jobs[i]? with
    | none => s
    | some job => s.perform i job

end Calls

section Alone

variable {lib : Library}

/-- What a call makes of the table when nothing comes in between. -/
def effect (lib : Library) (table : SQLiteProofStore) (now : Wall) : Call → SQLiteProofStore
  | .save p => (save lib table p.val).toOption.getD table
  | .get taskId => (SQLiteProofStore.get lib table taskId now).2
  | .delete taskId => delete table taskId
  | .collect => gcPass table now

theorem get_table {table : SQLiteProofStore} {taskId : Text} {now : Wall} :
    (SQLiteProofStore.get lib table taskId now).2 = match Dict.get table taskId with
      | none => table
      | some row => if expiredRow row now then delete table taskId else table := by
  unfold SQLiteProofStore.get expiredRow
  cases Dict.get table taskId with
  | none => rfl
  | some row =>
    dsimp only
    cases expiry : rowExpiry row with
    | error e => rfl
    | ok expiresAt =>
      cases compared : before expiresAt (utcAt now) with
      | error e => simp [compared]
      | ok late =>
        cases late with
        | true => simp [compared]
        | false => cases decoded : decodeRow lib row <;> simp [compared]

theorem resume_spawn {s : State} {i : Nat} (last : s.jobs.length = i) (job : Job) :
    step lib (s.spawn job) (.resume i) = (s.spawn job).perform i job := by
  simp [step, State.spawn, ← last]

theorem resume_idle {s : State} {i : Nat} (past : s.jobs.length = i) :
    step lib s (.resume i) = s := by
  simp [step, ← past]

theorem spawn_proceed {s : State} {i : Nat} (last : s.jobs.length = i) (job next : Job) :
    (s.spawn job).proceed i next = s.spawn next := by
  simp [State.spawn, State.proceed, ← last]

theorem spawn_finish {s : State} {i : Nat} (last : s.jobs.length = i) (job : Job) :
    (s.spawn job).finish i = s := by
  simp [State.spawn, State.finish, ← last, List.eraseIdx_append_of_length_le]

theorem get_alone (s : State) (taskId : Text) :
    (step lib (step lib (step lib (step lib s (.call (.get taskId))) (.resume s.jobs.length))
      (.resume s.jobs.length)) (.resume s.jobs.length)).table =
        effect lib s.table s.clock (.get taskId) := by
  have begun : step lib s (.call (.get taskId)) = s.spawn (.selecting taskId) := rfl
  rw [begun, resume_spawn rfl, State.perform, spawn_proceed rfl, resume_spawn rfl, effect,
    get_table]
  have held : (s.spawn (.selecting taskId)).table = s.table := rfl
  rw [held]
  cases Dict.get s.table taskId with
  | none => rw [State.perform, spawn_finish rfl, resume_idle rfl]
  | some row =>
    have clock : (s.spawn (.checking taskId (some row))).clock = s.clock := rfl
    rw [State.perform, clock]
    dsimp only
    split
    · rw [spawn_proceed rfl, resume_spawn rfl, State.perform, spawn_finish rfl]
      rfl
    · rw [spawn_finish rfl, resume_idle rfl]

/-- A call resumed to its end before anything else happens does what the operation does. -/
theorem call_alone (s : State) (c : Call) :
    ((.call c :: List.replicate 3 (.resume s.jobs.length)).foldl (step lib) s).table =
      effect lib s.table s.clock c := by
  simp only [List.replicate, List.foldl_cons, List.foldl_nil]
  cases c with
  | save p =>
    have released : (s.release p.taskId).jobs.length = s.jobs.length := rfl
    cases row_of : rowOf lib p.val with
    | none =>
      have begun : step lib s (.call (.save p)) = s := by rw [step, State.begin, row_of]
      rw [begun, resume_idle rfl, resume_idle rfl, resume_idle rfl, effect, save_no_row row_of]
      rfl
    | some row =>
      have begun : step lib s (.call (.save p)) =
          (s.release p.taskId).spawn (.inserting p row) := by
        rw [step, State.begin, row_of]
      rw [begun, resume_spawn released, State.perform, spawn_finish released, resume_idle rfl,
        resume_idle rfl, effect, save_rowOf row_of]
      rfl
  | get taskId => exact get_alone s taskId
  | delete taskId =>
    have released : (s.release taskId).jobs.length = s.jobs.length := rfl
    have begun : step lib s (.call (.delete taskId)) =
        (s.release taskId).spawn (.deleting taskId) := rfl
    rw [begun, resume_spawn released, State.perform, spawn_finish released, resume_idle rfl,
      resume_idle rfl]
    rfl
  | collect =>
    have begun : step lib s (.call .collect) = s.spawn (.collecting s.clock) := rfl
    rw [begun, resume_spawn rfl, State.perform, spawn_finish rfl, resume_idle rfl, resume_idle rfl]
    rfl

end Alone

section Claims

variable {lib : Library} {s : State}

def State.Live (s : State) (p : UtcProof) : Prop := (s.clock.micros : Int) ≤ p.val.expiresAt.instant

/-- The row of each claimed proof is in the table until the proof has expired. -/
def Kept (lib : Library) (s : State) : Prop :=
  ∀ p ∈ s.claims, s.Live p →
    ∃ row, rowOf lib p.val = some row ∧ Dict.get s.table p.taskId = some row

/-- What a statement finds of the call that it belongs to. -/
structure Inv (lib : Library) (s : State) : Prop where
  inserting : ∀ p row, .inserting p row ∈ s.jobs → rowOf lib p.val = some row
  collecting : ∀ started, .collecting started ∈ s.jobs → started.micros ≤ s.clock.micros

def State.Free (s : State) (taskId : Text) : Prop :=
  ∀ p ∈ s.claims, p.taskId = taskId → ¬ s.Live p

/-- Run now, the statement does nothing to a live claim: no `DELETE` of its id, and no
`INSERT` of another row for it. GC passes are not restricted. -/
def Job.Spares (lib : Library) (s : State) : Job → Prop
  | .inserting p row => ∀ q ∈ s.claims, q.taskId = p.taskId → s.Live q → rowOf lib q.val = some row
  | .dropping taskId => s.Free taskId
  | .deleting taskId => s.Free taskId
  | _ => True

def Spares (lib : Library) (s : State) : Move → Prop
  | .resume i => ∀ job ∈ s.jobs[i]?, job.Spares lib s
  | _ => True

theorem inv_spawn (inv : Inv lib s) {job : Job}
    (inserting : ∀ p row, job = .inserting p row → rowOf lib p.val = some row)
    (collecting : ∀ started, job = .collecting started → started.micros ≤ s.clock.micros) :
    Inv lib (s.spawn job) where
  inserting := by
    intro p row member
    rcases List.mem_append.mp member with old | new
    · exact inv.inserting p row old
    · exact inserting p row (List.mem_singleton.mp new).symm
  collecting := by
    intro started member
    rcases List.mem_append.mp member with old | new
    · exact inv.collecting started old
    · exact collecting started (List.mem_singleton.mp new).symm

theorem Inv.of_jobs {s' : State} (inv : Inv lib s) (clock : s'.clock = s.clock)
    (jobs : ∀ job ∈ s'.jobs, job ∈ s.jobs ∨ (∀ p row, job ≠ .inserting p row) ∧
      ∀ started, job ≠ .collecting started) : Inv lib s' where
  inserting := by
    intro p row member
    rcases jobs _ member with old | ⟨other, _⟩
    · exact inv.inserting p row old
    · exact absurd rfl (other p row)
  collecting := by
    intro started member
    rw [clock]
    rcases jobs _ member with old | ⟨_, other⟩
    · exact inv.collecting started old
    · exact absurd rfl (other started)

theorem inv_finish (inv : Inv lib s) (i : Nat) (table : SQLiteProofStore)
    (claims : List UtcProof) : Inv lib { s.finish i with table, claims } :=
  inv.of_jobs rfl fun _ member => .inl (List.mem_of_mem_eraseIdx member)

theorem inv_proceed (inv : Inv lib s) (i : Nat) {job : Job}
    (inserting : ∀ p row, job ≠ .inserting p row)
    (collecting : ∀ started, job ≠ .collecting started) : Inv lib (s.proceed i job) := by
  refine inv.of_jobs rfl fun other member => ?_
  rcases List.mem_or_eq_of_mem_set member with old | rfl
  · exact .inl old
  · exact .inr ⟨inserting, collecting⟩

theorem inv_perform (inv : Inv lib s) (i : Nat) (job : Job) : Inv lib (s.perform i job) := by
  cases job with
  | inserting p row => exact inv_finish inv i _ _
  | selecting taskId => exact inv_proceed inv i (by simp) (by simp)
  | checking taskId row =>
    cases row with
    | none => exact inv_finish inv i _ _
    | some row =>
      rw [State.perform]
      split
      · exact inv_proceed inv i (by simp) (by simp)
      · exact inv_finish inv i _ _
  | dropping taskId => exact inv_finish inv i _ _
  | deleting taskId => exact inv_finish inv i _ _
  | collecting started => exact inv_finish inv i _ _

theorem inv_release (inv : Inv lib s) (taskId : Text) : Inv lib (s.release taskId) :=
  inv.of_jobs rfl fun _ member => .inl member

theorem inv_step (inv : Inv lib s) (m : Move) : Inv lib (step lib s m) := by
  cases m with
  | call c =>
    cases c with
    | save p =>
      rw [step, State.begin]
      split
      · exact inv
      · next row row_of =>
        refine inv_spawn (inv_release inv p.taskId) ?_ (by simp)
        rintro q written same
        obtain ⟨rfl, rfl⟩ := Job.inserting.inj same
        exact row_of
    | get taskId => exact inv_spawn inv (by simp) (by simp)
    | delete taskId => exact inv_spawn (inv_release inv taskId) (by simp) (by simp)
    | collect =>
      refine inv_spawn inv (by simp) ?_
      rintro started same
      rw [← Job.collecting.inj same]
  | tick now =>
    rw [step]
    split
    · next later =>
      exact ⟨inv.inserting, fun started member => (inv.collecting started member).trans later⟩
    · exact inv
  | resume i =>
    rw [step]
    split
    · exact inv
    · exact inv_perform inv i _

theorem inv_start (clock : Wall) : Inv lib (start clock) where
  inserting := by simp [start]
  collecting := by simp [start]

theorem kept_delete (kept : Kept lib s) (i : Nat) (taskId : Text) :
    Kept lib { s.finish i with table := delete s.table taskId } ↔ s.Free taskId := by
  constructor
  · intro still p member same live
    obtain ⟨row, _, present⟩ := still p member live
    rw [same] at present
    exact absurd present (by rw [delete, Dict.get_erase_self]; simp)
  · intro free p member live
    obtain ⟨row, row_of, present⟩ := kept p member live
    have other : taskId ≠ p.taskId := fun same => free p member same.symm live
    exact ⟨row, row_of, (Dict.get_erase_other s.table other).trans present⟩

theorem kept_insert (kept : Kept lib s) (i : Nat) {p : UtcProof} {row : Row}
    (row_of : rowOf lib p.val = some row) :
    Kept lib { s.finish i with
        table := s.table.set p.taskId row, claims := p :: s.claims } ↔
      ∀ q ∈ s.claims, q.taskId = p.taskId → s.Live q → rowOf lib q.val = some row := by
  constructor
  · intro still q member same live
    obtain ⟨written, written_of, present⟩ := still q (List.mem_cons_of_mem p member) live
    rw [same, Dict.get_set_self] at present
    rw [written_of, present]
  · intro same q member live
    rcases List.mem_cons.mp member with rfl | older
    · exact ⟨row, row_of, Dict.get_set_self _ _ _⟩
    · by_cases id : q.taskId = p.taskId
      · exact ⟨row, same q older id live, by rw [id]; exact Dict.get_set_self _ _ _⟩
      · obtain ⟨written, written_of, present⟩ := kept q older live
        exact ⟨written, written_of, (Dict.get_set_other s.table (Ne.symm id) row).trans present⟩

/-- The cutoff of a GC pass is an earlier clock reading, and so before a live expiry. -/
theorem kept_collect (kept : Kept lib s) (i : Nat) {started : Wall}
    (earlier : started.micros ≤ s.clock.micros) :
    Kept lib { s.finish i with table := gcPass s.table started } := by
  intro p member live
  obtain ⟨row, row_of, present⟩ := kept p member live
  have expiry : p.val.expiresAt = utcAt p.val.expiresAt.wall := DateTime.ext rfl p.property
  have later : ¬ textBefore row.expiresAt (isoformat (utcAt started)) := by
    rw [(rowOf_eq_some row_of).2, expiry, utcAt, textBefore_now]
    have live' : (s.clock.micros : Int) ≤ p.val.expiresAt.instant := live
    rw [expiry, instant_utcAt] at live'
    omega
  refine ⟨row, row_of, ?_⟩
  rw [get_gcPass, present]
  simp [Option.filter_some, later]

theorem kept_release (kept : Kept lib s) (taskId : Text) : Kept lib (s.release taskId) :=
  fun p member live => kept p (List.mem_filter.mp member).1 live

theorem kept_perform (inv : Inv lib s) (kept : Kept lib s) (i : Nat) {job : Job}
    (member : job ∈ s.jobs) : Kept lib (s.perform i job) ↔ job.Spares lib s := by
  cases job with
  | inserting p row => exact kept_insert kept i (inv.inserting p row member)
  | selecting taskId => exact iff_of_true kept trivial
  | checking taskId row =>
    refine iff_of_true ?_ trivial
    cases row with
    | none => exact kept
    | some row =>
      rw [State.perform]
      split
      · exact kept
      · exact kept
  | dropping taskId => exact kept_delete kept i taskId
  | deleting taskId => exact kept_delete kept i taskId
  | collecting started =>
    exact iff_of_true (kept_collect kept i (inv.collecting started member)) trivial

theorem kept_step (inv : Inv lib s) (kept : Kept lib s) (m : Move) :
    Kept lib (step lib s m) ↔ Spares lib s m := by
  cases m with
  | call c =>
    refine iff_of_true ?_ trivial
    cases c with
    | save p =>
      rw [step, State.begin]
      split
      · exact kept
      · exact kept_release kept p.taskId
    | get taskId => exact kept
    | delete taskId => exact kept_release kept taskId
    | collect => exact kept
  | tick now =>
    refine iff_of_true ?_ trivial
    rw [step]
    split
    · next later => exact fun p member live => kept p member ((Int.ofNat_le.mpr later).trans live)
    · exact kept
  | resume i =>
    cases found : s.jobs[i]? with
    | none =>
      have idle : step lib s (.resume i) = s := by rw [step, found]
      rw [idle]
      exact iff_of_true kept (by simp [Spares, found])
    | some job =>
      have run : step lib s (.resume i) = s.perform i job := by rw [step, found]
      have spares : Spares lib s (.resume i) ↔ job.Spares lib s := by simp [Spares, found]
      rw [run, spares]
      exact kept_perform inv kept i (List.mem_of_getElem? found)

/-- In every run from an empty table: each claimed proof stays in the table until it
expires exactly as long as no call already in progress runs its statement against a
live claim. -/
theorem kept_iff_spares (lib : Library) (clock : Wall) (moves : List Move) :
    Throughout (step lib) (Kept lib) (start clock) moves ↔
      Along (step lib) (Spares lib) (start clock) moves := by
  have empty : Kept lib (start clock) := by simp [Kept, start]
  have keep : ∀ s m, Inv lib s → Inv lib (step lib s m) := fun _ m inv => inv_step inv m
  exact throughout_iff_along keep (fun _ m inv kept => kept_step inv kept m) (inv_start clock)
    empty moves

end Claims

section Sample

def hourProof (hour : Nat) : UtcProof := ⟨sampleUntil (utcAt (january hour)), rfl⟩

def staleGet : List Move :=
  [.call (.save (hourProof 13)), .resume 0, .tick (january 14), .call (.get sampleTask.str),
   .resume 0, .resume 0, .call (.save (hourProof 15)), .resume 1, .resume 0]

noncomputable def hourRow (hour : Nat) : Row :=
  ⟨jsonText ((hourProof hour).val.dump), isoformat (utcAt (january hour))⟩

theorem rowOf_hourProof (hour : Nat) :
    rowOf textLibrary (hourProof hour).val = some (hourRow hour) := by
  rw [rowOf, hourProof, textLibrary_dumpJson (sampleUntil_scalar _)]
  rfl

/-- The renewed proof is claimed and live, and its row is gone. -/
theorem staleGet_loses :
    ∃ s, staleGet.foldl (step textLibrary) (start noon.wall) = s ∧ hourProof 15 ∈ s.claims ∧
      s.Live (hourProof 15) ∧ Dict.get s.table (hourProof 15).taskId = none ∧
      ¬ Throughout (step textLibrary) (Kept textLibrary) (start noon.wall) staleGet := by
  have later : noon.wall.micros ≤ (january 14).micros := by decide
  have expired : expiredRow (hourRow 13) (january 14) = true := by
    rw [expiredRow, hourRow, rowExpiry_isoformat rfl]
    decide
  have found : Dict.get (Dict.set Dict.empty (hourProof 13).taskId (hourRow 13)) sampleTask.str =
      some (hourRow 13) := Dict.get_set_self _ _ _
  have ended : staleGet.foldl (step textLibrary) (start noon.wall) =
      ⟨delete (Dict.set (Dict.set Dict.empty (hourProof 13).taskId (hourRow 13))
        (hourProof 15).taskId (hourRow 15)) sampleTask.str, january 14, [], [hourProof 15]⟩ := by
    simp [staleGet, step, State.begin, rowOf_hourProof, start, State.spawn, State.perform,
      State.finish, State.proceed, later, found, expired]
    rfl
  have live : ((january 14).micros : Int) ≤ (utcAt (january 15)).instant := by decide
  have gone : ∀ table : SQLiteProofStore, Dict.get (delete table sampleTask.str)
      (hourProof 15).taskId = none := fun table => Dict.get_erase_self table _
  refine ⟨_, ended, by simp, live, gone _, ?_⟩
  intro kept
  have final := kept.final
  rw [ended] at final
  obtain ⟨row, _, present⟩ := final (hourProof 15) (by simp) live
  rw [gone] at present
  simp at present

end Sample

end AgentTrust.StoreRaces
