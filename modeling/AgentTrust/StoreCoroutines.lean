import AgentTrust.Coroutines
import AgentTrust.StoreHistory

/-! `InMemoryProofStore` on an event loop. Its coroutines and its garbage collection task take
the lock only around code without an await, so no coroutine ever waits for it: each call and
each cleanup cycle takes effect at once, in the order in which the event loop runs them. -/

namespace AgentTrust.StoreCoroutines

open PyText PyDateTime Gregorian OrderedDict PyValue Models Storage StoreRefinement StoreHistory
  WriteHistory AsyncLock Coroutines
open Coroutines.Code (locked Ends ends_done ends_locked ends_bind)

section Code

abbrev StoreCode (α : Type) := Code InMemoryProofStore α

def save (proof : StoredProof) : StoreCode Result :=
  locked (InMemoryProofStore.save · proof) fun _ => .done (.ok none)

def delete (taskId : Text) : StoreCode Result :=
  locked (InMemoryProofStore.delete · taskId) fun _ => .done (.ok none)

def get (taskId : Text) (now : Wall) : StoreCode Result :=
  locked id fun store =>
    match Dict.get store taskId with
    | none => .done (.ok none)
    | some proof =>
      match before proof.expiresAt (utcAt now) with
      | .error e => .done (.error ⟨.storageError, msg "Failed to retrieve proof: " ++ e.text⟩)
      | .ok true => (delete taskId).bind fun _ => .done (.error (expired taskId proof.expiresAt))
      | .ok false => .done (.ok (some proof))

def list : StoreCode (List Text) := locked id fun store => .done (InMemoryProofStore.list store)

/-- The loop over the ids; what a `get` raises is caught. -/
def checkAll (readings : Text → Wall) : List Text → StoreCode Unit
  | [] => .done ()
  | taskId :: taskIds => (get taskId (readings taskId)).bind fun _ => checkAll readings taskIds

/-- One cycle of `garbage_collect`, from the end of its sleep to the next. Each `get` reads the
clock for itself. -/
def garbageCollect (readings : Text → Wall) : StoreCode Unit := list.bind (checkAll readings)

end Code

section Loop

inductive Party where
  | call (i : Nat)
  | gc (i : Nat)
  deriving DecidableEq

inductive Request where
  | save (proof : StoredProof)
  | get (taskId : Text)
  | delete (taskId : Text)

def Request.op : Request → Op
  | .save proof => .save proof
  | .get taskId => .get taskId
  | .delete taskId => .delete taskId

def Request.code (now : Wall) : Request → StoreCode Result
  | .save proof => StoreCoroutines.save proof
  | .get taskId => StoreCoroutines.get taskId now
  | .delete taskId => StoreCoroutines.delete taskId

structure Call where
  op : Op × Wall
  stopped : Stopped InMemoryProofStore Result

inductive GcPhase where
  | created
  | sleeping
  | cleaning (next : StoreCode Unit)
  | ended

structure GcTask where
  phase : GcPhase
  /-- `cancel()` was called on the task. -/
  cancelled : Bool

/-- The store, the coroutines that were started, and the operations in the order in which they
were run. -/
structure State where
  shared : Shared Party InMemoryProofStore
  calls : List Call
  gcTasks : List GcTask
  gcTask : Option Nat
  log : List (Op × Wall)

def start : State := ⟨⟨Dict.empty, .free⟩, [], [], none, []⟩

inductive Move where
  | call (request : Request) (now : Wall)
  /-- Run a call that waits for the lock. -/
  | resume (i : Nat)
  /-- Run a garbage collection task. -/
  | runGc (i : Nat) (readings : Text → Wall)
  | stop

def GcTask.done (task : GcTask) : Bool :=
  match task.phase with
  | .ended => true
  | _ => false

def lookups (readings : Text → Wall) (taskIds : List Text) : List (Op × Wall) :=
  taskIds.map fun taskId => (.get taskId, readings taskId)

namespace State

def Alive (s : State) (i : Nat) : Prop := ∃ task, s.gcTasks[i]? = some task ∧ task.done = false

def running (s : State) : Option (Nat × GcTask) :=
  match s.gcTask with
  | none => none
  | some i => (s.gcTasks[i]?.filter fun task => !task.done).map fun task => (i, task)

def ensureGcTask (s : State) : State :=
  if s.running.isSome then s
  else { s with gcTasks := s.gcTasks ++ [⟨.created, false⟩], gcTask := some s.gcTasks.length }

def call (s : State) (request : Request) (now : Wall) : State :=
  let s := match request with
    | .save _ => s.ensureGcTask
    | _ => s
  let ran := (request.code now).run (.call s.calls.length) s.shared
  { s with
    shared := ran.2
    calls := s.calls ++ [⟨(request.op, now), ran.1⟩]
    log := s.log ++ [(request.op, now)] }

def resume (s : State) (i : Nat) : State :=
  match s.calls[i]?, s.shared.lock.waiters.get (.call i) with
  | some ⟨op, .waiting next⟩, some .done =>
    let ran := next.run (.call i) { s.shared with lock := s.shared.lock.proceed (.call i) }
    { s with shared := ran.2, calls := s.calls.set i ⟨op, ran.1⟩ }
  | _, _ => s

def setGc (s : State) (i : Nat) (phase : GcPhase) (cancelled : Bool) : State :=
  { s with gcTasks := s.gcTasks.set i ⟨phase, cancelled⟩ }

/-- Run the cleanup code of a garbage collection task, up to its next sleep. -/
def clean (s : State) (i : Nat) (code : StoreCode Unit) : State :=
  match code.run (.gc i) s.shared with
  | (.finished _, shared) => { s with shared := shared }.setGc i .sleeping false
  | (.waiting next, shared) => { s with shared := shared }.setGc i (.cleaning next) false

def runGc (s : State) (i : Nat) (readings : Text → Wall) : State :=
  match s.gcTasks[i]? with
  | some ⟨.created, false⟩ => s.setGc i .sleeping false
  | some ⟨.sleeping, false⟩ =>
    { s with log := s.log ++ lookups readings (InMemoryProofStore.list s.shared.state) }.clean i
      (garbageCollect readings)
  | some ⟨.cleaning next, false⟩ =>
    if s.shared.lock.waiters.get (.gc i) = some .done then
      { s with shared.lock := s.shared.lock.proceed (.gc i) }.clean i next
    else s
  | some ⟨.cleaning _, true⟩ =>
    { s with shared.lock := s.shared.lock.abandon (.gc i) }.setGc i .ended true
  | some ⟨_, true⟩ => s.setGc i .ended true
  | _ => s

/-- `stop` cancels the task; it then awaits it. -/
def stop (s : State) : State :=
  match s.running with
  | none => s
  | some (i, task) => s.setGc i task.phase true

end State

def step (s : State) : Move → State
  | .call request now => s.call request now
  | .resume i => s.resume i
  | .runGc i readings => s.runGc i readings
  | .stop => s.stop

def reached (moves : List Move) : State := moves.foldl step start

end Loop

section Atomicity

variable {ι : Type} [DecidableEq ι]

theorem save_ends (proof : StoredProof) (store : InMemoryProofStore) :
    Ends ι (save proof) store (.ok none) (InMemoryProofStore.save store proof) :=
  ends_locked (ends_done _ _)

theorem delete_ends (taskId : Text) (store : InMemoryProofStore) :
    Ends ι (delete taskId) store (.ok none) (InMemoryProofStore.delete store taskId) :=
  ends_locked (ends_done _ _)

theorem get_ends (taskId : Text) (now : Wall) (store : InMemoryProofStore) :
    Ends ι (get taskId now) store (InMemoryProofStore.get store taskId now).1
      (InMemoryProofStore.get store taskId now).2 := by
  refine ends_locked ?_
  unfold InMemoryProofStore.get
  dsimp only [id]
  cases Dict.get store taskId with
  | none => exact ends_done _ _
  | some proof =>
    dsimp only
    cases before proof.expiresAt (utcAt now) with
    | error e => exact ends_done _ _
    | ok late =>
      cases late with
      | true => exact ends_bind (delete_ends taskId store) (ends_done _ _)
      | false => exact ends_done _ _

theorem checkAll_ends (readings : Text → Wall) (taskIds : List Text) (store : InMemoryProofStore) :
    Ends ι (checkAll readings taskIds) store ()
      ((lookups readings taskIds).foldl (fun store op => (inMemoryStep store op).2) store) := by
  induction taskIds generalizing store with
  | nil => exact ends_done _ _
  | cons taskId taskIds ih => exact ends_bind (get_ends taskId (readings taskId) store) (ih _)

theorem garbageCollect_ends (readings : Text → Wall) (store : InMemoryProofStore) :
    Ends ι (garbageCollect readings) store ()
      ((lookups readings (InMemoryProofStore.list store)).foldl
        (fun store op => (inMemoryStep store op).2) store) :=
  ends_bind (ends_locked (ends_done _ _)) (checkAll_ends readings _ store)

theorem request_ends (request : Request) (now : Wall) (store : InMemoryProofStore) :
    Ends ι (request.code now) store (inMemoryStep store (request.op, now)).1
      (inMemoryStep store (request.op, now)).2 := by
  cases request with
  | save proof => exact save_ends proof store
  | get taskId => exact get_ends taskId now store
  | delete taskId => exact delete_ends taskId store

end Atomicity

section Runs

/-- The lock is free, the store is that of the logged operations one after the other, every
call has given its result there, and only the task `_gc_task` may be alive. -/
structure Inv (s : State) : Prop where
  shared : s.shared = ⟨after s.log, .free⟩
  calls : ∀ call ∈ s.calls, ∃ earlier later, s.log = earlier ++ call.op :: later ∧
    call.stopped = .finished (inMemoryStep (after earlier) call.op).1
  alive : ∀ i task, s.gcTasks[i]? = some task → task.done = false →
    s.gcTask = some i ∧ ∀ next, task.phase ≠ .cleaning next

variable {s : State}

theorem inv_start : Inv start where
  shared := rfl
  calls := by simp [start]
  alive := by simp [start]

theorem after_append (log ops : List (Op × Wall)) : after (log ++ ops) =
    ops.foldl (fun store op => (inMemoryStep store op).2) (after log) := List.foldl_append

theorem running_eq_some {i : Nat} {task : GcTask} : s.running = some (i, task) ↔
    s.gcTask = some i ∧ s.gcTasks[i]? = some task ∧ task.done = false := by
  unfold State.running
  cases s.gcTask with
  | none => simp
  | some j =>
    simp only [Option.map_eq_some_iff, Option.filter_eq_some_iff, Prod.mk.injEq,
      Option.some.injEq]
    constructor
    · rintro ⟨t, ⟨at_, undone⟩, rfl, rfl⟩
      exact ⟨rfl, at_, by simpa using undone⟩
    · rintro ⟨rfl, at_, undone⟩
      exact ⟨task, ⟨at_, by simp [undone]⟩, rfl, rfl⟩

theorem not_alive_of_running (inv : Inv s) (idle : s.running = none) (i : Nat) : ¬ s.Alive i := by
  rintro ⟨task, at_, undone⟩
  have running := running_eq_some.mpr ⟨(inv.alive i task at_ undone).1, at_, undone⟩
  simp [idle] at running

theorem inv_ensureGcTask (inv : Inv s) : Inv s.ensureGcTask := by
  unfold State.ensureGcTask
  split
  · exact inv
  · next idle =>
    refine ⟨inv.shared, inv.calls, fun i task at_ undone => ?_⟩
    have old : s.gcTasks[i]? ≠ some task := fun before_ =>
      not_alive_of_running inv (by simpa using idle) i ⟨task, before_, undone⟩
    have new : i = s.gcTasks.length ∧ task = ⟨.created, false⟩ := by
      rcases Nat.lt_trichotomy i s.gcTasks.length with inside | same | outside
      · rw [List.getElem?_append_left inside] at at_
        exact absurd at_ old
      · rw [same, List.getElem?_concat_length] at at_
        exact ⟨same, (Option.some.inj at_).symm⟩
      · rw [List.getElem?_eq_none (by simp; omega)] at at_
        simp at at_
    exact ⟨by rw [new.1], by simp [new.2]⟩

theorem inv_extend (inv : Inv s) (ops : List (Op × Wall)) :
    Inv { s with shared := ⟨after (s.log ++ ops), .free⟩, log := s.log ++ ops } where
  shared := rfl
  calls := by
    intro call member
    obtain ⟨earlier, later, split, finished⟩ := inv.calls call member
    exact ⟨earlier, later ++ ops, by simp [split], finished⟩
  alive := inv.alive

theorem getElem?_setGc {i : Nat} {task : GcTask} (at_ : s.gcTasks[i]? = some task)
    (phase : GcPhase) (cancelled : Bool) (j : Nat) : (s.setGc i phase cancelled).gcTasks[j]? =
      if i = j then some ⟨phase, cancelled⟩ else s.gcTasks[j]? := by
  have inside := (List.getElem?_eq_some_iff.mp at_).1
  by_cases same : i = j
  · simp [State.setGc, ← same, inside]
  · simp [State.setGc, same]

theorem inv_setGc (inv : Inv s) {i : Nat} {task : GcTask} (at_ : s.gcTasks[i]? = some task)
    {phase : GcPhase} {cancelled : Bool} (keeps : (⟨phase, cancelled⟩ : GcTask).done = false →
      task.done = false ∧ ∀ next, phase ≠ .cleaning next) : Inv (s.setGc i phase cancelled) := by
  refine ⟨inv.shared, inv.calls, fun j other at' undone => ?_⟩
  rw [getElem?_setGc at_] at at'
  split at at'
  · next same =>
    rw [← Option.some.inj at'] at undone ⊢
    exact ⟨same ▸ (inv.alive i task at_ (keeps undone).1).1, (keeps undone).2⟩
  · exact inv.alive j other at' undone

theorem inv_call (inv : Inv s) (request : Request) (now : Wall) : Inv (s.call request now) := by
  have called : ∀ t, Inv t → Inv { t with
      shared := ((request.code now).run (.call t.calls.length) t.shared).2
      calls := t.calls ++ [⟨(request.op, now),
        ((request.code now).run (.call t.calls.length) t.shared).1⟩]
      log := t.log ++ [(request.op, now)] } := by
    intro t inv
    have ran := request_ends request now (after t.log) (Party.call t.calls.length)
    have extended := inv_extend inv [(request.op, now)]
    rw [inv.shared, ran]
    refine ⟨by rw [after_append]; rfl, fun call member => ?_, extended.alive⟩
    rcases List.mem_append.mp member with old | new
    · exact extended.calls call old
    · rw [List.mem_singleton.mp new]
      exact ⟨t.log, [], rfl, rfl⟩
  unfold State.call
  cases request with
  | save proof => exact called _ (inv_ensureGcTask inv)
  | get taskId => exact called _ inv
  | delete taskId => exact called _ inv

theorem inv_resume (inv : Inv s) (i : Nat) : Inv (s.resume i) := by
  unfold State.resume
  split
  · next op next at_ woken =>
    obtain ⟨earlier, later, _, finished⟩ := inv.calls _ (List.mem_of_getElem? at_)
    simp at finished
  · exact inv

theorem inv_runGc (inv : Inv s) (i : Nat) (readings : Text → Wall) : Inv (s.runGc i readings) := by
  unfold State.runGc
  split
  · next at_ => exact inv_setGc inv at_ fun _ => ⟨rfl, by simp⟩
  · next at_ =>
    have extended := inv_extend inv (lookups readings (InMemoryProofStore.list s.shared.state))
    have ran := garbageCollect_ends readings (after s.log) (Party.gc i)
    unfold State.clean
    dsimp only
    rw [after_append] at extended
    rw [inv.shared] at extended ⊢
    rw [ran]
    exact inv_setGc extended at_ fun _ => ⟨rfl, by simp⟩
  · next next at_ => exact absurd rfl ((inv.alive i _ at_ rfl).2 next)
  · next next at_ => exact absurd rfl ((inv.alive i _ at_ rfl).2 next)
  · next at_ => exact inv_setGc inv at_ fun undone => by simp [GcTask.done] at undone
  · exact inv

theorem inv_stop (inv : Inv s) : Inv s.stop := by
  unfold State.stop
  split
  · exact inv
  · next i task running =>
    obtain ⟨_, at_, undone⟩ := running_eq_some.mp running
    exact inv_setGc inv at_ fun _ => ⟨undone, (inv.alive i task at_ undone).2⟩

theorem inv_step (inv : Inv s) (m : Move) : Inv (step s m) := by
  cases m with
  | call request now => exact inv_call inv request now
  | resume i => exact inv_resume inv i
  | runGc i readings => exact inv_runGc inv i readings
  | stop => exact inv_stop inv

theorem reached_append (moves later : List Move) :
    reached (moves ++ later) = later.foldl step (reached moves) := List.foldl_append

theorem inv_foldl (inv : Inv s) (moves : List Move) : Inv (moves.foldl step s) := by
  induction moves generalizing s with
  | nil => exact inv
  | cons m moves ih => exact ih (inv_step inv m)

theorem inv_reached (moves : List Move) : Inv (reached moves) := inv_foldl inv_start moves

end Runs

section Order

def Move.op : Move → Option (Op × Wall)
  | .call request now => some (request.op, now)
  | _ => none

def writes : Op × Wall → Bool
  | (.save _, _) => true
  | (.delete _, _) => true
  | _ => false

/-- What a move adds to the operations run: its own one, or the lookups of a cleanup cycle. -/
def Adds (m : Move) (ops : List (Op × Wall)) : Prop :=
  ops = m.op.toList ∨ ∃ i readings taskIds, m = .runGc i readings ∧ ops = lookups readings taskIds

variable {s : State}

theorem clean_log (s : State) (i : Nat) (code : StoreCode Unit) : (s.clean i code).log = s.log := by
  unfold State.clean
  split <;> rfl

theorem step_log (s : State) (m : Move) : ∃ ops, (step s m).log = s.log ++ ops ∧ Adds m ops := by
  cases m with
  | call request now =>
    refine ⟨[(request.op, now)], ?_, .inl rfl⟩
    unfold step State.call State.ensureGcTask
    cases request with
    | save proof => dsimp only; split <;> rfl
    | get taskId => rfl
    | delete taskId => rfl
  | resume i =>
    refine ⟨[], ?_, .inl rfl⟩
    unfold step State.resume
    dsimp only
    split <;> simp
  | runGc i readings =>
    unfold step State.runGc
    dsimp only
    split
    · exact ⟨[], by simp [State.setGc], .inl rfl⟩
    · exact ⟨_, clean_log _ i _, .inr ⟨i, readings, _, rfl, rfl⟩⟩
    · split
      · exact ⟨[], by simp [clean_log], .inl rfl⟩
      · exact ⟨[], by simp, .inl rfl⟩
    · exact ⟨[], by simp [State.setGc], .inl rfl⟩
    · exact ⟨[], by simp [State.setGc], .inl rfl⟩
    · exact ⟨[], by simp, .inl rfl⟩
  | stop =>
    refine ⟨[], ?_, .inl rfl⟩
    unfold step State.stop
    dsimp only
    split <;> simp [State.setGc]

theorem Adds.writes {m : Move} {ops : List (Op × Wall)} (adds : Adds m ops) :
    ops.filter writes = m.op.toList.filter writes := by
  rcases adds with rfl | ⟨i, readings, taskIds, rfl, rfl⟩
  · rfl
  · simp [Move.op, lookups, StoreCoroutines.writes]

theorem log_writes (moves : List Move) :
    (reached moves).log.filter writes = (moves.filterMap Move.op).filter writes := by
  induction moves using List.reverseRecOn with
  | nil => rfl
  | append_singleton moves m ih =>
    obtain ⟨ops, logged, adds⟩ := step_log (reached moves) m
    have last : (reached (moves ++ [m])).log = (reached moves).log ++ ops := by
      rw [reached_append]
      exact logged
    have own : [m].filterMap Move.op = m.op.toList := by
      cases op : m.op <;> simp [op]
    rw [last, List.filter_append, List.filterMap_append, List.filter_append, ih, own, adds.writes]

/-- In every run of the event loop the lock is free and the store is that of the operations
one after the other; every call has given the result that it gives in that order, and the
order of the writes is that of the calls. -/
theorem calls_atomic (moves : List Move) :
    (reached moves).shared = ⟨after (reached moves).log, .free⟩ ∧
    (∀ call ∈ (reached moves).calls, ∃ earlier later,
      (reached moves).log = earlier ++ call.op :: later ∧
        call.stopped = .finished (inMemoryStep (after earlier) call.op).1) ∧
    (reached moves).log.filter writes = (moves.filterMap Move.op).filter writes :=
  ⟨(inv_reached moves).shared, (inv_reached moves).calls, log_writes moves⟩

/-- The move does not replace the proof, and does not look at it after its expiry. -/
def Move.Spares (p : StoredProof) : Move → Prop
  | .call (.save q) _ => q.proofData.task.taskId ≠ p.proofData.task.taskId
  | .call (.delete taskId) _ => taskId ≠ p.proofData.task.taskId
  | .call (.get taskId) now => taskId = p.proofData.task.taskId →
    (now.micros : Int) ≤ p.expiresAt.instant
  | .runGc _ readings => ((readings p.proofData.task.taskId).micros : Int) ≤ p.expiresAt.instant
  | _ => True

theorem Adds.passes {m : Move} {ops : List (Op × Wall)} (adds : Adds m ops) {p : StoredProof}
    (spares : m.Spares p) : ∀ op ∈ ops, (effect p.proofData.task.taskId op).Passes p := by
  have live : ∀ now : Wall, (now.micros : Int) ≤ p.expiresAt.instant → late now p = false :=
    fun now live => by simp [late, not_lt.mpr live]
  intro op member
  rcases adds with rfl | ⟨i, readings, taskIds, rfl, rfl⟩
  · cases m with
    | call request now =>
      obtain rfl := List.mem_singleton.mp member
      cases request with
      | save q =>
        have other : q.proofData.task.taskId ≠ p.proofData.task.taskId := spares
        simp [effect, Request.op, Effect.Passes, other]
      | delete taskId =>
        have other : taskId ≠ p.proofData.task.taskId := spares
        simp [effect, Request.op, Effect.Passes, other]
      | get taskId =>
        by_cases same : taskId = p.proofData.task.taskId
        · simp [effect, Request.op, Effect.Passes, same, live now (spares same)]
        · simp [effect, Request.op, Effect.Passes, same]
    | resume i => simp [Move.op] at member
    | runGc i readings => simp [Move.op] at member
    | stop => simp [Move.op] at member
  · obtain ⟨taskId, _, rfl⟩ := List.mem_map.mp member
    by_cases same : taskId = p.proofData.task.taskId
    · have kept : late (readings taskId) p = false := live _ (same ▸ spares)
      simp [effect, Effect.Passes, kept]
    · simp [effect, Effect.Passes, same]

/-- Whatever coroutines and cleanup cycles are interleaved after it, a saved proof stays in the
store until it is replaced, deleted, or looked at after its expiry. -/
theorem live_proof_kept (earlier later : List Move) (p : StoredProof) (now : Wall)
    (spares : ∀ m ∈ later, m.Spares p) :
    Dict.get (reached (earlier ++ .call (.save p) now :: later)).shared.state
      p.proofData.task.taskId = some p := by
  have kept : ∃ log ops, (reached (earlier ++ .call (.save p) now :: later)).log =
      log ++ (.save p, now) :: ops ∧
        ∀ op ∈ ops, (effect p.proofData.task.taskId op).Passes p := by
    induction later using List.reverseRecOn with
    | nil =>
      obtain ⟨ops, logged, own | ⟨i, readings, taskIds, other, _⟩⟩ :=
        step_log (reached earlier) (.call (.save p) now)
      · refine ⟨(reached earlier).log, [], ?_, by simp⟩
        obtain rfl : ops = [(.save p, now)] := own
        rw [reached_append]
        exact logged
      · simp at other
    | append_singleton later m ih =>
      obtain ⟨log, ops, logged, passes⟩ := ih fun m inside => spares m (by simp [inside])
      obtain ⟨more, added, adds⟩ := step_log (reached (earlier ++ .call (.save p) now :: later)) m
      refine ⟨log, ops ++ more, ?_, fun op inside => ?_⟩
      · rw [← List.cons_append, ← List.append_assoc, reached_append]
        refine added.trans ?_
        rw [logged, List.append_assoc, List.cons_append]
      · rcases List.mem_append.mp inside with old | new
        · exact passes op old
        · exact adds.passes (spares m (by simp)) op new
  obtain ⟨log, ops, logged, passes⟩ := kept
  have put : effect p.proofData.task.taskId (.save p, now) = .put p :=
    effect_eq_put_iff.mpr ⟨rfl, rfl⟩
  rw [(inv_reached _).shared, logged, get_after]
  exact cellAfter_eq_some_iff.mpr ⟨ops, ⟨log, _, rfl, put⟩, passes⟩

end Order

section Collection

variable {s : State} {i : Nat} {old : GcTask}

structure Follows (m : Move) (i : Nat) (old new : GcTask) : Prop where
  done : old.done = true → new.done = true
  cancelled : old.cancelled = true → new.cancelled = true
  run : (∃ readings, m = .runGc i readings) → old.cancelled = true → new.done = true
  asked : new.cancelled = true → old.cancelled = true ∨ m = .stop
  obeyed : new.done = true → old.done = true ∨ old.cancelled = true

theorem follows_same {m : Move} (other : (∃ readings, m = .runGc i readings) →
    old.cancelled = true → old.done = true) : Follows m i old old :=
  ⟨id, id, other, .inl, .inl⟩

theorem clean_task (code : StoreCode Unit) (at_ : s.gcTasks[i]? = some old) :
    ∃ phase, (∀ j, (s.clean i code).gcTasks[j]? =
      if i = j then some ⟨phase, false⟩ else s.gcTasks[j]?) ∧
        (⟨phase, false⟩ : GcTask).done = false := by
  unfold State.clean
  split
  · exact ⟨.sleeping, getElem?_setGc at_ _ _, rfl⟩
  · next next shared ran => exact ⟨.cleaning next, getElem?_setGc at_ _ _, rfl⟩

theorem runGc_task (at_ : s.gcTasks[i]? = some old) (j : Nat) (readings : Text → Wall) :
    ∃ new, (s.runGc j readings).gcTasks[i]? = some new ∧ Follows (.runGc j readings) i old new := by
  by_cases same : j = i
  · obtain rfl := same
    obtain ⟨phase, cancelled⟩ := old
    have ended : ∀ t : State, t.gcTasks[j]? = some ⟨phase, true⟩ →
        ∃ new, (t.setGc j .ended true).gcTasks[j]? = some new ∧
          Follows (.runGc j readings) j ⟨phase, true⟩ new := by
      intro t at_
      refine ⟨⟨.ended, true⟩, by rw [getElem?_setGc at_, if_pos rfl], ?_⟩
      exact ⟨fun _ => rfl, fun _ => rfl, fun _ _ => rfl, fun _ => .inl rfl, fun _ => .inr rfl⟩
    have slept : ∀ {new : GcTask}, new.cancelled = false → new.done = false →
        (⟨phase, false⟩ : GcTask).done = false →
          Follows (.runGc j readings) j ⟨phase, false⟩ new := fun kept undone undone' =>
      ⟨by simp [undone'], by simp, by simp, by simp [kept], by simp [undone]⟩
    unfold State.runGc
    rw [at_]
    cases cancelled with
    | true => cases phase <;> exact ended _ at_
    | false =>
      cases phase with
      | created =>
        exact ⟨⟨.sleeping, false⟩, by rw [getElem?_setGc at_, if_pos rfl], slept rfl rfl rfl⟩
      | sleeping =>
        obtain ⟨phase, gcTasks, undone⟩ := clean_task (s := { s with
          log := s.log ++ lookups readings (InMemoryProofStore.list s.shared.state) })
          (garbageCollect readings) at_
        exact ⟨⟨phase, false⟩, by rw [gcTasks, if_pos rfl], slept rfl undone rfl⟩
      | cleaning next =>
        dsimp only
        split
        · obtain ⟨phase, gcTasks, undone⟩ := clean_task (s := { s with
            shared.lock := s.shared.lock.proceed (.gc j) }) next at_
          exact ⟨⟨phase, false⟩, by rw [gcTasks, if_pos rfl], slept rfl undone rfl⟩
        · exact ⟨_, at_, slept rfl rfl rfl⟩
      | ended => exact ⟨_, at_, follows_same (by simp)⟩
  · refine ⟨old, ?_, follows_same (by simp [same])⟩
    have cleaned : ∀ (t : State) (task : GcTask) (code : StoreCode Unit), t.gcTasks = s.gcTasks →
        s.gcTasks[j]? = some task → (t.clean j code).gcTasks[i]? = some old := by
      intro t task code kept at'
      obtain ⟨phase, gcTasks, _⟩ := clean_task code (kept ▸ at')
      rw [gcTasks, if_neg same, kept, at_]
    unfold State.runGc
    split
    · next at' => rw [getElem?_setGc at', if_neg same, at_]
    · next at' => exact cleaned _ _ _ rfl at'
    · next at' =>
      split
      · exact cleaned _ _ _ rfl at'
      · exact at_
    · next at' =>
      refine (getElem?_setGc at' _ _ i).trans ?_
      rw [if_neg same, at_]
    · next at' => rw [getElem?_setGc at', if_neg same, at_]
    · exact at_

theorem step_task (at_ : s.gcTasks[i]? = some old) (m : Move) :
    ∃ new, (step s m).gcTasks[i]? = some new ∧ Follows m i old new := by
  cases m with
  | call request now =>
    have kept : (s.ensureGcTask).gcTasks[i]? = some old := by
      unfold State.ensureGcTask
      split
      · exact at_
      · exact (List.getElem?_append_left (List.getElem?_eq_some_iff.mp at_).1).trans at_
    refine ⟨old, ?_, follows_same (by simp)⟩
    unfold step State.call
    cases request with
    | save proof => exact kept
    | get taskId => exact at_
    | delete taskId => exact at_
  | resume j =>
    refine ⟨old, ?_, follows_same (by simp)⟩
    unfold step State.resume
    dsimp only
    split <;> exact at_
  | runGc j readings => exact runGc_task at_ j readings
  | stop =>
    unfold step State.stop
    dsimp only
    split
    · exact ⟨old, at_, follows_same (by simp)⟩
    · next k task running =>
      obtain ⟨_, at', undone⟩ := running_eq_some.mp running
      rw [getElem?_setGc at']
      split
      · next same =>
        obtain rfl : task = old := Option.some.inj (at'.symm.trans (same ▸ at_))
        exact ⟨_, rfl, ⟨fun h => h, fun _ => rfl, by simp, fun _ => .inr rfl, .inl⟩⟩
      · exact ⟨old, at_, follows_same (by simp)⟩

def Move.Saves : Move → Prop
  | .call (.save _) _ => True
  | _ => False

theorem length_clean (s : State) (i : Nat) (code : StoreCode Unit) :
    (s.clean i code).gcTasks.length = s.gcTasks.length := by
  unfold State.clean
  split <;> simp [State.setGc]

theorem length_step {m : Move} (saves : ¬ m.Saves) :
    (step s m).gcTasks.length = s.gcTasks.length := by
  cases m with
  | call request now =>
    cases request with
    | save proof => exact absurd trivial saves
    | get taskId => rfl
    | delete taskId => rfl
  | resume i =>
    unfold step State.resume
    dsimp only
    split <;> rfl
  | runGc i readings =>
    unfold step State.runGc
    dsimp only
    split
    · simp [State.setGc]
    · exact length_clean _ i _
    · split
      · exact length_clean _ i _
      · rfl
    · simp [State.setGc]
    · simp [State.setGc]
    · rfl
  | stop =>
    unfold step State.stop
    dsimp only
    split <;> simp [State.setGc]

theorem foldl_task (at_ : s.gcTasks[i]? = some old) (moves : List Move) :
    ∃ new, (moves.foldl step s).gcTasks[i]? = some new ∧ (old.done = true → new.done = true) ∧
      (old.cancelled = true → new.cancelled = true ∧
        ((∃ readings, .runGc i readings ∈ moves) → new.done = true)) := by
  induction moves generalizing s old with
  | nil => exact ⟨old, at_, id, fun asked => ⟨asked, by simp⟩⟩
  | cons m moves ih =>
    obtain ⟨next, at_, follows⟩ := step_task at_ m
    obtain ⟨new, at_, done, cancelled⟩ := ih at_
    refine ⟨new, at_, fun past => done (follows.done past), fun asked => ?_⟩
    obtain ⟨kept, run⟩ := cancelled (follows.cancelled asked)
    refine ⟨kept, fun ⟨readings, member⟩ => ?_⟩
    rcases List.mem_cons.mp member with rfl | later
    · exact done (follows.run ⟨readings, rfl⟩ asked)
    · exact run ⟨readings, later⟩

theorem length_foldl {moves : List Move} (saves : ∀ m ∈ moves, ¬ m.Saves) :
    (moves.foldl step s).gcTasks.length = s.gcTasks.length := by
  induction moves generalizing s with
  | nil => rfl
  | cons m moves ih =>
    rw [List.foldl_cons, ih fun m inside => saves m (by simp [inside])]
    exact length_step (saves m (by simp))

theorem alive_unique (inv : Inv s) {i j : Nat} (first : s.Alive i) (second : s.Alive j) :
    i = j := by
  obtain ⟨t, at_, undone⟩ := first
  obtain ⟨u, at', undone'⟩ := second
  have same := (inv.alive i t at_ undone).1.symm.trans (inv.alive j u at' undone').1
  exact Option.some.inj same

theorem stop_cancels (inv : Inv s) (alive : s.Alive i) :
    ∃ task, s.stop.gcTasks[i]? = some task ∧ task.cancelled = true := by
  obtain ⟨task, at_, undone⟩ := alive
  have running := running_eq_some.mpr ⟨(inv.alive i task at_ undone).1, at_, undone⟩
  unfold State.stop
  rw [running]
  exact ⟨_, by rw [getElem?_setGc at_, if_pos rfl], rfl⟩

def Untouched (s : State) : Prop :=
  ∀ (i : Nat) (task : GcTask), s.gcTasks[i]? = some task →
    task.cancelled = false ∧ task.done = false

theorem save_tasks (s : State) (p : StoredProof) (now : Wall) :
    0 < (step s (.call (.save p) now)).gcTasks.length ∧
      ∀ (i : Nat) (task : GcTask), s.gcTasks[i]? = none →
        (step s (.call (.save p) now)).gcTasks[i]? = some task → task = ⟨.created, false⟩ := by
  change 0 < s.ensureGcTask.gcTasks.length ∧ ∀ (i : Nat) (task : GcTask),
    s.gcTasks[i]? = none → s.ensureGcTask.gcTasks[i]? = some task → _
  unfold State.ensureGcTask
  split
  · next running =>
    obtain ⟨⟨i, task⟩, running⟩ := Option.isSome_iff_exists.mp running
    have inside := (List.getElem?_eq_some_iff.mp (running_eq_some.mp running).2.1).1
    exact ⟨Nat.zero_lt_of_lt inside, fun j other absent present => by simp [absent] at present⟩
  · refine ⟨by simp, fun i task absent present => ?_⟩
    rw [List.getElem?_append_right (List.getElem?_eq_none_iff.mp absent)] at present
    exact List.mem_singleton.mp (List.mem_of_getElem? present)

theorem untouched_step (untouched : Untouched s) {m : Move} (asked : m ≠ .stop) :
    Untouched (step s m) := by
  intro i task at'
  cases at_ : s.gcTasks[i]? with
  | some old =>
    obtain ⟨new, at'', follows⟩ := step_task at_ m
    obtain rfl : task = new := Option.some.inj (at'.symm.trans at'')
    obtain ⟨uncancelled, undone⟩ := untouched i old at_
    constructor
    · by_contra cancelled
      rcases follows.asked (by simpa using cancelled) with old | stop
      · simp [uncancelled] at old
      · exact asked stop
    · by_contra done
      rcases follows.obeyed (by simpa using done) with old | old
      · simp [undone] at old
      · simp [uncancelled] at old
  | none =>
    by_cases saves : m.Saves
    · cases m with
      | call request now =>
        cases request with
        | save p =>
          rw [(save_tasks s p now).2 i task at_ at']
          exact ⟨rfl, rfl⟩
        | get taskId => exact saves.elim
        | delete taskId => exact saves.elim
      | _ => exact saves.elim
    · have outside := List.getElem?_eq_none_iff.mp at_
      rw [← length_step saves] at outside
      rw [List.getElem?_eq_none outside] at at'
      simp at at'

theorem untouched_reached {moves : List Move} (asked : Move.stop ∉ moves) :
    Untouched (reached moves) ∧
      ((∃ m ∈ moves, m.Saves) → 0 < (reached moves).gcTasks.length) := by
  induction moves using List.reverseRecOn with
  | nil => exact ⟨by simp [Untouched, reached, start], by simp⟩
  | append_singleton moves m ih =>
    obtain ⟨untouched, present⟩ := ih fun inside => asked (by simp [inside])
    have other : m ≠ .stop := fun same => asked (by simp [same])
    rw [reached_append]
    refine ⟨untouched_step untouched other, ?_⟩
    change _ → 0 < (step (reached moves) m).gcTasks.length
    rintro ⟨n, member, saves⟩
    rcases List.mem_append.mp member with old | new
    · have inside := present ⟨n, old, saves⟩
      obtain ⟨task, at_, _⟩ := step_task (List.getElem?_eq_getElem inside) m
      exact Nat.zero_lt_of_lt (List.getElem?_eq_some_iff.mp at_).1
    · obtain rfl := List.mem_singleton.mp new
      cases n with
      | call request now =>
        cases request with
        | save p => exact (save_tasks _ p now).1
        | get taskId => exact saves.elim
        | delete taskId => exact saves.elim
      | _ => exact saves.elim

/-- One garbage collection task at most is alive; one is from the first save on, as long as
`stop` is not called; and once `stop` was called and the event loop has run the task it
cancelled, none is alive until the next save. -/
theorem gc_tasks (moves : List Move) :
    (∀ i j, (reached moves).Alive i → (reached moves).Alive j → i = j) ∧
    (.stop ∉ moves → (∃ m ∈ moves, m.Saves) → ∃ i, (reached moves).Alive i) ∧
    ∀ later, (∀ m ∈ later, ¬ m.Saves) →
      (∀ i, (reached moves).Alive i → ∃ readings, .runGc i readings ∈ later) →
        ∀ i, ¬ (reached (moves ++ .stop :: later)).Alive i := by
  refine ⟨fun i j => alive_unique (inv_reached moves), fun asked saved => ?_, ?_⟩
  · obtain ⟨untouched, present⟩ := untouched_reached asked
    have first := List.getElem?_eq_getElem (present saved)
    exact ⟨0, _, first, (untouched 0 _ first).2⟩
  · rintro later saves run i ⟨task, at', undone⟩
    rw [reached_append] at at'
    have length : (later.foldl step (reached moves).stop).gcTasks.length =
        (reached moves).gcTasks.length :=
      (length_foldl saves).trans (length_step (m := .stop) id)
    have inside : i < (reached moves).gcTasks.length :=
      length ▸ (List.getElem?_eq_some_iff.mp at').1
    have at_ := List.getElem?_eq_getElem inside
    obtain ⟨stopped, atStop, follows⟩ := step_task at_ .stop
    obtain ⟨final, atEnd, done, cancelled⟩ := foldl_task atStop later
    obtain rfl : task = final := Option.some.inj (at'.symm.trans atEnd)
    by_cases past : ((reached moves).gcTasks[i]).done = true
    · simp [done (follows.done past)] at undone
    · have alive : (reached moves).Alive i := ⟨_, at_, by simpa using past⟩
      obtain ⟨asked, atAsked, stop⟩ := stop_cancels (inv_reached moves) alive
      obtain rfl : stopped = asked := Option.some.inj (atStop.symm.trans atAsked)
      simp [(cancelled stop).2 (run i alive)] at undone

end Collection

section Sample

open Exchange HonestAgent ExpiryAgreement

theorem sampleUntil_kept :
    Dict.get (reached ([.call (.get sampleTask.str) (january 12)] ++
      .call (.save (sampleUntil onePm)) (january 12) ::
        [.call (.get sampleTask.str) (january 13), .runGc 0 fun _ => january 12,
         .runGc 0 fun _ => january 13, .stop])).shared.state
      (sampleUntil onePm).proofData.task.taskId = some (sampleUntil onePm) := by
  refine live_proof_kept _ _ _ _ fun m member => ?_
  simp only [List.mem_cons, List.not_mem_nil, or_false] at member
  rcases member with rfl | rfl | rfl | rfl
  · exact fun _ => by decide
  · change ((january 12).micros : Int) ≤ onePm.instant
    decide
  · change ((january 13).micros : Int) ≤ onePm.instant
    decide
  · trivial

end Sample

end AgentTrust.StoreCoroutines
