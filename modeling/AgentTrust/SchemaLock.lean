import AgentTrust.AsyncLock
import AgentTrust.StoreFaults
import AgentTrust.Runs
import Mathlib.Algebra.Order.BigOperators.Group.List

/-! The SQLite store opened by any number of coroutines at once. `_ensure_schema` is taken
await by await: whatever is interleaved, raised or cancelled, the attempts to create the
schema follow one another, no other statement is executed before the last of them has been
committed, and nobody waits for ever. -/

namespace AgentTrust.SchemaLock

open OrderedDict AsyncLock StoreFaults Runs
open Function (update)

section Model

deriving instance DecidableEq for StoreFaults.Step

/-- The await at which a call of the store stands. -/
inductive Phase where
  /-- `async with self._schema_lock` -/
  | waiting
  /-- A step of the creation, and those that are left. -/
  | creating (step : Step) (left : List Step)
  /-- `await conn.close()`, after the creation or while an exception is passed on. -/
  | closing (created : Bool)
  /-- `aiosqlite.connect` in `_open` -/
  | connecting
  /-- The statement of the operation. -/
  | executing
  | finished
  | failed
  deriving DecidableEq

/-- How an await ends. The statement that is interrupted may have been carried out. -/
inductive Reply where
  | completed
  | raised (applied : Bool)

structure State where
  schemaReady : Bool
  /-- The database holds the schema. -/
  created : Bool
  lock : Lock Nat
  calls : List Phase
  /-- The steps that were completed, with the call that took them. -/
  log : List (Nat × Step)

def start : State := ⟨false, false, .free, [], []⟩

inductive Move where
  | call
  | resume (i : Nat) (reply : Reply)
  /-- Cancel a call that waits for the lock. -/
  | cancel (i : Nat)

namespace State

def goto (s : State) (i : Nat) (phase : Phase) : State := { s with calls := s.calls.set i phase }

def leave (s : State) (i : Nat) (phase : Phase) : State :=
  { s with lock := s.lock.release }.goto i phase

/-- Enter the critical section, and look at `_schema_ready` again. -/
def enter (s : State) (i : Nat) : State :=
  if s.schemaReady then s.leave i .connecting
  else s.goto i (.creating .connect [.journalMode, .createTable, .createIndex, .commit])

/-- Open a connection: run until the first await that is not over at once. -/
def call (s : State) : State :=
  if s.schemaReady then { s with calls := s.calls ++ [.connecting] }
  else
    let asked := s.lock.acquire s.calls.length
    let queued := { s with lock := asked.2, calls := s.calls ++ [.waiting] }
    if asked.1 then queued.enter s.calls.length else queued

def wake (s : State) (i : Nat) (reply : Reply) : State :=
  match s.lock.waiters.get i, reply with
  | some .done, .completed => { s with lock := s.lock.proceed i }.enter i
  | some .done, .raised _ => { s with lock := s.lock.abandon i }.goto i .failed
  | some .cancelled, _ => { s with lock := s.lock.abandon i }.goto i .failed
  | _, _ => s

def create (s : State) (i : Nat) (step : Step) (left : List Step) : Reply → State
  | .completed =>
    let s := { s with
      created := s.created || decide (step = Step.commit), log := s.log ++ [(i, step)] }
    match left with
    | [] => s.goto i (.closing true)
    | next :: rest => s.goto i (.creating next rest)
  | .raised applied =>
    match step with
    | .connect => s.leave i .failed
    | .commit => { s with created := s.created || applied }.goto i (.closing false)
    | _ => s.goto i (.closing false)

def close (s : State) (i : Nat) : Bool → Reply → State
  | true, .completed => { s with schemaReady := true }.leave i .connecting
  | _, _ => s.leave i .failed

def resume (s : State) (i : Nat) (reply : Reply) : State :=
  match s.calls[i]?, reply with
  | some .waiting, _ => s.wake i reply
  | some (.creating step left), _ => s.create i step left reply
  | some (.closing created), _ => s.close i created reply
  | some .connecting, .completed => { s with log := s.log ++ [(i, Step.connect)] }.goto i .executing
  | some .connecting, .raised _ => s.goto i .failed
  | some .executing, .completed => { s with log := s.log ++ [(i, Step.execute)] }.goto i .finished
  | some .executing, .raised _ => s.goto i .failed
  | _, _ => s

end State

def step (s : State) : Move → State
  | .call => s.call
  | .resume i reply => s.resume i reply
  | .cancel i => { s with lock := s.lock.cancel i }

end Model

section Places

def Phase.place : Phase → Place
  | .waiting => .waiting
  | .creating _ _ => .holding
  | .closing _ => .holding
  | _ => .outside

def Phase.Passed : Phase → Prop
  | .connecting => True
  | .executing => True
  | .finished => True
  | _ => False

def State.place (s : State) (i : Nat) : Place := (s.calls[i]?.map Phase.place).getD .outside

variable {s : State} {i j : Nat} {phase : Phase}

theorem place_of_call (at_ : s.calls[i]? = some phase) : s.place i = phase.place := by
  rw [State.place, at_]
  rfl

theorem lt_of_call (at_ : s.calls[i]? = some phase) : i < s.calls.length :=
  (List.getElem?_eq_some_iff.mp at_).1

/-- The calls of `t` are those of `s`, except that `i` stands at `phase`. -/
def Moved (s t : State) (i : Nat) (phase : Phase) : Prop :=
  ∀ j, t.calls[j]? = if i = j then some phase else s.calls[j]?

theorem moved_goto (inside : i < s.calls.length) (phase : Phase) :
    Moved s (s.goto i phase) i phase := by
  intro j
  by_cases same : i = j
  · simp [State.goto, ← same, inside]
  · simp [State.goto, same]

theorem moved_append (s : State) (phase : Phase) :
    Moved s { s with calls := s.calls ++ [phase] } s.calls.length phase := by
  intro j
  change (s.calls ++ [phase])[j]? = _
  rcases Nat.lt_trichotomy j s.calls.length with before | same | after
  · rw [List.getElem?_append_left before, if_neg (Nat.ne_of_gt before)]
  · rw [same, List.getElem?_concat_length, if_pos rfl]
  · rw [if_neg (Nat.ne_of_lt after), List.getElem?_eq_none (by simp; omega),
      List.getElem?_eq_none (Nat.le_of_lt after)]

theorem Moved.place {t : State} (moved : Moved s t i phase) :
    t.place = update s.place i phase.place := by
  funext j
  rw [State.place, moved j]
  by_cases same : i = j
  · simp [same]
  · simp [same, Ne.symm same, State.place]

theorem place_new (s : State) : s.place s.calls.length = .outside := by
  rw [State.place, List.getElem?_eq_none (Nat.le_refl _)]
  rfl

end Places

section Progress

def written (attempts : List (Nat × List Step)) : List (Nat × Step) :=
  attempts.flatMap fun a => a.2.map fun step => (a.1, step)

/-- The last attempt is that of `i`, and `done` is what it has completed. -/
def Latest (attempts : List (Nat × List Step)) (i : Nat) (done : List Step) : Prop :=
  ∃ earlier, attempts = earlier ++ [(i, done)]

/-- The log consists of whole attempts and, once the schema is ready, of what the calls do
past it. -/
structure Progress (s : State) (attempts : List (Nat × List Step)) (later : List (Nat × Step)) :
    Prop where
  log : s.log = written attempts ++ later
  started : ∀ a ∈ attempts, a.2 <+: schemaSteps false
  unready : s.schemaReady = false → later = []
  kinds : ∀ entry ∈ later, entry.2 = .connect ∨ entry.2 = .execute
  creating : ∀ i step left, s.calls[i]? = some (.creating step left) →
    ∃ done, Latest attempts i done ∧ done ++ step :: left = schemaSteps false
  closing : ∀ i, s.calls[i]? = some (.closing true) →
    Latest attempts i (schemaSteps false) ∧ s.created = true
  ready : s.schemaReady = true → s.created = true ∧ (∀ i, s.place i ≠ .holding) ∧
    ∃ i, Latest attempts i (schemaSteps false)
  passed : ∀ (i : Nat) (phase : Phase), s.calls[i]? = some phase → phase.Passed →
    s.schemaReady = true

variable {s t : State} {i : Nat} {phase : Phase} {attempts : List (Nat × List Step)}
  {later : List (Nat × Step)}

theorem progress_start : Progress start [] [] where
  log := rfl
  started := by simp
  unready := fun _ => rfl
  kinds := by simp
  creating := by simp [start]
  closing := by simp [start]
  ready := by simp [start]
  passed := by simp [start]

/-- The phase says nothing about an attempt. -/
def Phase.Quiet : Phase → Prop
  | .creating _ _ => False
  | .closing created => created = false
  | _ => True

theorem Progress.moved (progress : Progress s attempts later) (moved : Moved s t i phase)
    (ready : t.schemaReady = s.schemaReady) (created : s.created = true → t.created = true)
    (log : t.log = s.log) (quiet : phase.Quiet)
    (outside : s.schemaReady = true → phase.place ≠ .holding)
    (passed : phase.Passed → s.schemaReady = true) : Progress t attempts later := by
  constructor
  case log => rw [log, progress.log]
  case started => exact progress.started
  case unready => exact ready ▸ progress.unready
  case kinds => exact progress.kinds
  case creating =>
    intro j step left at_
    rw [moved j] at at_
    split at at_
    · rw [Option.some.inj at_] at quiet
      exact quiet.elim
    · exact progress.creating j step left at_
  case closing =>
    intro j at_
    rw [moved j] at at_
    split at at_
    · rw [Option.some.inj at_] at quiet
      simp [Phase.Quiet] at quiet
    · exact (progress.closing j at_).imp id created
  case ready =>
    rw [ready, moved.place]
    intro set
    obtain ⟨held, nobody, complete⟩ := progress.ready set
    refine ⟨created held, fun j => ?_, complete⟩
    by_cases same : j = i
    · simpa [same] using outside set
    · simpa [same] using nobody j
  case passed =>
    intro j q at_ past
    rw [moved j] at at_
    rw [ready]
    split at at_
    · exact passed (Option.some.inj at_ ▸ past)
    · exact progress.passed j q at_ past

theorem not_attempting (alone : ∀ j, s.place j = .holding → j = i) {j : Nat} (other : i ≠ j) :
    (∀ step left, s.calls[j]? ≠ some (.creating step left)) ∧
      ∀ created, s.calls[j]? ≠ some (.closing created) :=
  ⟨fun _ _ at_ => other (alone j (place_of_call at_)).symm,
    fun _ at_ => other (alone j (place_of_call at_)).symm⟩

theorem Progress.enter (progress : Progress s attempts later)
    (moved : Moved s t i (.creating .connect [.journalMode, .createTable, .createIndex, .commit]))
    (ready : t.schemaReady = s.schemaReady) (unready : s.schemaReady = false)
    (log : t.log = s.log) (alone : ∀ j, s.place j = .holding → j = i) :
    Progress t (attempts ++ [(i, [])]) later := by
  have unset : t.schemaReady = false := ready.trans unready
  constructor
  case log => rw [log, progress.log, written, written, List.flatMap_append]; simp
  case started =>
    intro a member
    rcases List.mem_append.mp member with old | new
    · exact progress.started a old
    · rw [List.mem_singleton.mp new]
      exact List.nil_prefix
  case unready => exact fun _ => progress.unready unready
  case kinds => exact progress.kinds
  case creating =>
    intro j step left at_
    rw [moved j] at at_
    split at at_
    · next same =>
      obtain ⟨rfl, rfl⟩ := Phase.creating.inj (Option.some.inj at_)
      exact ⟨[], ⟨attempts, by rw [same]⟩, rfl⟩
    · next other => exact absurd at_ ((not_attempting alone other).1 step left)
  case closing =>
    intro j at_
    rw [moved j] at at_
    split at at_
    · simp at at_
    · next other => exact absurd at_ ((not_attempting alone other).2 true)
  case ready => simp [unset]
  case passed =>
    intro j q at_ past
    rw [moved j] at at_
    split at at_
    · rw [← Option.some.inj at_] at past
      exact past.elim
    · rw [progress.passed j q at_ past] at unready
      simp at unready

theorem Progress.create (progress : Progress s attempts later) {step : Step} {left : List Step}
    (at_ : s.calls[i]? = some (.creating step left))
    (alone : ∀ j, s.place j = .holding → j = i) (ready : t.schemaReady = s.schemaReady)
    (created : step = .commit → t.created = true) (log : t.log = s.log ++ [(i, step)])
    (moved : Moved s t i (match left with
      | [] => .closing true
      | next :: rest => .creating next rest)) :
    ∃ attempts', Progress t attempts' later := by
  obtain ⟨done, ⟨earlier, last⟩, whole⟩ := progress.creating i step left at_
  have unready : s.schemaReady = false := by
    by_contra set
    exact (progress.ready (by simpa using set)).2.1 i (place_of_call at_)
  have unset : t.schemaReady = false := ready.trans unready
  have nothing := progress.unready unready
  refine ⟨earlier ++ [(i, done ++ [step])], ?_⟩
  constructor
  case log =>
    rw [log, progress.log, nothing, last, written, written]
    simp
  case started =>
    intro a member
    rcases List.mem_append.mp member with old | new
    · exact progress.started a (by simp [last, old])
    · rw [List.mem_singleton.mp new, ← whole]
      exact ⟨left, by simp⟩
  case unready => exact fun _ => nothing
  case kinds => exact progress.kinds
  case creating =>
    intro j step' left' at_'
    rw [moved j] at at_'
    split at at_'
    · next same =>
      cases left with
      | nil => simp at at_'
      | cons next rest =>
        obtain ⟨rfl, rfl⟩ := Phase.creating.inj (Option.some.inj at_')
        exact ⟨done ++ [step], ⟨earlier, by rw [same]⟩, by rw [← whole]; simp⟩
    · next other => exact absurd at_' ((not_attempting alone other).1 step' left')
  case closing =>
    intro j at_'
    rw [moved j] at at_'
    split at at_'
    · next same =>
      cases left with
      | nil =>
        have commit : step = .commit := by
          have ends := congrArg List.getLast? whole
          simpa [schemaSteps] using ends
        exact ⟨⟨earlier, by rw [same, whole]⟩, created commit⟩
      | cons next rest => simp at at_'
    · next other => exact absurd at_' ((not_attempting alone other).2 true)
  case ready => simp [unset]
  case passed =>
    intro j q at_' past
    rw [moved j] at at_'
    split at at_'
    · rw [← Option.some.inj at_'] at past
      cases left <;> exact past.elim
    · rw [progress.passed j q at_' past] at unready
      simp at unready

theorem Progress.complete (progress : Progress s attempts later)
    (at_ : s.calls[i]? = some (.closing true)) (alone : ∀ j, s.place j = .holding → j = i)
    (moved : Moved s t i .connecting) (ready : t.schemaReady = true)
    (created : t.created = s.created) (log : t.log = s.log) : Progress t attempts later := by
  obtain ⟨latest, held⟩ := progress.closing i at_
  constructor
  case log => rw [log, progress.log]
  case started => exact progress.started
  case unready => simp [ready]
  case kinds => exact progress.kinds
  case creating =>
    intro j step left at_'
    rw [moved j] at at_'
    split at at_'
    · simp at at_'
    · next other => exact absurd at_' ((not_attempting alone other).1 step left)
  case closing =>
    intro j at_'
    rw [moved j] at at_'
    split at at_'
    · simp at at_'
    · next other => exact absurd at_' ((not_attempting alone other).2 true)
  case ready =>
    refine fun _ => ⟨created.trans held, fun j holds => ?_, i, latest⟩
    rw [moved.place] at holds
    by_cases same : j = i
    · simp [same, Phase.place] at holds
    · exact same (alone j (by simpa [same] using holds))
  case passed => exact fun _ _ _ _ => ready

theorem Progress.log_later (progress : Progress s attempts later) (set : s.schemaReady = true)
    {entry : Nat × Step} (kind : entry.2 = .connect ∨ entry.2 = .execute) :
    Progress { s with log := s.log ++ [entry] } attempts (later ++ [entry]) where
  log := by rw [progress.log, List.append_assoc]
  started := progress.started
  unready := by simp [set]
  kinds := by
    intro e member
    rcases List.mem_append.mp member with old | new
    · exact progress.kinds e old
    · exact List.mem_singleton.mp new ▸ kind
  creating := progress.creating
  closing := progress.closing
  ready := progress.ready
  passed := progress.passed

end Progress

section Runs

structure Inv (s : State) : Prop where
  served : Served s.lock s.place
  progress : ∃ attempts later, Progress s attempts later

variable {s : State} {i : Nat} {phase : Phase}

theorem inv_start : Inv start where
  served := served_free
  progress := ⟨[], [], progress_start⟩

theorem alone_of_holding (served : Served s.lock s.place) (holds : s.place i = .holding) :
    ∀ j, s.place j = .holding → j = i := fun j also => served.alone j i also holds

theorem inv_leave (inv : Inv s) (inside : i < s.calls.length) (holds : s.place i = .holding)
    (outside : phase.place = .outside) (quiet : phase.Quiet) (unpassed : ¬ phase.Passed) :
    Inv (s.leave i phase) := by
  have moved : Moved s (s.leave i phase) i phase := moved_goto inside phase
  obtain ⟨attempts, later, progress⟩ := inv.progress
  refine ⟨?_, attempts, later, progress.moved moved rfl id rfl quiet ?_ fun passed => ?_⟩
  · rw [moved.place, outside]
    exact served_release inv.served holds
  · simp [outside]
  · exact absurd passed unpassed

theorem inv_enter {lock : Lock Nat} (served : Served lock (update s.place i .holding))
    (inside : i < s.calls.length) {attempts : List (Nat × List Step)} {later : List (Nat × Step)}
    (progress : Progress s attempts later) :
    Inv (({ s with lock := lock } : State).enter i) := by
  have holds : update s.place i Place.holding i = .holding := by simp
  unfold State.enter
  split
  · next ready =>
    have moved : Moved s (({ s with lock := lock } : State).leave i .connecting) i .connecting :=
      moved_goto inside .connecting
    refine ⟨?_, attempts, later, progress.moved moved rfl id rfl trivial ?_ fun _ => ready⟩
    · have released := served_release served holds
      rw [Function.update_idem] at released
      exact moved.place ▸ released
    · simp [Phase.place]
  · next unready =>
    have moved := moved_goto (s := s) inside
      (.creating .connect [.journalMode, .createTable, .createIndex, .commit])
    refine ⟨?_, _, later, progress.enter moved rfl (by simpa using unready) rfl fun j also => ?_⟩
    · exact moved.place ▸ served
    · by_contra other
      exact other (served.alone j i (by simpa [other] using also) holds)

theorem inv_call (inv : Inv s) : Inv s.call := by
  obtain ⟨attempts, later, progress⟩ := inv.progress
  have outside := place_new s
  unfold State.call
  split
  · next ready =>
    have moved := moved_append s .connecting
    refine ⟨?_, attempts, later, progress.moved moved rfl id rfl trivial ?_ fun _ => ready⟩
    · rw [moved.place]
      simpa [Phase.place, ← outside] using inv.served
    · simp [Phase.place]
  · have moved := moved_append s .waiting
    have queued : ∀ lock, Progress { s with lock := lock, calls := s.calls ++ [.waiting] }
        attempts later := fun lock =>
      progress.moved moved rfl id rfl trivial (by simp [Phase.place]) fun passed => passed.elim
    dsimp only
    split
    · next taken =>
      have served := served_taken inv.served outside taken
      refine inv_enter (s := { s with calls := s.calls ++ [.waiting] }) ?_ (by simp) (queued _)
      rw [moved.place]
      simpa using served
    · next refused =>
      have served := served_refused inv.served outside (by simpa using refused)
      exact ⟨moved.place ▸ served, attempts, later, queued _⟩

theorem inv_wake (inv : Inv s) (at_ : s.calls[i]? = some .waiting) (reply : Reply) :
    Inv (s.wake i reply) := by
  obtain ⟨attempts, later, progress⟩ := inv.progress
  have inside := lt_of_call at_
  have waits : s.place i = .waiting := place_of_call at_
  have abandoned : Inv (({ s with lock := s.lock.abandon i } : State).goto i .failed) := by
    have moved : Moved s (({ s with lock := s.lock.abandon i } : State).goto i .failed) i .failed :=
      moved_goto inside .failed
    refine ⟨moved.place ▸ served_abandon inv.served waits, attempts, later, ?_⟩
    exact progress.moved moved rfl id rfl trivial (by simp [Phase.place]) fun passed => passed.elim
  unfold State.wake
  split
  · next done => exact inv_enter (served_proceed inv.served done) inside progress
  · exact abandoned
  · exact abandoned
  · exact inv

/-- Where a call goes after a step of an attempt. -/
def afterStep : List Step → Phase
  | [] => .closing true
  | next :: rest => .creating next rest

theorem place_afterStep (left : List Step) : (afterStep left).place = .holding := by
  cases left <;> rfl

theorem create_completed (s : State) (i : Nat) (step : Step) (left : List Step) :
    s.create i step left .completed = ({ s with
      created := s.created || decide (step = Step.commit), log := s.log ++ [(i, step)] } :
        State).goto i (afterStep left) := by
  cases left <;> rfl

theorem inv_create (inv : Inv s) {step : Step} {left : List Step}
    (at_ : s.calls[i]? = some (.creating step left)) (reply : Reply) :
    Inv (s.create i step left reply) := by
  obtain ⟨attempts, later, progress⟩ := inv.progress
  have inside := lt_of_call at_
  have holds : s.place i = .holding := place_of_call at_
  have kept : update s.place i .holding = s.place := by rw [← holds, Function.update_eq_self]
  cases reply with
  | completed =>
    rw [create_completed]
    have moved := moved_goto inside (afterStep left)
    have alone := alone_of_holding inv.served holds
    obtain ⟨attempts', progress'⟩ := progress.create (t := ({ s with
      created := s.created || decide (step = Step.commit), log := s.log ++ [(i, step)] } :
        State).goto i (afterStep left)) at_ alone rfl (by simp +contextual [State.goto]) rfl
      (by cases left <;> exact moved)
    refine ⟨?_, attempts', later, progress'⟩
    have placed := moved.place
    rw [place_afterStep, kept] at placed
    exact placed ▸ inv.served
  | raised applied =>
    have unready : s.schemaReady = true → (Phase.closing false).place ≠ .holding :=
      fun ready => absurd holds ((progress.ready ready).2.1 i)
    have moved := moved_goto inside (.closing false)
    have placed := moved.place
    rw [Phase.place, kept] at placed
    have closing : ∀ created, (s.created = true → created = true) →
        Inv (({ s with created := created } : State).goto i (.closing false)) :=
      fun created grows => ⟨placed ▸ inv.served, attempts, later,
        progress.moved moved rfl grows rfl rfl unready fun passed => passed.elim⟩
    unfold State.create
    dsimp only
    split
    · exact inv_leave inv inside holds rfl trivial id
    · exact closing _ fun created => by simp [created]
    · exact closing s.created id

theorem inv_close (inv : Inv s) {created : Bool} (at_ : s.calls[i]? = some (.closing created))
    (reply : Reply) : Inv (s.close i created reply) := by
  obtain ⟨attempts, later, progress⟩ := inv.progress
  have inside := lt_of_call at_
  have holds : s.place i = .holding := place_of_call at_
  unfold State.close
  split
  · have moved : Moved s (({ s with schemaReady := true } : State).leave i .connecting) i
        .connecting := moved_goto inside .connecting
    have alone := alone_of_holding inv.served holds
    refine ⟨?_, attempts, later, progress.complete at_ alone moved rfl rfl rfl⟩
    exact moved.place ▸ served_release inv.served holds
  · exact inv_leave inv inside holds rfl trivial id

theorem inv_outside (inv : Inv s) {q : Phase} (at_ : s.calls[i]? = some q)
    (outside : q.place = .outside) (outside' : phase.place = .outside) (quiet : phase.Quiet)
    (passed : phase.Passed → s.schemaReady = true) : Inv (s.goto i phase) := by
  obtain ⟨attempts, later, progress⟩ := inv.progress
  have moved := moved_goto (lt_of_call at_) phase
  refine ⟨?_, attempts, later, progress.moved moved rfl id rfl quiet (by simp [outside']) passed⟩
  have same : update s.place i phase.place = s.place := by
    rw [outside', ← outside, ← place_of_call at_, Function.update_eq_self]
  exact (moved.place.trans same) ▸ inv.served

theorem inv_log (inv : Inv s) (ready : s.schemaReady = true) {entry : Nat × Step}
    (kind : entry.2 = .connect ∨ entry.2 = .execute) :
    Inv { s with log := s.log ++ [entry] } := by
  obtain ⟨attempts, later, progress⟩ := inv.progress
  exact ⟨inv.served, attempts, _, progress.log_later ready kind⟩

theorem inv_resume (inv : Inv s) (i : Nat) (reply : Reply) : Inv (s.resume i reply) := by
  obtain ⟨attempts, later, progress⟩ := inv.progress
  unfold State.resume
  split
  · next at_ => exact inv_wake inv at_ _
  · next at_ => exact inv_create inv at_ _
  · next at_ => exact inv_close inv at_ _
  · next at_ =>
    have ready := progress.passed i _ at_ trivial
    exact inv_outside (inv_log inv ready (.inl rfl)) at_ rfl rfl trivial fun _ => ready
  · next at_ => exact inv_outside inv at_ rfl rfl trivial fun passed => passed.elim
  · next at_ =>
    have ready := progress.passed i _ at_ trivial
    exact inv_outside (inv_log inv ready (.inr rfl)) at_ rfl rfl trivial fun _ => ready
  · next at_ => exact inv_outside inv at_ rfl rfl trivial fun passed => passed.elim
  · exact inv

theorem inv_step (inv : Inv s) (m : Move) : Inv (step s m) := by
  cases m with
  | call => exact inv_call inv
  | resume i reply => exact inv_resume inv i reply
  | cancel i =>
    obtain ⟨attempts, later, progress⟩ := inv.progress
    refine ⟨served_cancel inv.served, attempts, later, ?_⟩
    exact ⟨progress.log, progress.started, progress.unready, progress.kinds, progress.creating,
      progress.closing, progress.ready, progress.passed⟩

def reached (moves : List Move) : State := moves.foldl step start

theorem inv_reached (moves : List Move) : Inv (reached moves) := by
  induction moves using List.reverseRecOn with
  | nil => exact inv_start
  | append_singleton moves m ih =>
    rw [reached, List.foldl_append]
    exact inv_step ih m

/-- In every run: one call at most is in the critical section, the attempts to create the
schema follow one another step by step, and what is executed past them comes after a whole
attempt whose changes are committed; from then on nobody enters the critical section. -/
theorem schema_created_serially (moves : List Move) :
    (∀ i j, (reached moves).place i = .holding → (reached moves).place j = .holding → i = j) ∧
    ∃ attempts later, (reached moves).log = written attempts ++ later ∧
      (∀ a ∈ attempts, a.2 <+: schemaSteps false) ∧
      (∀ entry ∈ later, entry.2 = .connect ∨ entry.2 = .execute) ∧
      (later ≠ [] → (reached moves).schemaReady = true) ∧
      ((reached moves).schemaReady = true → (reached moves).created = true ∧
        (∀ i, (reached moves).place i ≠ .holding) ∧
        ∃ i, Latest attempts i (schemaSteps false)) := by
  have inv := inv_reached moves
  obtain ⟨attempts, later, progress⟩ := inv.progress
  refine ⟨inv.served.alone, attempts, later, progress.log, progress.started, progress.kinds,
    fun nonempty => ?_, progress.ready⟩
  by_contra unready
  exact nonempty (progress.unready (by simpa using unready))

end Runs

section Liveness

def Phase.Ended : Phase → Prop
  | .finished => True
  | .failed => True
  | _ => False

/-- The event loop can run the call: its await is not over only where it sleeps in the queue. -/
def Runnable (s : State) (i : Nat) : Prop := ∃ phase, s.calls[i]? = some phase ∧ ¬ phase.Ended ∧
  (phase = .waiting → s.lock.waiters.get i ≠ some .pending)

/-- How often a call at this phase can still be resumed. -/
def Phase.work : Phase → Nat
  | .waiting => 9
  | .creating _ left => left.length + 4
  | .closing _ => 3
  | .connecting => 2
  | .executing => 1
  | .finished => 0
  | .failed => 0

def State.work (s : State) : Nat := (s.calls.map Phase.work).sum

variable {s : State} {i : Nat}

theorem sum_set {xs : List Nat} {i x y : Nat} (at_ : xs[i]? = some x) :
    (xs.set i y).sum + x = xs.sum + y := by
  induction xs generalizing i with
  | nil => simp at at_
  | cons z xs ih =>
    cases i with
    | zero =>
      obtain rfl : z = x := by simpa using at_
      simp only [List.set_cons_zero, List.sum_cons]
      omega
    | succ i =>
      have rest := ih (i := i) (by simpa using at_)
      simp only [List.set_cons_succ, List.sum_cons]
      omega

theorem work_lt {t : State} {p q : Phase} (at_ : s.calls[i]? = some p)
    (calls : t.calls = s.calls.set i q) (less : q.work < p.work) : t.work < s.work := by
  have inside : (s.calls.map Phase.work)[i]? = some p.work := by
    rw [List.getElem?_map, at_]
    rfl
  have sum := sum_set (y := q.work) inside
  rw [← List.map_set, ← calls] at sum
  unfold State.work
  omega

theorem call_of_place {place : Place} (at_ : s.place i = place) (inside : place ≠ .outside) :
    ∃ phase, s.calls[i]? = some phase ∧ phase.place = place := by
  unfold State.place at at_
  cases call : s.calls[i]? with
  | none =>
    rw [call] at at_
    exact absurd at_.symm inside
  | some phase =>
    rw [call] at at_
    exact ⟨phase, rfl, at_⟩

/-- Whenever a call has not ended, the event loop can run some call. -/
theorem exists_runnable (inv : Inv s) {phase : Phase} (at_ : s.calls[i]? = some phase)
    (open_ : ¬ phase.Ended) : ∃ j, Runnable s j := by
  by_cases waits : phase = .waiting
  · have place : s.place i = .waiting := by
      rw [place_of_call at_, waits]
      rfl
    rcases inv.served.exists_awake place with ⟨j, holds⟩ | ⟨j, future, also, queued, awake⟩
    · obtain ⟨q, call, place⟩ := call_of_place holds (by simp)
      refine ⟨j, q, call, fun ended => ?_, fun waits => ?_⟩
      · cases q <;> simp_all [Phase.Ended, Phase.place]
      · simp [waits, Phase.place] at place
    · obtain ⟨q, call, place⟩ := call_of_place also (by simp)
      refine ⟨j, q, call, fun ended => ?_, fun _ => by simpa [queued] using awake⟩
      cases q <;> simp_all [Phase.Ended, Phase.place]
  · exact ⟨i, phase, at_, open_, fun h => absurd h waits⟩

theorem enter_work (s : State) (i : Nat) :
    ∃ q : Phase, (s.enter i).calls = s.calls.set i q ∧ q.work ≤ 8 := by
  unfold State.enter
  split
  · exact ⟨.connecting, rfl, by decide⟩
  · exact ⟨_, rfl, Nat.le_refl 8⟩

theorem resume_work (inv : Inv s) (runnable : Runnable s i) (reply : Reply) :
    (s.resume i reply).work < s.work := by
  obtain ⟨phase, at_, open_, awake⟩ := runnable
  cases phase with
  | waiting =>
    have queued : (s.lock.waiters.get i).isSome :=
      (inv.served.waiting i).mpr (place_of_call at_)
    obtain ⟨future, found⟩ := Option.isSome_iff_exists.mp queued
    have failed : (({ s with lock := s.lock.abandon i } : State).goto i .failed).work < s.work :=
      work_lt (q := .failed) at_ rfl (by decide)
    have woken : s.resume i reply = s.wake i reply := by simp only [State.resume, at_]
    rw [woken]
    cases future with
    | pending => exact absurd found (awake rfl)
    | cancelled => simpa [State.wake, found] using failed
    | done =>
      cases reply with
      | raised applied => simpa [State.wake, found] using failed
      | completed =>
        obtain ⟨q, calls, less⟩ := enter_work { s with lock := s.lock.proceed i } i
        have entered := work_lt at_ calls (Nat.lt_succ_of_le less)
        simpa [State.wake, found] using entered
  | creating step left =>
    have created : s.resume i reply = s.create i step left reply := by
      simp only [State.resume, at_]
    rw [created]
    cases reply with
    | completed =>
      rw [create_completed]
      refine work_lt (q := afterStep left) at_ rfl ?_
      cases left with
      | nil => simp [afterStep, Phase.work]
      | cons next rest => simp [afterStep, Phase.work]
    | raised applied =>
      unfold State.create
      dsimp only
      split
      · exact work_lt (q := .failed) at_ rfl (Nat.succ_pos _)
      · exact work_lt (q := .closing false) at_ rfl (by simp [Phase.work])
      · exact work_lt (q := .closing false) at_ rfl (by simp [Phase.work])
  | closing created =>
    have closed : s.resume i reply = s.close i created reply := by simp only [State.resume, at_]
    have failed : (s.leave i .failed).work < s.work :=
      work_lt (q := .failed) at_ rfl (Nat.succ_pos _)
    rw [closed]
    cases created with
    | false => exact failed
    | true =>
      cases reply with
      | completed => exact work_lt (q := .connecting) at_ rfl (by decide)
      | raised applied => exact failed
  | connecting =>
    unfold State.resume
    rw [at_]
    cases reply with
    | completed => exact work_lt (q := .executing) at_ rfl (by decide)
    | raised applied => exact work_lt (q := .failed) at_ rfl (by decide)
  | executing =>
    unfold State.resume
    rw [at_]
    cases reply with
    | completed => exact work_lt (q := .finished) at_ rfl (by decide)
    | raised applied => exact work_lt (q := .failed) at_ rfl (by decide)
  | finished => exact absurd trivial open_
  | failed => exact absurd trivial open_

theorem work_le (inv : Inv s) : s.work ≤ 9 * s.calls.length := by
  obtain ⟨attempts, later, progress⟩ := inv.progress
  have each : ∀ work ∈ s.calls.map Phase.work, work ≤ 9 := by
    intro work member
    obtain ⟨phase, inside, rfl⟩ := List.mem_map.mp member
    cases phase with
    | creating step left =>
      obtain ⟨i, at_⟩ := List.mem_iff_getElem?.mp inside
      obtain ⟨done, _, whole⟩ := progress.creating i step left at_
      have length := congrArg List.length whole
      simp only [List.length_append, List.length_cons, schemaSteps, Bool.false_eq_true, if_false,
        List.length_nil] at length
      simp only [Phase.work]
      omega
    | _ => simp [Phase.work]
  have total := List.sum_le_card_nsmul _ 9 each
  simpa [State.work, Nat.mul_comm] using total

structure Unharmed (s : State) : Prop where
  calls : ∀ phase ∈ s.calls, phase ≠ .failed ∧ phase ≠ .closing false
  waiters : ∀ i, s.lock.waiters.get i ≠ some .cancelled

def Move.Clean : Move → Prop
  | .call => True
  | .resume _ .completed => True
  | .resume _ (.raised _) => False
  | .cancel _ => False

theorem Unharmed.goto {t : State} (unharmed : Unharmed s) {phase : Phase}
    (calls : t.calls = s.calls.set i phase) (fine : phase ≠ .failed ∧ phase ≠ .closing false)
    (waiters : ∀ i, t.lock.waiters.get i ≠ some .cancelled) : Unharmed t := by
  refine ⟨fun p member => ?_, waiters⟩
  rw [calls] at member
  rcases List.mem_or_eq_of_mem_set member with old | rfl
  · exact unharmed.calls p old
  · exact fine

theorem not_cancelled_wakeFirst {waiters : Dict Nat Future}
    (none : ∀ i, waiters.get i ≠ some .cancelled) (i : Nat) :
    (wakeFirst waiters).get i ≠ some .cancelled := by
  rw [get_wakeFirst]
  split
  · simp
  · exact none i

theorem unharmed_enter {lock : Lock Nat} (unharmed : Unharmed s)
    (waiters : ∀ i, lock.waiters.get i ≠ some .cancelled) (i : Nat) :
    Unharmed (({ s with lock := lock } : State).enter i) := by
  unfold State.enter
  split
  · exact unharmed.goto rfl (by simp) (not_cancelled_wakeFirst waiters)
  · exact unharmed.goto rfl (by simp) waiters

theorem unharmed_call (unharmed : Unharmed s) : Unharmed s.call := by
  have joined : ∀ (phase : Phase) (lock : Lock Nat), phase ≠ .failed ∧ phase ≠ .closing false →
      (∀ i, lock.waiters.get i ≠ some .cancelled) →
        Unharmed { s with lock := lock, calls := s.calls ++ [phase] } := by
    intro phase lock fine waiters
    refine ⟨fun p member => ?_, waiters⟩
    rcases List.mem_append.mp member with old | new
    · exact unharmed.calls p old
    · exact List.mem_singleton.mp new ▸ fine
  have waiters : ∀ i, (s.lock.acquire s.calls.length).2.waiters.get i ≠ some .cancelled := by
    intro i
    rcases Lock.acquire_cases s.lock s.calls.length with ⟨taken, _⟩ | ⟨refused, _⟩
    · rw [taken]
      exact unharmed.waiters i
    · rw [refused]
      by_cases same : s.calls.length = i
      · simp [same]
      · simpa [Dict.get_set_other _ same] using unharmed.waiters i
  unfold State.call
  split
  · exact joined .connecting s.lock (by simp) unharmed.waiters
  · have queued := joined .waiting _ (by simp) waiters
    dsimp only
    split
    · exact unharmed_enter queued waiters _
    · exact queued

theorem unharmed_resume (unharmed : Unharmed s) (i : Nat) :
    Unharmed (s.resume i .completed) := by
  cases at_ : s.calls[i]? with
  | none => simpa [State.resume, at_] using unharmed
  | some phase =>
    have fine := unharmed.calls phase (List.mem_of_getElem? at_)
    cases phase with
    | waiting =>
      have erased : ∀ j, (s.lock.proceed i).waiters.get j ≠ some .cancelled := by
        intro j
        change (s.lock.waiters.erase i).get j ≠ some .cancelled
        by_cases same : i = j
        · simp [same]
        · simpa [Dict.get_erase_other _ same] using unharmed.waiters j
      simp only [State.resume, at_, State.wake]
      cases queued : s.lock.waiters.get i with
      | none => exact unharmed
      | some future =>
        cases future with
        | pending => exact unharmed
        | done => exact unharmed_enter unharmed erased i
        | cancelled => exact absurd queued (unharmed.waiters i)
    | creating step left =>
      simp only [State.resume, at_]
      rw [create_completed]
      exact unharmed.goto rfl (by cases left <;> simp [afterStep]) unharmed.waiters
    | closing created =>
      cases created with
      | false => exact absurd rfl fine.2
      | true =>
        simp only [State.resume, at_]
        exact unharmed.goto rfl (by simp) (not_cancelled_wakeFirst unharmed.waiters)
    | connecting =>
      simp only [State.resume, at_]
      exact unharmed.goto rfl (by simp) unharmed.waiters
    | executing =>
      simp only [State.resume, at_]
      exact unharmed.goto rfl (by simp) unharmed.waiters
    | finished => simpa [State.resume, at_] using unharmed
    | failed => exact absurd rfl fine.1

theorem unharmed_reached {moves : List Move} (clean : ∀ m ∈ moves, m.Clean) :
    Unharmed (reached moves) := by
  induction moves using List.reverseRecOn with
  | nil => exact ⟨by simp [reached, start], by simp [reached, start, Lock.free]⟩
  | append_singleton moves m ih =>
    have earlier := ih fun m inside => clean m (by simp [inside])
    have last := clean m (by simp)
    rw [reached, List.foldl_append]
    cases m with
    | call => exact unharmed_call earlier
    | resume i reply =>
      cases reply with
      | completed => exact unharmed_resume earlier i
      | raised applied => exact last.elim
    | cancel i => exact last.elim

def runOn (s : State) (resumes : List (Nat × Reply)) : State :=
  resumes.foldl (fun s r => s.resume r.1 r.2) s

theorem runOn_reached (moves : List Move) (resumes : List (Nat × Reply)) :
    runOn (reached moves) resumes =
      reached (moves ++ resumes.map fun r => .resume r.1 r.2) := by
  unfold reached
  rw [List.foldl_append, List.foldl_map]
  rfl

/-- However the calls are run on from a state that is reached, each of them is run nine times
at most; when none can be run any more all have ended, and have finished if nothing was
raised or cancelled. -/
theorem calls_end (moves : List Move) (resumes : List (Nat × Reply))
    (runnable : Along (fun s r => s.resume r.1 r.2) (fun s r => Runnable s r.1) (reached moves)
      resumes) :
    resumes.length ≤ 9 * (reached moves).calls.length ∧
      ((∀ i, ¬ Runnable (runOn (reached moves) resumes) i) →
        ∀ phase ∈ (runOn (reached moves) resumes).calls, phase.Ended ∧
          ((∀ m ∈ moves, m.Clean) → (∀ r ∈ resumes, r.2 = .completed) → phase = .finished)) := by
  have inv := inv_reached moves
  constructor
  · have keep : ∀ s (r : Nat × Reply), Runnable s r.1 → Inv s → Inv (s.resume r.1 r.2) :=
      fun s r _ inv => inv_resume inv r.1 r.2
    refine (length_le_of_along keep (fun s r runs inv => ?_) inv runnable).trans (work_le inv)
    exact resume_work inv runs r.2
  · intro stuck phase member
    have ended : phase.Ended := by
      by_contra open_
      obtain ⟨i, at_⟩ := List.mem_iff_getElem?.mp member
      rw [runOn_reached] at stuck at_
      obtain ⟨j, runs⟩ := exists_runnable (inv_reached _) at_ open_
      exact stuck j runs
    refine ⟨ended, fun clean completed => ?_⟩
    have unharmed : Unharmed (runOn (reached moves) resumes) := by
      rw [runOn_reached]
      refine unharmed_reached fun m inside => ?_
      rcases List.mem_append.mp inside with old | new
      · exact clean m old
      · obtain ⟨⟨i, reply⟩, later, rfl⟩ := List.mem_map.mp new
        rw [show reply = .completed from completed _ later]
        trivial
    have fine := (unharmed.calls phase member).1
    cases phase with
    | finished => rfl
    | failed => exact absurd rfl fine
    | _ => exact ended.elim

/-- Two calls at once: the first cannot connect, and the second goes on in its place. -/
theorem second_call_goes_on :
    [(0, Reply.raised false), (1, .completed)].length ≤ 9 * (reached [.call, .call]).calls.length ∧
      ((∀ i, ¬ Runnable (runOn (reached [.call, .call])
          [(0, .raised false), (1, .completed)]) i) →
        ∀ phase ∈ (runOn (reached [.call, .call]) [(0, .raised false), (1, .completed)]).calls,
          phase.Ended ∧ ((∀ m ∈ [Move.call, .call], m.Clean) →
            (∀ r ∈ [(0, Reply.raised false), (1, .completed)], r.2 = .completed) →
              phase = .finished)) :=
  calls_end [.call, .call] [(0, .raised false), (1, .completed)]
    ⟨⟨_, rfl, id, by simp⟩, ⟨_, rfl, id, fun _ => by decide⟩, trivial⟩

end Liveness

end AgentTrust.SchemaLock
