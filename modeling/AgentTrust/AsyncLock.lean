import AgentTrust.OrderedDict
import Mathlib.Logic.Function.Basic

/-! A lock between tasks of one event loop, which hands itself on in the order of the requests.
A task that has to wait leaves a future behind; releasing the lock completes the future of the
first in the queue, which takes the lock when it runs next. A waiting task can be cancelled
before or after its future is completed, and then passes the lock on. -/

namespace AgentTrust.AsyncLock

open OrderedDict

inductive Future where
  | pending
  | done
  | cancelled
  deriving DecidableEq

/-- `asyncio.Lock`: whether it is locked, and the futures of the tasks that wait for it. -/
structure Lock (ι : Type) where
  locked : Bool
  waiters : Dict ι Future

section Queue

variable {ι : Type} [DecidableEq ι]

def wakeFirst (waiters : Dict ι Future) : Dict ι Future :=
  match waiters.entries.head? with
  | some (i, .pending) => waiters.set i .done
  | _ => waiters

theorem head?_erase {waiters : Dict ι Future} {i j : ι} {f : Future}
    (head : waiters.entries.head? = some (j, f)) (other : i ≠ j) :
    (waiters.erase i).entries.head? = some (j, f) := by
  obtain ⟨rest, entries⟩ := List.head?_eq_some_iff.mp head
  change (waiters.entries.filter fun p => p.1 ≠ i).head? = some (j, f)
  rw [entries, List.filter_cons_of_pos (by simpa using other.symm), List.head?_cons]

theorem get_of_head? {waiters : Dict ι Future} {i : ι} {f : Future}
    (head : waiters.entries.head? = some (i, f)) : waiters.get i = some f :=
  Dict.mem_entries.mp (List.mem_of_head? head)

theorem wakeFirst_pending {waiters : Dict ι Future} {i : ι}
    (head : waiters.entries.head? = some (i, .pending)) :
    wakeFirst waiters = waiters.set i .done := by
  rw [wakeFirst, head]

theorem wakeFirst_other {waiters : Dict ι Future}
    (awake : ∀ i, waiters.entries.head? ≠ some (i, .pending)) : wakeFirst waiters = waiters := by
  unfold wakeFirst
  split
  · next i head => exact absurd head (awake i)
  · rfl

theorem head?_set_self {waiters : Dict ι Future} {i : ι} {f : Future}
    (head : waiters.entries.head? = some (i, f)) (g : Future) :
    (waiters.set i g).entries.head? = some (i, g) := by
  rw [Dict.head?_set, head]
  simp

theorem head?_wakeFirst (waiters : Dict ι Future) (i : ι) :
    (wakeFirst waiters).entries.head? ≠ some (i, .pending) := by
  by_cases asleep : ∃ j, waiters.entries.head? = some (j, .pending)
  · obtain ⟨j, head⟩ := asleep
    rw [wakeFirst_pending head, head?_set_self head]
    simp
  · rw [wakeFirst_other (not_exists.mp asleep)]
    exact not_exists.mp asleep i

theorem get_wakeFirst (waiters : Dict ι Future) (i : ι) : (wakeFirst waiters).get i =
    if waiters.entries.head? = some (i, .pending) then some .done else waiters.get i := by
  by_cases asleep : ∃ j, waiters.entries.head? = some (j, .pending)
  · obtain ⟨j, head⟩ := asleep
    rw [wakeFirst_pending head, head]
    by_cases same : j = i
    · simp [same]
    · simp [Dict.get_set_other _ same, same]
  · rw [wakeFirst_other (not_exists.mp asleep), if_neg (not_exists.mp asleep i)]

theorem isSome_get_wakeFirst (waiters : Dict ι Future) (i : ι) :
    ((wakeFirst waiters).get i).isSome = (waiters.get i).isSome := by
  rw [get_wakeFirst]
  split
  · next head =>
    rw [get_of_head? head]
    rfl
  · rfl

end Queue

namespace Lock

variable {ι : Type} [DecidableEq ι]

def free : Lock ι := ⟨false, Dict.empty⟩

/-- Whether the lock is taken at once, and the lock then; a task that is refused waits. -/
def acquire (l : Lock ι) (i : ι) : Bool × Lock ι :=
  if !l.locked && l.waiters.entries.all fun p => p.2 = .cancelled then
    (true, { l with locked := true })
  else (false, { l with waiters := l.waiters.set i .pending })

def release (l : Lock ι) : Lock ι := ⟨false, wakeFirst l.waiters⟩

def proceed (l : Lock ι) (i : ι) : Lock ι := ⟨true, l.waiters.erase i⟩

/-- A cancelled task leaves the queue, and wakes the next unless the lock is taken. -/
def abandon (l : Lock ι) (i : ι) : Lock ι :=
  if l.locked then ⟨true, l.waiters.erase i⟩ else ⟨false, wakeFirst (l.waiters.erase i)⟩

def cancel (l : Lock ι) (i : ι) : Lock ι :=
  if l.waiters.get i = some .pending then { l with waiters := l.waiters.set i .cancelled } else l

/-- Only the first in the queue of a free lock is woken, and it is, so the lock is never free
while everybody in the queue sleeps. -/
structure Sound (l : Lock ι) : Prop where
  done : ∀ i, l.waiters.get i = some .done →
    l.locked = false ∧ l.waiters.entries.head? = some (i, .done)
  awake : l.locked = false → ∀ i, l.waiters.entries.head? ≠ some (i, .pending)

theorem sound_free : (free : Lock ι).Sound where
  done := by simp [free]
  awake := by simp [free, Dict.empty]

variable {l : Lock ι} {i j : ι}

theorem acquire_cases (l : Lock ι) (i : ι) :
    l.acquire i = (true, ⟨true, l.waiters⟩) ∧ l.locked = false ∧
        (∀ j, l.waiters.get j ≠ some .done) ∨
      l.acquire i = (false, { l with waiters := l.waiters.set i .pending }) ∧
        (l.locked = false → ∃ p ∈ l.waiters.entries, p.2 ≠ .cancelled) := by
  unfold acquire
  split
  · next open_ =>
    obtain ⟨unlocked, cancelled⟩ := Bool.and_eq_true_iff.mp open_
    refine .inl ⟨rfl, by simpa using unlocked, fun j done => ?_⟩
    have left := List.all_eq_true.mp cancelled _ (Dict.mem_entries.mpr done)
    simp at left
  · next shut => exact .inr ⟨rfl, by simpa using shut⟩

theorem sound_acquire (sound : l.Sound) (fresh : l.waiters.get i = none) :
    (l.acquire i).2.Sound := by
  rcases acquire_cases l i with ⟨taken, _, undone⟩ | ⟨refused, waited⟩
  · rw [taken]
    exact ⟨fun j done => absurd done (undone j), by simp⟩
  · rw [refused]
    have head : ∀ p, l.waiters.entries.head? = some p →
        (l.waiters.set i .pending).entries.head? = some p := by
      intro p first
      have other : p.1 ≠ i := by
        intro same
        rw [← same, get_of_head? (f := p.2) first] at fresh
        simp at fresh
      rw [Dict.head?_set, first]
      simp [other]
    refine ⟨fun j done => ?_, fun unlocked j pending => ?_⟩
    · by_cases same : i = j
      · simp [← same] at done
      · obtain ⟨unlocked, first⟩ := sound.done j (by rwa [Dict.get_set_other _ same] at done)
        exact ⟨unlocked, head _ first⟩
    · obtain ⟨p, member, _⟩ := waited unlocked
      cases first : l.waiters.entries.head? with
      | none => simp [List.head?_eq_none_iff.mp first] at member
      | some q =>
        rw [head q first, ← first] at pending
        exact sound.awake unlocked j pending

theorem sound_release (sound : l.Sound) (locked : l.locked) : l.release.Sound where
  done := by
    intro j done
    refine ⟨rfl, ?_⟩
    change (wakeFirst l.waiters).get j = some .done at done
    rw [get_wakeFirst] at done
    split at done
    · next head =>
      change (wakeFirst l.waiters).entries.head? = _
      rw [wakeFirst_pending head, head?_set_self head]
    · simp [(sound.done j done).1] at locked
  awake := fun _ j => head?_wakeFirst l.waiters j

theorem sound_proceed (sound : l.Sound) (done : l.waiters.get i = some .done) :
    (l.proceed i).Sound where
  done := by
    intro j also
    change (l.waiters.erase i).get j = some .done at also
    by_cases same : i = j
    · simp [same] at also
    · rw [Dict.get_erase_other _ same] at also
      have first := (sound.done i done).2.symm.trans (sound.done j also).2
      exact absurd (congrArg Prod.fst (Option.some.inj first)) same
  awake := fun unlocked => by simp [proceed] at unlocked

theorem sound_abandon (sound : l.Sound) : (l.abandon i).Sound := by
  unfold abandon
  cases locked : l.locked with
  | true =>
    refine ⟨fun j done => ?_, fun unlocked => by simp at unlocked⟩
    change (l.waiters.erase i).get j = some .done at done
    by_cases same : i = j
    · simp [same] at done
    · rw [Dict.get_erase_other _ same] at done
      simp [(sound.done j done).1] at locked
  | false =>
    refine ⟨fun j done => ⟨rfl, ?_⟩, fun _ j => head?_wakeFirst _ j⟩
    change (wakeFirst (l.waiters.erase i)).get j = some .done at done
    change (wakeFirst (l.waiters.erase i)).entries.head? = _
    rw [get_wakeFirst] at done
    split at done
    · next head => rw [wakeFirst_pending head, head?_set_self head]
    · by_cases same : i = j
      · simp [same] at done
      · rw [Dict.get_erase_other _ same] at done
        have first := head?_erase (sound.done j done).2 same
        rw [wakeFirst_other (by simp [first]), first]

theorem sound_cancel (sound : l.Sound) : (l.cancel i).Sound := by
  unfold cancel
  split
  · next pending =>
    refine ⟨fun j done => ?_, fun unlocked j asleep => ?_⟩
    · change (l.waiters.set i .cancelled).get j = some .done at done
      by_cases same : i = j
      · simp [same] at done
      · rw [Dict.get_set_other _ same] at done
        obtain ⟨unlocked, first⟩ := sound.done j done
        refine ⟨unlocked, ?_⟩
        rw [Dict.head?_set, first]
        simp [Ne.symm same]
    · change (l.waiters.set i .cancelled).entries.head? = _ at asleep
      rw [Dict.head?_set] at asleep
      cases first : l.waiters.entries.head? with
      | none => simp [first] at asleep
      | some p =>
        by_cases same : p.1 = i
        · simp [first, same] at asleep
        · rw [first] at asleep
          simp only [Option.map_some, same, if_false, Option.getD_some] at asleep
          exact sound.awake unlocked j (first.trans asleep)
  · exact sound

end Lock

section Users

inductive Place where
  | outside
  | waiting
  | holding
  deriving DecidableEq

open Function (update)

variable {ι : Type} [DecidableEq ι] {l : Lock ι} {place : ι → Place} {i j : ι}

/-- The tasks in the queue are those that wait, and the lock is taken exactly while one task,
and only one, holds it. -/
structure Served (l : Lock ι) (place : ι → Place) : Prop where
  sound : l.Sound
  waiting : ∀ i, (l.waiters.get i).isSome ↔ place i = .waiting
  locked : ∀ i, place i = .holding → l.locked = true
  held : l.locked = true → ∃ i, place i = .holding
  alone : ∀ i j, place i = .holding → place j = .holding → i = j

theorem served_free : Served (Lock.free : Lock ι) fun _ => .outside where
  sound := Lock.sound_free
  waiting := by simp [Lock.free]
  locked := by simp
  held := by simp [Lock.free]
  alone := by simp

theorem Served.unlocked (served : Served l place) (nobody : ∀ i, place i ≠ .holding) :
    l.locked = false := by
  cases locked : l.locked with
  | false => rfl
  | true =>
    obtain ⟨i, holds⟩ := served.held locked
    exact absurd holds (nobody i)

theorem Served.nobody (served : Served l place) (unlocked : l.locked = false) (i : ι) :
    place i ≠ .holding := fun holds => by simp [served.locked i holds] at unlocked

theorem served_taken (served : Served l place) (outside : place i = .outside)
    (taken : (l.acquire i).1 = true) : Served (l.acquire i).2 (update place i .holding) := by
  have absent : l.waiters.get i = none := by
    simpa [outside] using served.waiting i
  have sound := Lock.sound_acquire served.sound absent
  rcases Lock.acquire_cases l i with ⟨result, unlocked, _⟩ | ⟨result, _⟩
  · have nobody := served.nobody unlocked
    rw [result] at sound ⊢
    refine ⟨sound, fun j => ?_, fun _ _ => rfl, fun _ => ⟨i, by simp⟩, fun j k hj hk => ?_⟩
    · by_cases same : j = i
      · simp [same, absent]
      · simpa [same] using served.waiting j
    · have own : ∀ j, update place i .holding j = .holding → j = i := by
        intro j holds
        by_contra other
        exact nobody j (by simpa [other] using holds)
      rw [own j hj, own k hk]
  · rw [result] at taken
    simp at taken

theorem served_refused (served : Served l place) (outside : place i = .outside)
    (refused : (l.acquire i).1 = false) : Served (l.acquire i).2 (update place i .waiting) := by
  have absent : l.waiters.get i = none := by
    simpa [outside] using served.waiting i
  have sound := Lock.sound_acquire served.sound absent
  have elsewhere : ∀ j, update place i .waiting j = .holding → place j = .holding := by
    intro j holds
    by_cases same : j = i
    · simp [same] at holds
    · simpa [same] using holds
  rcases Lock.acquire_cases l i with ⟨result, _⟩ | ⟨result, _⟩
  · rw [result] at refused
    simp at refused
  · rw [result] at sound ⊢
    refine ⟨sound, fun j => ?_, fun j holds => served.locked j (elsewhere j holds), ?_,
      fun j k hj hk => served.alone j k (elsewhere j hj) (elsewhere k hk)⟩
    · by_cases same : j = i
      · simp [same]
      · simpa [same, Dict.get_set_other _ (Ne.symm same)] using served.waiting j
    · intro locked
      obtain ⟨j, holds⟩ := served.held locked
      have other : j ≠ i := fun same => by simp [same, outside] at holds
      exact ⟨j, by simpa [other] using holds⟩

theorem served_release (served : Served l place) (holds : place i = .holding) :
    Served l.release (update place i .outside) where
  sound := Lock.sound_release served.sound (served.locked i holds)
  waiting := by
    intro j
    change ((wakeFirst l.waiters).get j).isSome ↔ _
    rw [isSome_get_wakeFirst, served.waiting]
    by_cases same : j = i
    · simp [same, holds]
    · simp [same]
  locked := by
    intro j also
    by_cases same : j = i
    · simp [same] at also
    · exact absurd (served.alone j i (by simpa [same] using also) holds) same
  held := by simp [Lock.release]
  alone := by
    intro j k hj hk
    by_cases same : j = i
    · simp [same] at hj
    · exact absurd (served.alone j i (by simpa [same] using hj) holds) same

theorem served_proceed (served : Served l place) (done : l.waiters.get i = some .done) :
    Served (l.proceed i) (update place i .holding) where
  sound := Lock.sound_proceed served.sound done
  waiting := by
    intro j
    change ((l.waiters.erase i).get j).isSome ↔ _
    by_cases same : j = i
    · simp [same]
    · simpa [same, Dict.get_erase_other _ (Ne.symm same)] using served.waiting j
  locked := fun _ _ => rfl
  held := fun _ => ⟨i, by simp⟩
  alone := by
    have nobody := served.nobody (served.sound.done i done).1
    have own : ∀ j, update place i .holding j = .holding → j = i := by
      intro j holds
      by_contra other
      exact nobody j (by simpa [other] using holds)
    exact fun j k hj hk => (own j hj).trans (own k hk).symm

theorem served_abandon (served : Served l place) (waits : place i = .waiting) :
    Served (l.abandon i) (update place i .outside) := by
  have elsewhere : ∀ j, update place i .outside j = .holding ↔ place j = .holding := by
    intro j
    by_cases same : j = i
    · simp [same, waits]
    · simp [same]
  have locked : (l.abandon i).locked = l.locked := by
    unfold Lock.abandon
    split <;> simp_all
  have queue : ∀ j, ((l.abandon i).waiters.get j).isSome = ((l.waiters.erase i).get j).isSome := by
    intro j
    unfold Lock.abandon
    split
    · rfl
    · exact isSome_get_wakeFirst _ j
  refine ⟨Lock.sound_abandon served.sound, fun j => ?_, fun j holds => ?_, fun taken => ?_,
    fun j k hj hk => ?_⟩
  · rw [queue]
    by_cases same : j = i
    · simp [same]
    · simpa [same, Dict.get_erase_other _ (Ne.symm same)] using served.waiting j
  · rw [locked]
    exact served.locked j ((elsewhere j).mp holds)
  · rw [locked] at taken
    obtain ⟨j, holds⟩ := served.held taken
    exact ⟨j, (elsewhere j).mpr holds⟩
  · exact served.alone j k ((elsewhere j).mp hj) ((elsewhere k).mp hk)

theorem served_cancel (served : Served l place) : Served (l.cancel i) place := by
  have locked : (l.cancel i).locked = l.locked := by
    unfold Lock.cancel
    split <;> rfl
  have queue : ∀ j, ((l.cancel i).waiters.get j).isSome = (l.waiters.get j).isSome := by
    intro j
    unfold Lock.cancel
    split
    · next pending =>
      by_cases same : i = j
      · obtain rfl := same
        simp [pending]
      · simp [Dict.get_set_other _ same]
    · rfl
  refine ⟨Lock.sound_cancel served.sound, fun j => by rw [queue, served.waiting],
    fun j holds => by rw [locked, served.locked j holds], fun taken => ?_, served.alone⟩
  exact served.held (locked ▸ taken)

theorem Served.exists_awake (served : Served l place) (waits : place i = .waiting) :
    (∃ j, place j = .holding) ∨
      ∃ j f, place j = .waiting ∧ l.waiters.get j = some f ∧ f ≠ .pending := by
  cases locked : l.locked with
  | true => exact .inl (served.held locked)
  | false =>
    refine .inr ?_
    have queued := (served.waiting i).mpr waits
    cases first : l.waiters.entries.head? with
    | none =>
      have empty : l.waiters.entries = [] := List.head?_eq_none_iff.mp first
      simp [Dict.get, empty] at queued
    | some p =>
      have found : l.waiters.get p.1 = some p.2 := get_of_head? first
      refine ⟨p.1, p.2, (served.waiting p.1).mp (by rw [found]; rfl), found, fun asleep => ?_⟩
      exact served.sound.awake locked p.1 (by rw [first, ← asleep])

end Users

end AgentTrust.AsyncLock
