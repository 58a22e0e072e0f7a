import AgentTrust.Effects

/-! Stateful programs whose steps may fail. The steps taken are recorded in order; a fault
at a position makes the step there raise an exception in place of taking effect. -/

namespace AgentTrust.FaultySteps

open Effects

/-- The exception that the step at a position raises, if it fails. -/
abbrev Faults (ε : Type) := Nat → Option ε

structure Traced (κ σ : Type) where
  state : σ
  steps : List κ

abbrev Prog (ε κ σ α : Type) := EStateM ε (Traced κ σ) α

variable {ε κ σ α β : Type}

def step (faults : Faults ε) (k : κ) : Prog ε κ σ Unit := fun s =>
  match faults s.steps.length with
  | some e => .error e s
  | none => .ok () { s with steps := s.steps ++ [k] }

def current : Prog ε κ σ σ := fun s => .ok s.state s

def update (f : σ → σ) : Prog ε κ σ Unit := fun s => .ok () { s with state := f s.state }

@[simp] theorem run_current (s : Traced κ σ) :
    (current : Prog ε κ σ σ).run s = .ok s.state s := rfl

@[simp] theorem run_update (f : σ → σ) (s : Traced κ σ) :
    (update f : Prog ε κ σ Unit).run s = .ok () { s with state := f s.state } := rfl

theorem step_ok {faults : Faults ε} {s : Traced κ σ} (quiet : faults s.steps.length = none)
    (k : κ) : (step faults k).run s = .ok () { s with steps := s.steps ++ [k] } := by
  rw [EStateM.run, step, quiet]

theorem step_error {faults : Faults ε} {s : Traced κ σ} {e : ε}
    (struck : faults s.steps.length = some e) (k : κ) : (step faults k).run s = .error e s := by
  rw [EStateM.run, step, struck]

/-- How a program ends: its value or exception, and the state it leaves. -/
def Ends (x : Prog ε κ σ α) (s : Traced κ σ) (Q : Except ε α → σ → Prop) : Prop :=
  match x.run s with
  | .ok a s' => Q (.ok a) s'.state
  | .error e s' => Q (.error e) s'.state

section Rules

variable {x : Prog ε κ σ α} {s : Traced κ σ} {Q R : Except ε α → σ → Prop}

theorem ends_mono (ends : Ends x s Q) (weaken : ∀ r t, Q r t → R r t) : Ends x s R := by
  unfold Ends at *
  cases h : x.run s with
  | ok a s' =>
    rw [h] at ends
    exact weaken _ _ ends
  | error e s' =>
    rw [h] at ends
    exact weaken _ _ ends

theorem ends_and (left : Ends x s Q) (right : Ends x s R) : Ends x s fun r t => Q r t ∧ R r t := by
  unfold Ends at *
  cases h : x.run s with
  | ok a s' =>
    rw [h] at left right
    exact ⟨left, right⟩
  | error e s' =>
    rw [h] at left right
    exact ⟨left, right⟩

theorem ends_of_forall (holds : ∀ r t, Q r t) : Ends x s Q := by
  unfold Ends
  cases x.run s with
  | ok a s' => exact holds _ _
  | error e s' => exact holds _ _

theorem ends_ok {a : α} {s' : Traced κ σ} (run : x.run s = .ok a s') :
    Ends x s Q ↔ Q (.ok a) s'.state := by
  rw [Ends, run]

theorem ends_error {e : ε} {s' : Traced κ σ} (run : x.run s = .error e s') :
    Ends x s Q ↔ Q (.error e) s'.state := by
  rw [Ends, run]

theorem run_bind_ok {f : α → Prog ε κ σ β} {a : α} {s' : Traced κ σ} (run : x.run s = .ok a s') :
    (x >>= f).run s = (f a).run s' := by
  rw [EStateM.run_bind, run]

theorem run_bind_error {f : α → Prog ε κ σ β} {e : ε} {s' : Traced κ σ}
    (run : x.run s = .error e s') : (x >>= f).run s = .error e s' := by
  rw [EStateM.run_bind, run]

theorem ends_bind {f : α → Prog ε κ σ β} {Q : Except ε β → σ → Prop} :
    Ends (x >>= f) s Q ↔ match x.run s with
      | .ok a s' => Ends (f a) s' Q
      | .error e s' => Q (.error e) s'.state := by
  cases run : x.run s with
  | ok a s' => simp only [Ends, run_bind_ok run]
  | error e s' => simp only [Ends, run_bind_error run]

theorem ends_seq {f : α → Prog ε κ σ β} {R : Except ε β → σ → Prop} (first : Ends x s Q)
    (rest : ∀ a s', Q (.ok a) s'.state → Ends (f a) s' R)
    (failed : ∀ e t, Q (.error e) t → R (.error e) t) : Ends (x >>= f) s R := by
  unfold Ends at first
  rw [ends_bind]
  cases run : x.run s with
  | ok a s' =>
    rw [run] at first
    exact rest a s' first
  | error e s' =>
    rw [run] at first
    exact failed e _ first

theorem ends_step {faults : Faults ε} {k : κ} {f : Unit → Prog ε κ σ α} :
    Ends (step faults k >>= f) s Q ↔ match faults s.steps.length with
      | some e => Q (.error e) s.state
      | none => Ends (f ()) { s with steps := s.steps ++ [k] } Q := by
  cases at_step : faults s.steps.length with
  | some e => rw [ends_bind, step_error at_step]
  | none => rw [ends_bind, step_ok at_step]

theorem ends_step_ok {faults : Faults ε} {k : κ} {f : Unit → Prog ε κ σ α}
    (quiet : faults s.steps.length = none) :
    Ends (step faults k >>= f) s Q ↔ Ends (f ()) { s with steps := s.steps ++ [k] } Q := by
  rw [ends_step, quiet]

theorem ends_discard {Q : Except ε Unit → σ → Prop} :
    Ends (do let _ ← x) s Q ↔ Ends x s fun r t => Q (r.map fun _ => ()) t := by
  rw [ends_bind, Ends]
  cases x.run s <;> rfl

/-- A handler that only raises: a value is that of the program, an exception is one that the
handler makes of its exception, and the state is as the program leaves it. -/
theorem ends_translated {handler : ε → ε} :
    Ends (tryCatch x fun e => throw (handler e)) s Q ↔
      Ends x s fun r t => Q (r.mapError handler) t := by
  have caught : (tryCatch x fun e => throw (handler e)).run s =
      match x.run s with
      | .ok a s' => .ok a s'
      | .error e s' => .error (handler e) s' := by
    change EStateM.tryCatch x _ s = _
    rw [EStateM.tryCatch, EStateM.run]
    cases x s <;> rfl
  rw [Ends, caught, Ends]
  cases x.run s with
  | ok a s' => rfl
  | error e s' => rfl

end Rules

section Raising

variable {P : ε → Prop} {faults : Faults ε}

def Raises (P : ε → Prop) (x : Prog ε κ σ α) : Prop :=
  ∀ s, Ends x s fun r _ => RaisesOnly P r

theorem raises_pure (a : α) : Raises P (pure a : Prog ε κ σ α) := fun _ => raisesOnly_ok a

theorem raises_throw {e : ε} (raised : P e) : Raises P (throw e : Prog ε κ σ α) :=
  fun _ => (raisesOnly_error e).mpr raised

theorem raises_step (faulty : ∀ i e, faults i = some e → P e) (k : κ) :
    Raises P (step faults k : Prog ε κ σ Unit) := by
  intro s
  cases struck : faults s.steps.length with
  | some e =>
    exact (ends_error (step_error struck k)).mpr ((raisesOnly_error e).mpr (faulty _ e struck))
  | none => exact (ends_ok (step_ok struck k)).mpr (raisesOnly_ok ())

theorem raises_bind {x : Prog ε κ σ α} {f : α → Prog ε κ σ β} (first : Raises P x)
    (rest : ∀ a, Raises P (f a)) : Raises P (x >>= f) := by
  intro s
  have head := first s
  unfold Ends at head
  rw [ends_bind]
  cases run : x.run s with
  | ok a s' => exact rest a s'
  | error e s' =>
    rw [run] at head
    exact (raisesOnly_error e).mpr ((raisesOnly_error e).mp head)

theorem raises_translated {x : Prog ε κ σ α} {handler : ε → ε}
    (translated : Raises (fun e => P (handler e)) x) :
    Raises P (tryCatch x fun e => throw (handler e)) := by
  intro s
  exact ends_translated.mpr (ends_mono (translated s) fun r _ => raisesOnly_mapError.mpr)

theorem raises_of_forall {x : Prog ε κ σ α} (any : ∀ e, P e) : Raises P x :=
  fun _ => ends_of_forall fun _ _ e _ => any e

end Raising

section Sequences

variable {faults : Faults ε}

def Quiet (faults : Faults ε) (first count : Nat) : Prop := ∀ i < count, faults (first + i) = none

theorem quiet_succ {first count : Nat} : Quiet faults first (count + 1) ↔
    faults first = none ∧ Quiet faults (first + 1) count := by
  constructor
  · intro quiet
    refine ⟨quiet 0 (by omega), fun i inside => ?_⟩
    rw [Nat.add_right_comm]
    exact quiet (i + 1) (by omega)
  · rintro ⟨head, tail⟩ i inside
    cases i with
    | zero => exact head
    | succ i =>
      rw [← Nat.add_assoc, Nat.add_right_comm]
      exact tail i (by omega)

theorem quiet_add {first m n : Nat} :
    Quiet faults first (m + n) ↔ Quiet faults first m ∧ Quiet faults (first + m) n := by
  constructor
  · intro quiet
    refine ⟨fun i inside => quiet i (by omega), fun i inside => ?_⟩
    rw [Nat.add_assoc]
    exact quiet (m + i) (by omega)
  · rintro ⟨head, tail⟩ i inside
    by_cases early : i < m
    · exact head i early
    · have later := tail (i - m) (by omega)
      rwa [show first + m + (i - m) = first + i by omega] at later

theorem steps_quiet {ks : List κ} {s : Traced κ σ}
    (quiet : Quiet faults s.steps.length ks.length) :
    (forM ks (step faults)).run s = .ok () { s with steps := s.steps ++ ks } := by
  induction ks generalizing s with
  | nil => simp [List.forM_nil]
  | cons k ks ih =>
    obtain ⟨head, tail⟩ := quiet_succ.mp quiet
    rw [List.forM_cons, run_bind_ok (step_ok head k), ih (by simpa using tail)]
    simp

/-- The first step that fails ends a stretch and leaves the state as it was. -/
theorem steps_struck {ks : List κ} {s : Traced κ σ}
    (struck : ¬ Quiet faults s.steps.length ks.length) :
    ∃ i e s', faults i = some e ∧ (forM ks (step faults)).run s = .error e s' ∧
      s'.state = s.state := by
  induction ks generalizing s with
  | nil => exact absurd (fun i inside => by simp at inside) struck
  | cons k ks ih =>
    rw [List.length_cons, quiet_succ, not_and] at struck
    cases head : faults s.steps.length with
    | some e =>
      exact ⟨_, e, s, head, by rw [List.forM_cons, run_bind_error (step_error head k)], rfl⟩
    | none =>
      obtain ⟨i, e, s', raised, ended, same⟩ :=
        ih (s := { s with steps := s.steps ++ [k] }) (by simpa using struck head)
      exact ⟨i, e, s', raised, by
        rw [List.forM_cons, run_bind_ok (step_ok head k), ended], same⟩

end Sequences

end AgentTrust.FaultySteps
