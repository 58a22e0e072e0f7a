import Mathlib.Tactic.Common

/-! Computations that raise exceptions `ε` and leave a log of events `τ` in a world
`ω`. The world answers each event with a function of everything logged before it,
so one world is one complete behaviour of the surroundings, failures included. -/

namespace AgentTrust.Effects

structure Outcome (ε τ α : Type) where
  result : Except ε α
  log : List τ

section Results

variable {ε α β : Type}

theorem bind_eq_ok {x : Except ε α} {f : α → Except ε β} {b : β} :
    (x >>= f) = .ok b ↔ ∃ a, x = .ok a ∧ f a = .ok b := by
  cases x with
  | ok a => simp [bind, Except.bind]
  | error e => simp [bind, Except.bind]

@[simp] theorem bind_ok (a : α) (f : α → Except ε β) : (.ok a >>= f) = f a := rfl

theorem toOption_eq_some {x : Except ε α} {a : α} : x.toOption = some a ↔ x = .ok a := by
  cases x <;> simp [Except.toOption]

theorem mapM_ok {f : α → Except ε β} {g : α → β} {xs : List α} (h : ∀ x ∈ xs, f x = .ok (g x)) :
    xs.mapM f = .ok (xs.map g) := by
  induction xs with
  | nil => rfl
  | cons x xs ih =>
    rw [List.mapM_cons, h x (by simp), ih fun y hy => h y (by simp [hy])]
    rfl

theorem ok_of_mapM_ok {f : α → Except ε β} {xs : List α} {ys : List β} (h : xs.mapM f = .ok ys)
    {x : α} (hx : x ∈ xs) : ∃ y, f x = .ok y := by
  induction xs generalizing ys with
  | nil => simp at hx
  | cons a xs ih =>
    rw [List.mapM_cons] at h
    obtain ⟨b, head, h⟩ := bind_eq_ok.mp h
    obtain ⟨bs, tail, _⟩ := bind_eq_ok.mp h
    rcases List.mem_cons.mp hx with rfl | hx
    · exact ⟨b, head⟩
    · exact ih tail hx

@[simp] theorem bind_error (e : ε) (f : α → Except ε β) : (.error e >>= f) = .error e := rfl

/-- Every exception that is raised satisfies `P`. -/
def RaisesOnly (P : ε → Prop) (x : Except ε α) : Prop := ∀ e, x = .error e → P e

variable {P : ε → Prop}

@[simp] theorem raisesOnly_ok (a : α) : RaisesOnly P (.ok a) := fun _ h => by simp at h

@[simp] theorem raisesOnly_error (e : ε) : RaisesOnly P (.error e : Except ε α) ↔ P e :=
  ⟨fun h => h e rfl, fun h _ same => Except.error.inj same ▸ h⟩

theorem raisesOnly_bind {x : Except ε α} {f : α → Except ε β} :
    RaisesOnly P (x >>= f) ↔ RaisesOnly P x ∧ ∀ a, x = .ok a → RaisesOnly P (f a) := by
  cases x with
  | ok a => simp
  | error e => simp

theorem raisesOnly_map {x : Except ε α} {f : α → β} :
    RaisesOnly P (x.map f) ↔ RaisesOnly P x := by
  cases x with
  | ok a => exact iff_of_true (raisesOnly_ok _) (raisesOnly_ok _)
  | error e => exact (raisesOnly_error e).trans (raisesOnly_error e).symm

theorem raisesOnly_mapError {η : Type} {P : η → Prop} {x : Except ε α} {f : ε → η} :
    RaisesOnly P (x.mapError f) ↔ RaisesOnly (fun e => P (f e)) x := by
  cases x with
  | ok a => exact iff_of_true (raisesOnly_ok _) (raisesOnly_ok _)
  | error e =>
    exact (raisesOnly_error _).trans (raisesOnly_error (P := fun e => P (f e)) e).symm

theorem raisesOnly_mono {Q : ε → Prop} {x : Except ε α} (weaken : ∀ e, P e → Q e)
    (only : RaisesOnly P x) : RaisesOnly Q x := fun e raised => weaken e (only e raised)

/-- `P` holds of every item that is reached: those before it satisfy `Q`. -/
def InOrder (P Q : α → Prop) : List α → Prop
  | [] => True
  | x :: xs => P x ∧ (Q x → InOrder P Q xs)

theorem inOrder_of_forall {P Q : α → Prop} {xs : List α} (h : ∀ x ∈ xs, P x) :
    InOrder P Q xs := by
  induction xs with
  | nil => trivial
  | cons x xs ih => exact ⟨h x (by simp), fun _ => ih fun y hy => h y (by simp [hy])⟩

theorem inOrder_congr {P P' Q : α → Prop} {xs : List α} (h : ∀ x ∈ xs, P x ↔ P' x) :
    InOrder P Q xs ↔ InOrder P' Q xs := by
  induction xs with
  | nil => rfl
  | cons x xs ih =>
    rw [InOrder, InOrder, h x (by simp), ih fun y hy => h y (by simp [hy])]

theorem raisesOnly_mapM {f : α → Except ε β} {xs : List α} :
    RaisesOnly P (xs.mapM f) ↔
      InOrder (fun x => RaisesOnly P (f x)) (fun x => ∃ y, f x = .ok y) xs := by
  induction xs with
  | nil => exact iff_of_true (raisesOnly_ok _) trivial
  | cons x xs ih =>
    rw [List.mapM_cons, raisesOnly_bind, InOrder, ← ih]
    refine and_congr_right fun _ => Iff.trans ?_ exists_imp.symm
    refine forall₂_congr fun y _ => ?_
    rw [raisesOnly_bind]
    exact and_iff_left fun ys _ => raisesOnly_ok _

end Results

structure Run (ω ε τ α : Type) where
  run : ω → List τ → Outcome ε τ α

namespace Run

variable {ω ε τ α β : Type}

def next (o : Outcome ε τ α) (k : α → List τ → Outcome ε τ β) : Outcome ε τ β :=
  match o.result with
  | .ok a => k a o.log
  | .error e => ⟨.error e, o.log⟩

def pure (a : α) : Run ω ε τ α := ⟨fun _ h => ⟨.ok a, h⟩⟩

def bind (x : Run ω ε τ α) (f : α → Run ω ε τ β) : Run ω ε τ β :=
  ⟨fun w h => next (x.run w h) fun a l => (f a).run w l⟩

instance : Monad (Run ω ε τ) where
  pure := pure
  bind := bind

def raise (e : ε) : Run ω ε τ α := ⟨fun _ h => ⟨.error e, h⟩⟩

def lift (x : Except ε α) : Run ω ε τ α := ⟨fun _ h => ⟨x, h⟩⟩

/-- `try: x except Exception as e: handler(e)`. -/
def attempt (x : Run ω ε τ α) (handler : ε → Run ω ε τ α) : Run ω ε τ α :=
  ⟨fun w h => match (x.run w h).result with
    | .ok _ => x.run w h
    | .error e => (handler e).run w (x.run w h).log⟩

/-- Log an event; the world answers it. -/
def perform (e : τ) (answer : ω → List τ → Except ε α) : Run ω ε τ α :=
  ⟨fun w h => ⟨answer w h, h ++ [e]⟩⟩

section Equations

variable (w : ω) (h : List τ)

@[simp] theorem next_ok (a : α) (l : List τ) (k : α → List τ → Outcome ε τ β) :
    next ⟨.ok a, l⟩ k = k a l := rfl

@[simp] theorem next_error (e : ε) (l : List τ) (k : α → List τ → Outcome ε τ β) :
    next (⟨.error e, l⟩ : Outcome ε τ α) k = ⟨.error e, l⟩ := rfl

@[simp] theorem run_pure (a : α) : (Pure.pure a : Run ω ε τ α).run w h = ⟨.ok a, h⟩ := rfl

@[simp] theorem run_bind (x : Run ω ε τ α) (f : α → Run ω ε τ β) :
    (x >>= f).run w h = next (x.run w h) fun a l => (f a).run w l := rfl

@[simp] theorem run_raise (e : ε) : (raise e : Run ω ε τ α).run w h = ⟨.error e, h⟩ := rfl

@[simp] theorem run_lift (x : Except ε α) : (lift x : Run ω ε τ α).run w h = ⟨x, h⟩ := rfl

@[simp] theorem run_perform (e : τ) (answer : ω → List τ → Except ε α) :
    (perform e answer).run w h = ⟨answer w h, h ++ [e]⟩ := rfl

theorem run_lift_lift (x : Except ε α) (f : α → Except ε β) :
    (lift x >>= fun a => lift (f a) : Run ω ε τ β).run w h = ⟨x >>= f, h⟩ := by
  cases x <;> rfl

theorem run_lift_pure (x : Except ε α) (f : α → β) :
    (lift x >>= fun a => Pure.pure (f a) : Run ω ε τ β).run w h = ⟨x.map f, h⟩ := by
  cases x <;> rfl

theorem run_attempt (x : Run ω ε τ α) (handler : ε → Run ω ε τ α) :
    (attempt x handler).run w h = match (x.run w h).result with
      | .ok _ => x.run w h
      | .error e => (handler e).run w (x.run w h).log := rfl

theorem run_attempt_ok {x : Run ω ε τ α} {a : α} {log : List τ} (ok : x.run w h = ⟨.ok a, log⟩)
    (handler : ε → Run ω ε τ α) : (attempt x handler).run w h = ⟨.ok a, log⟩ := by
  rw [run_attempt, ok]

theorem run_attempt_error {x : Run ω ε τ α} {e : ε} (error : (x.run w h).result = .error e)
    (handler : ε → Run ω ε τ α) :
    (attempt x handler).run w h = (handler e).run w (x.run w h).log := by
  rw [run_attempt, error]

theorem raisesOnly_attempt {P : ε → Prop} {x : Run ω ε τ α} {handler : ε → Run ω ε τ α} :
    RaisesOnly P ((attempt x handler).run w h).result ↔ ∀ e, (x.run w h).result = .error e →
      RaisesOnly P ((handler e).run w (x.run w h).log).result := by
  rw [run_attempt]
  cases result : (x.run w h).result with
  | ok a => simp [result]
  | error e => simp

theorem run_bind_ok {x : Run ω ε τ α} {a : α} (ok : (x.run w h).result = .ok a)
    (f : α → Run ω ε τ β) : (x >>= f).run w h = (f a).run w (x.run w h).log := by
  rw [run_bind, next, ok]

theorem run_bind_error {x : Run ω ε τ α} {e : ε} (error : (x.run w h).result = .error e)
    (f : α → Run ω ε τ β) : (x >>= f).run w h = ⟨.error e, (x.run w h).log⟩ := by
  rw [run_bind, next, error]

theorem run_bind_eq_ok {x : Run ω ε τ α} {f : α → Run ω ε τ β} {b : β} {log : List τ} :
    (x >>= f).run w h = ⟨.ok b, log⟩ ↔
      ∃ a l, x.run w h = ⟨.ok a, l⟩ ∧ (f a).run w l = ⟨.ok b, log⟩ := by
  rw [run_bind, next]
  cases first : x.run w h with
  | mk result l =>
    cases result with
    | ok a => simp
    | error e => simp

theorem log_attempt {x : Run ω ε τ α} {handler : ε → Run ω ε τ α}
    (silent : ∀ e l, ((handler e).run w l).log = l) :
    ((attempt x handler).run w h).log = (x.run w h).log := by
  rw [run_attempt]
  cases (x.run w h).result with
  | ok a => rfl
  | error e => exact silent e _

theorem log_bind {x : Run ω ε τ α} {f : α → Run ω ε τ β}
    (silent : ∀ a l, ((f a).run w l).log = l) : ((x >>= f).run w h).log = (x.run w h).log := by
  rw [run_bind, next]
  cases (x.run w h).result with
  | ok a => exact silent a _
  | error e => rfl

end Equations

end Run

end AgentTrust.Effects
