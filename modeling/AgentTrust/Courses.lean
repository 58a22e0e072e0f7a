import AgentTrust.Effects

/-! The courses that computations take: which events they log, in whatever world, and in
which worlds they take the same course. The rules follow how computations are built. -/

namespace AgentTrust.Courses

open Effects

variable {ω ε τ α β : Type}

section Emissions

/-- In every world, the events that a computation adds to the log are of the language `L`. -/
def Emits (x : Run ω ε τ α) (L : List τ → Prop) : Prop :=
  ∀ w h, ∃ events, (x.run w h).log = h ++ events ∧ L events

def Then (L M : List τ → Prop) (l : List τ) : Prop := ∃ a b, l = a ++ b ∧ L a ∧ M b

def Maybe (L : List τ → Prop) (l : List τ) : Prop := l = [] ∨ L l

variable {x : Run ω ε τ α} {f : α → Run ω ε τ β} {L M : List τ → Prop}

theorem then_nil (first : L []) (second : M []) : Then L M [] := ⟨[], [], rfl, first, second⟩

theorem then_right {l : List τ} (first : L []) (second : M l) : Then L M l :=
  ⟨[], l, rfl, first, second⟩

theorem emits_mono (emits : Emits x L) (weaken : ∀ l, L l → M l) : Emits x M := by
  intro w h
  obtain ⟨events, logged, inside⟩ := emits w h
  exact ⟨events, logged, weaken events inside⟩

theorem emits_pure {a : α} (empty : L []) : Emits (pure a : Run ω ε τ α) L :=
  fun _ _ => ⟨[], (List.append_nil _).symm, empty⟩

theorem emits_lift {a : Except ε α} (empty : L []) : Emits (.lift a : Run ω ε τ α) L :=
  fun _ _ => ⟨[], (List.append_nil _).symm, empty⟩

theorem emits_raise {e : ε} (empty : L []) : Emits (.raise e : Run ω ε τ α) L :=
  fun _ _ => ⟨[], (List.append_nil _).symm, empty⟩

theorem emits_perform (e : τ) (answer : ω → List τ → Except ε α) :
    Emits (.perform e answer : Run ω ε τ α) (· = [e]) :=
  fun _ _ => ⟨[e], rfl, rfl⟩

theorem emits_bind (first : Emits x L) (rest : ∀ a, Emits (f a) M) (stop : M []) :
    Emits (x >>= f) (Then L M) := by
  intro w h
  obtain ⟨events, logged, inside⟩ := first w h
  cases result : (x.run w h).result with
  | error e =>
    refine ⟨events, ?_, events, [], (List.append_nil _).symm, inside, stop⟩
    rw [Run.run_bind_error w h result]
    exact logged
  | ok a =>
    obtain ⟨more, logged', inside'⟩ := rest a w (x.run w h).log
    refine ⟨events ++ more, ?_, events, more, rfl, inside, inside'⟩
    rw [Run.run_bind_ok w h result, logged', logged, List.append_assoc]

theorem emits_silent (first : Emits x (· = [])) (rest : ∀ a, Emits (f a) M) (stop : M []) :
    Emits (x >>= f) M := by
  refine emits_mono (emits_bind first rest stop) ?_
  rintro l ⟨a, b, rfl, rfl, inside⟩
  exact inside

theorem emits_last (first : Emits x L) (rest : ∀ a, Emits (f a) (· = [])) :
    Emits (x >>= f) L := by
  refine emits_mono (emits_bind first rest rfl) ?_
  rintro l ⟨a, b, rfl, inside, rfl⟩
  rwa [List.append_nil]

theorem emits_attempt {handler : ε → Run ω ε τ α} (body : Emits x L)
    (handled : ∀ e, Emits (handler e) (· = [])) : Emits (.attempt x handler) L := by
  intro w h
  obtain ⟨events, logged, inside⟩ := body w h
  refine ⟨events, ?_, inside⟩
  rw [Run.run_attempt]
  cases (x.run w h).result with
  | ok a => exact logged
  | error e =>
    obtain ⟨more, logged', rfl⟩ := handled e w (x.run w h).log
    rw [List.append_nil] at logged'
    exact logged'.trans logged

end Emissions

section Leading

/-- It always comes to a value, with events of the language of that value. -/
def Leads (x : Run ω ε τ α) (K : α → List τ → Prop) : Prop :=
  ∀ w h, ∃ a events, x.run w h = ⟨.ok a, h ++ events⟩ ∧ K a events

variable {x : Run ω ε τ α} {f : α → Run ω ε τ β} {L : List τ → Prop} {K : β → List τ → Prop}

theorem leads_pure {b : β} (empty : K b []) : Leads (pure b : Run ω ε τ β) K :=
  fun _ h => ⟨b, [], by rw [List.append_nil]; rfl, empty⟩

theorem leads_caught {x : Run ω ε τ β} (body : Emits x L) (caught : ε → β) :
    Leads (.attempt x fun e => pure (caught e)) fun _ => L := by
  intro w h
  obtain ⟨events, logged, inside⟩ := body w h
  rw [Run.run_attempt]
  cases run : x.run w h with
  | mk result log =>
    rw [run] at logged
    subst logged
    cases result with
    | ok a => exact ⟨a, events, rfl, inside⟩
    | error e => exact ⟨caught e, events, rfl, inside⟩

theorem emits_of_leads {y : Run ω ε τ β} (leads : Leads y fun _ => L) : Emits y L := by
  intro w h
  obtain ⟨b, events, run, inside⟩ := leads w h
  exact ⟨events, by rw [run], inside⟩

theorem leads_const {y : Run ω ε τ β} {a : α} (first : Leads y fun _ => L) :
    Leads (y >>= fun _ => pure a) fun b l => b = a ∧ L l := by
  intro w h
  obtain ⟨b, events, run, inside⟩ := first w h
  exact ⟨a, events, by rw [Run.run_bind, run]; rfl, rfl, inside⟩

theorem leads_mono {y : Run ω ε τ β} {K' : β → List τ → Prop} (leads : Leads y K)
    (weaken : ∀ b l, K b l → K' b l) : Leads y K' := by
  intro w h
  obtain ⟨b, events, run, inside⟩ := leads w h
  exact ⟨b, events, run, weaken b events inside⟩

theorem leads_attempt {handler : ε → Run ω ε τ β} (first : Emits x L)
    (rest : ∀ a, Leads (f a) fun b l => ∀ events, L events → K b (events ++ l))
    (caught : ∀ e, Leads (handler e) fun b l => ∀ events, L events → K b (events ++ l)) :
    Leads (.attempt (x >>= f) handler) K := by
  intro w h
  obtain ⟨events, logged, inside⟩ := first w h
  cases result : (x.run w h).result with
  | error e =>
    obtain ⟨b, more, run, inside'⟩ := caught e w (h ++ events)
    refine ⟨b, events ++ more, ?_, inside' events inside⟩
    rw [Run.run_attempt_error w h (e := e), Run.run_bind_error w h result]
    · rw [logged, run, List.append_assoc]
    · rw [Run.run_bind_error w h result]
  | ok a =>
    obtain ⟨b, more, run, inside'⟩ := rest a w (h ++ events)
    refine ⟨b, events ++ more, ?_, inside' events inside⟩
    rw [Run.run_attempt, Run.run_bind_ok w h result, logged, run, List.append_assoc]

theorem leads_bind {y : Run ω ε τ β} {g : β → Run ω ε τ α} (first : Leads y K)
    (rest : ∀ b, Emits (g b) fun l => ∀ events, K b events → L (events ++ l)) :
    Emits (y >>= g) L := by
  intro w h
  obtain ⟨b, events, run, inside⟩ := first w h
  obtain ⟨more, logged, inside'⟩ := rest b w (h ++ events)
  refine ⟨events ++ more, ?_, inside' events inside⟩
  rw [Run.run_bind, run, Run.next_ok, logged, List.append_assoc]

end Leading

section Steadiness

variable (R : ω → ω → Prop)

/-- In worlds that `R` relates a computation takes the same course. -/
def Steady (x : Run ω ε τ α) : Prop := ∀ w w', R w w' → ∀ h, x.run w h = x.run w' h

def SteadyLog (x : Run ω ε τ α) : Prop := ∀ w w', R w w' → ∀ h, (x.run w h).log = (x.run w' h).log

variable {R} {x : Run ω ε τ α} {f : α → Run ω ε τ β} {handler : ε → Run ω ε τ α}

theorem steady_pure (a : α) : Steady R (pure a : Run ω ε τ α) := fun _ _ _ _ => rfl

theorem steady_lift (a : Except ε α) : Steady R (.lift a : Run ω ε τ α) := fun _ _ _ _ => rfl

theorem steady_raise (e : ε) : Steady R (.raise e : Run ω ε τ α) := fun _ _ _ _ => rfl

theorem steady_perform {e : τ} {answer : ω → List τ → Except ε α}
    (same : ∀ w w', R w w' → ∀ h, answer w h = answer w' h) :
    Steady R (.perform e answer : Run ω ε τ α) := by
  intro w w' related h
  rw [Run.run_perform, Run.run_perform, same w w' related h]

theorem steady_bind (first : Steady R x) (rest : ∀ a, Steady R (f a)) : Steady R (x >>= f) := by
  intro w w' related h
  rw [Run.run_bind, Run.run_bind, first w w' related h, Run.next, Run.next]
  cases (x.run w' h).result with
  | ok a => exact rest a w w' related _
  | error e => rfl

theorem steady_attempt (body : Steady R x) (handled : ∀ e, Steady R (handler e)) :
    Steady R (.attempt x handler) := by
  intro w w' related h
  rw [Run.run_attempt, Run.run_attempt, body w w' related h]
  cases (x.run w' h).result with
  | ok a => rfl
  | error e => exact handled e w w' related _

theorem steadyLog_bind (first : Steady R x) (rest : ∀ a, SteadyLog R (f a)) :
    SteadyLog R (x >>= f) := by
  intro w w' related h
  rw [Run.run_bind, Run.run_bind, first w w' related h, Run.next, Run.next]
  cases (x.run w' h).result with
  | ok a => exact rest a w w' related _
  | error e => rfl

theorem steadyLog_map (body : SteadyLog R x) (b : β) : SteadyLog R (x >>= fun _ => pure b) := by
  intro w w' related h
  rw [Run.log_bind w h fun _ _ => rfl, Run.log_bind w' h fun _ _ => rfl]
  exact body w w' related h

theorem steady_caught {x : Run ω ε τ Unit} (body : SteadyLog R x) :
    Steady R (.attempt x fun _ => pure ()) := by
  have dropped : ∀ v h, (Run.attempt x fun _ => pure ()).run v h = ⟨.ok (), (x.run v h).log⟩ := by
    intro v h
    rw [Run.run_attempt]
    cases x.run v h with
    | mk result log => cases result <;> rfl
  intro w w' related h
  rw [dropped, dropped, body w w' related h]

end Steadiness

end AgentTrust.Courses
