import Mathlib.Data.List.Induction
import Mathlib.Tactic.Common

/-! Histories of the steps that act on one cell. A step puts a value into the cell, empties
it, or keeps the values that pass a test. After a run the cell holds the value put last,
if nothing emptied the cell since and every later test let the value pass. -/

namespace AgentTrust.WriteHistory

variable {υ ι : Type}

inductive Effect (υ : Type) where
  | put (v : υ)
  | remove
  | keep (test : υ → Bool)

def Effect.apply : Effect υ → Option υ → Option υ
  | .put v, _ => some v
  | .remove, _ => none
  | .keep test, cell => cell.filter test

/-- A step that lets the value `v` pass. -/
def Effect.Passes (v : υ) : Effect υ → Prop
  | .keep test => test v
  | _ => False

theorem Effect.apply_eq_some_iff {e : Effect υ} {cell : Option υ} {v : υ} :
    e.apply cell = some v ↔ e = .put v ∨ cell = some v ∧ e.Passes v := by
  cases e with
  | put u => simp [apply, Passes]
  | remove => simp [apply, Passes]
  | keep test => simp [apply, Passes, Option.filter_eq_some_iff]

@[simp] theorem filter_true (cell : Option υ) : cell.filter (fun _ => true) = cell := by
  cases cell <;> rfl

variable (effect : ι → Effect υ)

def cellAfter (run : List ι) : Option υ := run.foldl (fun cell i => (effect i).apply cell) none

/-- The run puts `v` into the cell, and `later` are the steps that follow. -/
def PutBefore (run : List ι) (v : υ) (later : List ι) : Prop :=
  ∃ earlier i, run = earlier ++ i :: later ∧ effect i = .put v

variable {effect}

theorem cellAfter_append_singleton (run : List ι) (i : ι) :
    cellAfter effect (run ++ [i]) = (effect i).apply (cellAfter effect run) := by
  rw [cellAfter, List.foldl_append]
  rfl

theorem putBefore_append_singleton {run : List ι} {i : ι} {v : υ} {later : List ι} :
    PutBefore effect (run ++ [i]) v (later ++ [i]) ↔ PutBefore effect run v later := by
  refine exists₂_congr fun earlier j => and_congr_left fun _ => ?_
  rw [← List.cons_append, ← List.append_assoc, List.append_left_inj]

theorem putBefore_nil {run : List ι} {i : ι} {v : υ} :
    PutBefore effect (run ++ [i]) v [] ↔ effect i = .put v := by
  constructor
  · rintro ⟨earlier, j, same, put⟩
    obtain ⟨_, last⟩ := List.append_inj' same rfl
    rwa [(List.singleton_inj.mp last)]
  · exact fun put => ⟨run, i, rfl, put⟩

/-- The cell holds exactly the value put last that every later step let pass. -/
theorem cellAfter_eq_some_iff {run : List ι} {v : υ} : cellAfter effect run = some v ↔
    ∃ later, PutBefore effect run v later ∧ ∀ i ∈ later, (effect i).Passes v := by
  induction run using List.reverseRecOn with
  | nil =>
    refine iff_of_false (by simp [cellAfter]) ?_
    rintro ⟨later, ⟨earlier, i, same, _⟩, _⟩
    simp at same
  | append_singleton run i ih =>
    rw [cellAfter_append_singleton, Effect.apply_eq_some_iff, ih]
    constructor
    · rintro (put | ⟨⟨later, put, passed⟩, passes⟩)
      · exact ⟨[], putBefore_nil.mpr put, by simp⟩
      · refine ⟨later ++ [i], putBefore_append_singleton.mpr put, ?_⟩
        simpa [or_imp, forall_and] using ⟨passed, passes⟩
    · rintro ⟨later, put, passed⟩
      rcases List.eq_nil_or_concat later with rfl | ⟨rest, j, rfl⟩
      · exact .inl (putBefore_nil.mp put)
      · obtain rfl : j = i := by
          obtain ⟨earlier, k, same, _⟩ := put
          rw [List.concat_eq_append, ← List.cons_append, ← List.append_assoc] at same
          exact (List.singleton_inj.mp (List.append_inj' same rfl).2).symm
        rw [List.concat_eq_append] at put passed
        exact .inr ⟨⟨rest, putBefore_append_singleton.mp put,
          fun k inside => passed k (by simp [inside])⟩, passed j (by simp)⟩

end AgentTrust.WriteHistory
