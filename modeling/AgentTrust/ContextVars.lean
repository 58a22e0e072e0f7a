import Mathlib.Logic.Function.Basic
import Mathlib.Tactic.Common

/-! A context variable. Every task has a context of its own, copied from that of the task
that makes it. Setting the variable in a context gives a token, with which it can be reset
there once to what it was. -/

namespace AgentTrust.ContextVars

structure Token (κ ν : Type) where
  context : κ
  old : ν
  used : Bool

structure Var (κ ν : Type) where
  value : κ → ν
  tokens : List (Token κ ν)

inductive ResetError where
  | missing
  | used
  | otherContext
  deriving DecidableEq

variable {κ ν : Type} [DecidableEq κ]

def Var.set (x : Var κ ν) (k : κ) (v : ν) : Nat × Var κ ν :=
  (x.tokens.length,
    ⟨Function.update x.value k v, x.tokens ++ [⟨k, x.value k, false⟩]⟩)

def Var.reset (x : Var κ ν) (k : κ) (i : Nat) : Except ResetError (Var κ ν) :=
  match x.tokens[i]? with
  | none => .error .missing
  | some t =>
    if t.used then .error .used
    else if t.context ≠ k then .error .otherContext
    else .ok ⟨Function.update x.value k t.old, x.tokens.set i { t with used := true }⟩

/-- The context of a task `k'` that the task `k` makes. -/
def Var.copy (x : Var κ ν) (k k' : κ) : Var κ ν :=
  { x with value := Function.update x.value k' (x.value k) }

def Var.Resets (x : Var κ ν) (k : κ) (i : Nat) (old : ν) : Prop :=
  x.tokens[i]? = some ⟨k, old, false⟩

omit [DecidableEq κ] in
theorem Var.lt_of_resets {x : Var κ ν} {k : κ} {i : Nat} {old : ν} (resets : x.Resets k i old) :
    i < x.tokens.length :=
  (List.getElem?_eq_some_iff.mp resets).1

variable {x y : Var κ ν} {k : κ} {i : Nat} {old : ν}

theorem Var.reset_eq_ok (resets : x.Resets k i old) : x.reset k i =
    .ok ⟨Function.update x.value k old, x.tokens.set i ⟨k, old, true⟩⟩ := by
  rw [Var.reset, resets]
  simp

theorem Var.resets_set {k' : κ} {v : ν} (resets : x.Resets k i old) :
    (x.set k' v).2.Resets k i old := by
  unfold Var.Resets Var.set
  rw [List.getElem?_append_left (Var.lt_of_resets resets)]
  exact resets

theorem Var.resets_new (x : Var κ ν) (k : κ) (v : ν) :
    (x.set k v).2.Resets k (x.set k v).1 (x.value k) := by
  simp [Var.Resets, Var.set]

end AgentTrust.ContextVars
