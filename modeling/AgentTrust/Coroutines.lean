import AgentTrust.AsyncLock

/-! Coroutines that run until they have to wait for a lock. Code between two awaits is run at
once, and a lock that is free is taken without an await, so code whose critical sections
contain no await runs to its end wherever it finds the lock free. -/

namespace AgentTrust.Coroutines

open OrderedDict AsyncLock

variable {ι σ α β : Type} [DecidableEq ι]

/-- What a coroutine does next: a step on the state `σ`, which may look at it first, or a use
of the lock. -/
inductive Code (σ α : Type) where
  | done (a : α)
  | act (change : σ → σ) (next : σ → Code σ α)
  | acquire (next : Code σ α)
  | release (next : Code σ α)

/-- Where a coroutine has stopped: at its end, or in the queue of the lock. -/
inductive Stopped (σ α : Type) where
  | finished (a : α)
  | waiting (next : Code σ α)

structure Shared (ι σ : Type) where
  state : σ
  lock : Lock ι

namespace Code

def bind : Code σ α → (α → Code σ β) → Code σ β
  | done a, k => k a
  | act change next, k => act change fun s => (next s).bind k
  | acquire next, k => acquire (next.bind k)
  | release next, k => release (next.bind k)

def run (i : ι) : Code σ α → Shared ι σ → Stopped σ α × Shared ι σ
  | done a, s => (.finished a, s)
  | act change next, s => (next s.state).run i { s with state := change s.state }
  | acquire next, s =>
    if (s.lock.acquire i).1 then next.run i { s with lock := (s.lock.acquire i).2 }
    else (.waiting next, { s with lock := (s.lock.acquire i).2 })
  | release next, s => next.run i { s with lock := s.lock.release }

/-- `async with lock:` around a step that is then looked back at. -/
def locked (change : σ → σ) (next : σ → Code σ α) : Code σ α :=
  acquire (act change fun s => release (next s))

theorem run_bind (i : ι) (code : Code σ α) (k : α → Code σ β) (s : Shared ι σ) :
    (code.bind k).run i s = match code.run i s with
      | (.finished a, t) => (k a).run i t
      | (.waiting next, t) => (.waiting (next.bind k), t) := by
  induction code generalizing s with
  | done a => rfl
  | act change next ih => exact ih s.state _
  | acquire next ih =>
    rw [bind, run, run]
    split
    · exact ih _
    · rfl
  | release next ih => exact ih _

/-- Started with the lock free, the code runs to its end and leaves it free. -/
def Ends (ι : Type) [DecidableEq ι] (code : Code σ α) (s : σ) (a : α) (t : σ) : Prop :=
  ∀ i : ι, code.run i ⟨s, .free⟩ = (.finished a, ⟨t, .free⟩)

theorem ends_done (a : α) (s : σ) : Ends ι (done a) s a s := fun _ => rfl

theorem ends_locked {change : σ → σ} {next : σ → Code σ α} {s t : σ} {a : α}
    (ends : Ends ι (next s) (change s) a t) : Ends ι (locked change next) s a t :=
  fun i => ends i

theorem ends_bind {code : Code σ α} {k : α → Code σ β} {s t u : σ} {a : α} {b : β}
    (first : Ends ι code s a t) (second : Ends ι (k a) t b u) : Ends ι (code.bind k) s b u := by
  intro i
  rw [run_bind, first i]
  exact second i

end Code

end AgentTrust.Coroutines
