import AgentTrust.ContextVars
import AgentTrust.Runs
import AgentTrust.PyText

/-! The current task. Entering a task context makes it current in the asyncio task that
enters it, and leaving it makes current what was so before, by the token that the context
keeps; the commit comes after. A context entered again keeps the newer token only, so that
the earlier of its blocks cannot be left as it should. -/

namespace AgentTrust.CurrentTask

open PyText Runs ContextVars

section Source

variable {κ ο : Type} [DecidableEq κ] [DecidableEq ο]

/-- `_current_atp_task`, and the contexts' `_task_ctx_token` and `response`. -/
structure Objects (κ ο : Type) where
  current : Var κ (Option ο)
  token : ο → Option Nat
  response : ο → Option PyStr

def aenter (s : Objects κ ο) (k : κ) (o : ο) : Objects κ ο :=
  let set := s.current.set k (some o)
  { s with
    current := set.2
    token := Function.update s.token o (some set.1) }

/-- `__aexit__`: what its `reset` raises, or whether it goes on to `_commit`. -/
def aexit (s : Objects κ ο) (k : κ) (o : ο) (raised : Bool) :
    Except ResetError Bool × Objects κ ο :=
  match s.token o with
  | none => (.error .missing, s)
  | some i =>
    match s.current.reset k i with
    | .error e => (.error e, s)
    | .ok current => (.ok (!raised && decide ((s.response o).getD [] ≠ [])), { s with current })

end Source

section Programs

variable (κ ο : Type)

/-- A block that is open, with the token of its entry and whether its context was entered
again since, by any task. -/
structure Block where
  context : ο
  token : Nat
  again : Bool

/-- A block that was left: the context around it, how its body ended, what its exit did,
and what was current then. -/
structure Exit where
  task : κ
  block : Block ο
  enclosing : Option ο
  raised : Bool
  response : Option PyStr
  outcome : Except ResetError Bool
  current : Option ο

/-- The asyncio tasks, their open blocks from the innermost on, what was current in the
task that made each, and the blocks left. -/
structure State where
  objects : Objects κ ο
  alive : List κ
  blocks : κ → List (Block ο)
  inherited : κ → Option ο
  exits : List (Exit κ ο)

/-- What a task does. It leaves the innermost of its blocks. -/
inductive Move where
  | create (k new : κ)
  | respond (o : ο) (response : PyStr)
  | enter (k : κ) (o : ο)
  | exit (k : κ) (raised : Bool)

variable {κ ο} [DecidableEq κ] [DecidableEq ο]

def innermost (outside : Option ο) : List (Block ο) → Option ο
  | [] => outside
  | b :: _ => some b.context

def State.within (s : State κ ο) (k : κ) : Option ο := innermost (s.inherited k) (s.blocks k)

def entered (o : ο) (b : Block ο) : Block ο := if b.context = o then { b with again := true } else b

def enter (s : State κ ο) (k : κ) (o : ο) : State κ ο :=
  let marked := fun k => (s.blocks k).map (entered o)
  let i := s.objects.current.tokens.length
  { s with
    objects := aenter s.objects k o
    blocks := Function.update marked k (⟨o, i, false⟩ :: marked k) }

def leave (s : State κ ο) (k : κ) (raised : Bool) (b : Block ο) (rest : List (Block ο)) :
    State κ ο :=
  let left := aexit s.objects k b.context raised
  { s with
    objects := left.2
    blocks := Function.update s.blocks k rest
    exits := s.exits ++ [⟨k, b, innermost (s.inherited k) rest, raised,
      s.objects.response b.context, left.1, left.2.current.value k⟩] }

def step (s : State κ ο) : Move κ ο → State κ ο
  | .create k new =>
    if k ∈ s.alive ∧ new ∉ s.alive then
      { s with
        objects := { s.objects with current := s.objects.current.copy k new }
        alive := new :: s.alive
        inherited := Function.update s.inherited new (s.objects.current.value k) }
    else s
  | .respond o response =>
    { s with
      objects := { s.objects with response := Function.update s.objects.response o response } }
  | .enter k o => if k ∈ s.alive then enter s k o else s
  | .exit k raised =>
    match s.blocks k with
    | [] => s
    | b :: rest => leave s k raised b rest

def initial (main : κ) : State κ ο :=
  ⟨⟨⟨fun _ => none, []⟩, fun _ => none, fun _ => none⟩, [main], fun _ => [], fun _ => none, []⟩

def reached (main : κ) (run : List (Move κ ο)) : State κ ο := run.foldl step (initial main)

def State.Clean (s : State κ ο) (k : κ) : Prop :=
  ∀ x ∈ s.exits, x.task = k → x.outcome.isOk

end Programs

section Invariant

variable {κ ο : Type} {s : State κ ο} {k : κ}

/-- The tokens of the blocks restore what is current outside of each. -/
def Restores (x : Var κ (Option ο)) (k : κ) (outside : Option ο) : List (Block ο) → Prop
  | [] => True
  | b :: rest => x.Resets k b.token (innermost outside rest) ∧ Restores x k outside rest

def Exit.Told (x : Exit κ ο) : Prop :=
  if x.block.again then ∃ e, x.outcome = .error e
  else x.outcome = .ok (!x.raised && decide (x.response.getD [] ≠ []))

structure Inv (s : State κ ο) : Prop where
  fresh : ∀ k, k ∉ s.alive → s.blocks k = []
  resets : ∀ k, ∀ b ∈ s.blocks k, ∃ old, s.objects.current.Resets k b.token old
  ordered : ∀ k, (s.blocks k).Pairwise fun b c => c.token < b.token
  latest : ∀ k, ∀ b ∈ s.blocks k, ∃ j, s.objects.token b.context = some j ∧ b.token ≤ j ∧
    (b.again = false ↔ j = b.token)
  spent : ∀ o j, s.objects.token o = some j → ∃ t, s.objects.current.tokens[j]? = some t ∧
    (t.used = true ∨ ∃ b ∈ s.blocks t.context, b.context = o ∧ b.token = j)
  current : ∀ k, s.Clean k → s.objects.current.value k = s.within k ∧
    Restores s.objects.current k (s.inherited k) (s.blocks k)
  told : ∀ x ∈ s.exits, x.Told
  enclosed : ∀ x ∈ s.exits, s.Clean x.task → x.current = x.enclosing

theorem inv_initial (main : κ) : Inv (initial main : State κ ο) where
  fresh := by simp [initial]
  resets := by simp [initial]
  ordered := by simp [initial]
  latest := by simp [initial]
  spent := by simp [initial]
  current := fun k _ => ⟨rfl, trivial⟩
  told := by simp [initial]
  enclosed := by simp [initial]

theorem restores_of_tokens {x y : Var κ (Option ο)} {outside : Option ο} {blocks : List (Block ο)}
    (keeps : ∀ b ∈ blocks, ∀ old, x.Resets k b.token old → y.Resets k b.token old)
    (restores : Restores x k outside blocks) : Restores y k outside blocks := by
  induction blocks with
  | nil => trivial
  | cons b rest ih =>
    exact ⟨keeps b (by simp) _ restores.1,
      ih (fun c inside => keeps c (by simp [inside])) restores.2⟩

theorem inv_respond (inv : Inv s) (response : ο → Option PyStr) :
    Inv { s with objects := { s.objects with response } } :=
  ⟨inv.fresh, inv.resets, inv.ordered, inv.latest, inv.spent, inv.current, inv.told, inv.enclosed⟩

section Entered

variable [DecidableEq ο]

@[simp] theorem entered_context (o : ο) (b : Block ο) : (entered o b).context = b.context := by
  unfold entered
  split <;> rfl

@[simp] theorem entered_token (o : ο) (b : Block ο) : (entered o b).token = b.token := by
  unfold entered
  split <;> rfl

theorem innermost_entered (outside : Option ο) (o : ο) (blocks : List (Block ο)) :
    innermost outside (blocks.map (entered o)) = innermost outside blocks := by
  cases blocks with
  | nil => rfl
  | cons b rest => simp [innermost]

theorem restores_entered {x : Var κ (Option ο)} {outside : Option ο} (o : ο)
    {blocks : List (Block ο)} (restores : Restores x k outside blocks) :
    Restores x k outside (blocks.map (entered o)) := by
  induction blocks with
  | nil => trivial
  | cons b rest ih =>
    rw [List.map_cons, Restores, entered_token, innermost_entered]
    exact ⟨restores.1, ih restores.2⟩

end Entered

end Invariant

section Steps

variable {κ ο : Type} [DecidableEq κ] {s : State κ ο} {k : κ}

theorem inv_create (inv : Inv s) {new : κ} (unborn : new ∉ s.alive) :
    Inv { s with
      objects := { s.objects with current := s.objects.current.copy k new }
      alive := new :: s.alive
      inherited := Function.update s.inherited new (s.objects.current.value k) } where
  fresh := fun k dead => inv.fresh k fun alive => dead (List.mem_cons_of_mem _ alive)
  resets := inv.resets
  ordered := inv.ordered
  latest := inv.latest
  spent := inv.spent
  current := by
    intro k' clean
    have none_ := inv.fresh new unborn
    by_cases same : k' = new
    · obtain rfl := same
      simp [State.within, Var.copy, none_, innermost, Restores]
    · obtain ⟨value, restores⟩ := inv.current k' clean
      have kept : Restores (s.objects.current.copy k new) k' (s.inherited k') (s.blocks k') :=
        restores_of_tokens (x := s.objects.current) (fun _ _ _ resets => resets) restores
      simp only [State.within, Function.update_of_ne same]
      exact ⟨(Function.update_of_ne same _ _).trans value, kept⟩
  told := inv.told
  enclosed := inv.enclosed

theorem mem_enter [DecidableEq ο] {k' : κ} {o : ο} {b : Block ο}
    (inside : b ∈ (enter s k o).blocks k') :
    k' = k ∧ b = ⟨o, s.objects.current.tokens.length, false⟩ ∨
      ∃ c ∈ s.blocks k', b = entered o c := by
  by_cases same : k' = k
  · obtain rfl := same
    simp only [enter, Function.update_self, List.mem_cons, List.mem_map] at inside
    rcases inside with rfl | ⟨c, member, rfl⟩
    · exact .inl ⟨rfl, rfl⟩
    · exact .inr ⟨c, member, rfl⟩
  · simp only [enter, Function.update_of_ne same, List.mem_map] at inside
    obtain ⟨c, member, rfl⟩ := inside
    exact .inr ⟨c, member, rfl⟩

theorem mem_enter_of_mem [DecidableEq ο] {k' : κ} (o : ο) {b : Block ο} (inside : b ∈ s.blocks k') :
    entered o b ∈ (enter s k o).blocks k' := by
  by_cases same : k' = k
  · obtain rfl := same
    simp only [enter, Function.update_self, List.mem_cons]
    exact .inr (List.mem_map_of_mem inside)
  · simp only [enter, Function.update_of_ne same]
    exact List.mem_map_of_mem inside

theorem inv_enter [DecidableEq ο] (inv : Inv s) (alive : k ∈ s.alive) (o : ο) :
    Inv (enter s k o) where
  fresh := by
    intro k' dead
    have other : k' ≠ k := fun same => dead (same ▸ alive)
    simp [enter, Function.update_of_ne other, inv.fresh k' dead]
  resets := by
    intro k' b inside
    rcases mem_enter inside with ⟨rfl, rfl⟩ | ⟨c, member, rfl⟩
    · exact ⟨_, Var.resets_new _ _ _⟩
    · obtain ⟨old, resets⟩ := inv.resets k' c member
      refine ⟨old, ?_⟩
      rw [entered_token]
      exact Var.resets_set resets
  ordered := by
    intro k'
    have mapped : ((s.blocks k').map (entered o)).Pairwise fun b c => c.token < b.token :=
      List.pairwise_map.mpr (by simpa using inv.ordered k')
    by_cases same : k' = k
    · obtain rfl := same
      simp only [enter, Function.update_self]
      refine List.pairwise_cons.mpr ⟨fun b inside => ?_, mapped⟩
      obtain ⟨c, member, rfl⟩ := List.mem_map.mp inside
      obtain ⟨old, resets⟩ := inv.resets k' c member
      simpa using Var.lt_of_resets resets
    · simpa only [enter, Function.update_of_ne same] using mapped
  latest := by
    intro k' b inside
    rcases mem_enter inside with ⟨rfl, rfl⟩ | ⟨c, member, rfl⟩
    · exact ⟨_, by simp [enter, aenter, Var.set], le_rfl, by simp⟩
    · obtain ⟨j, held, late, again⟩ := inv.latest k' c member
      obtain ⟨old, resets⟩ := inv.resets k' c member
      have before := Var.lt_of_resets resets
      by_cases same : c.context = o
      · refine ⟨s.objects.current.tokens.length, ?_, ?_, ?_⟩
        · simp [enter, aenter, Var.set, same]
        · simpa using before.le
        · simp [entered, same, before.ne']
      · refine ⟨j, ?_, by simpa using late, by simpa [entered, same] using again⟩
        simp [enter, aenter, Function.update_of_ne same, held]
  spent := by
    intro o' j held
    by_cases same : o' = o
    · obtain rfl := same
      obtain rfl : s.objects.current.tokens.length = j := by
        simpa [enter, aenter, Var.set] using held
      refine ⟨⟨k, s.objects.current.value k, false⟩, by simp [enter, aenter, Var.set], .inr ?_⟩
      exact ⟨⟨o', _, false⟩, by simp [enter], rfl, rfl⟩
    · have held : s.objects.token o' = some j := by
        simpa [enter, aenter, Function.update_of_ne same] using held
      obtain ⟨t, present, state⟩ := inv.spent o' j held
      have inside := (List.getElem?_eq_some_iff.mp present).1
      refine ⟨t, ?_, state.imp id ?_⟩
      · simpa [enter, aenter, Var.set, List.getElem?_append_left inside] using present
      · rintro ⟨b, member, context, token⟩
        exact ⟨entered o b, mem_enter_of_mem o member, by simpa using context, by simpa using token⟩
  current := by
    intro k' clean
    obtain ⟨value, restores⟩ := inv.current k' clean
    have kept : Restores (s.objects.current.set k (some o)).2 k' (s.inherited k')
        ((s.blocks k').map (entered o)) :=
      restores_of_tokens (fun _ _ _ => Var.resets_set) (restores_entered o restores)
    by_cases same : k' = k
    · obtain rfl := same
      have new := Var.resets_new s.objects.current k' (some o)
      rw [value, State.within, ← innermost_entered _ o] at new
      simp only [State.within, enter, aenter, Function.update_self]
      exact ⟨by simp [Var.set, innermost], new, kept⟩
    · simp only [State.within, enter, aenter, Function.update_of_ne same]
      refine ⟨?_, kept⟩
      rw [innermost_entered]
      exact (Function.update_of_ne same _ _).trans value
  told := inv.told
  enclosed := inv.enclosed

section Leaving

variable {raised : Bool} {b : Block ο} {rest : List (Block ο)}

theorem aexit_ok (raised : Bool) (inv : Inv s) (top : s.blocks k = b :: rest)
    (once : b.again = false) :
    ∃ old, s.objects.current.Resets k b.token old ∧ aexit s.objects k b.context raised =
      (.ok (!raised && decide ((s.objects.response b.context).getD [] ≠ [])),
        { s.objects with
          current := ⟨Function.update s.objects.current.value k old,
            s.objects.current.tokens.set b.token ⟨k, old, true⟩⟩ }) := by
  have inside : b ∈ s.blocks k := by simp [top]
  obtain ⟨old, resets⟩ := inv.resets k b inside
  obtain ⟨j, held, _, again⟩ := inv.latest k b inside
  obtain rfl := again.mp once
  refine ⟨old, resets, ?_⟩
  rw [aexit, held]
  simp only [Var.reset_eq_ok resets]

theorem aexit_error (raised : Bool) (inv : Inv s) (top : s.blocks k = b :: rest)
    (again : b.again = true) :
    ∃ e, aexit s.objects k b.context raised = (.error e, s.objects) := by
  have inside : b ∈ s.blocks k := by simp [top]
  obtain ⟨j, held, late, once⟩ := inv.latest k b inside
  have newer : j ≠ b.token := fun same => by simp [once.mpr same] at again
  obtain ⟨t, present, state⟩ := inv.spent _ j held
  rw [aexit, held]
  simp only [Var.reset, present]
  by_cases used : t.used = true
  · exact ⟨_, by rw [if_pos used]⟩
  · obtain ⟨c, member, _, token⟩ := state.resolve_left used
    have other : t.context ≠ k := by
      rintro rfl
      rw [top] at member
      have ordered := inv.ordered t.context
      rw [top] at ordered
      rcases List.mem_cons.mp member with rfl | older
      · exact newer token.symm
      · have earlier := (List.pairwise_cons.mp ordered).1 c older
        omega
    exact ⟨_, by rw [if_neg used, if_pos other]⟩

theorem mem_leave {k' : κ} {c : Block ο} (top : s.blocks k = b :: rest)
    (inside : c ∈ (leave s k raised b rest).blocks k') : c ∈ s.blocks k' := by
  by_cases same : k' = k
  · obtain rfl := same
    simp only [leave, Function.update_self] at inside
    simp [top, inside]
  · simpa only [leave, Function.update_of_ne same] using inside

theorem blocks_leave (inv : Inv s) (top : s.blocks k = b :: rest) :
    (∀ k', k' ∉ s.alive → (leave s k raised b rest).blocks k' = []) ∧
      ∀ k', ((leave s k raised b rest).blocks k').Pairwise fun b c => c.token < b.token := by
  constructor
  · intro k' dead
    by_cases same : k' = k
    · obtain rfl := same
      simp [inv.fresh k' dead] at top
    · simpa [leave, Function.update_of_ne same] using inv.fresh k' dead
  · intro k'
    by_cases same : k' = k
    · obtain rfl := same
      have ordered := inv.ordered k'
      rw [top] at ordered
      simpa [leave] using (List.pairwise_cons.mp ordered).2
    · simpa [leave, Function.update_of_ne same] using inv.ordered k'

theorem clean_of_leave {k' : κ} (clean : (leave s k raised b rest).Clean k') : s.Clean k' :=
  fun x inside => clean x (by simp [leave, inside])

theorem mem_leave_of_mem {k' : κ} {c : Block ο} (raised : Bool) (top : s.blocks k = b :: rest)
    (inside : c ∈ s.blocks k') (other : ¬ (k' = k ∧ c = b)) :
    c ∈ (leave s k raised b rest).blocks k' := by
  by_cases same : k' = k
  · obtain rfl := same
    rw [top] at inside
    simpa [leave] using (List.mem_cons.mp inside).resolve_left fun equal => other ⟨rfl, equal⟩
  · simpa only [leave, Function.update_of_ne same] using inside

theorem token_leave : (leave s k raised b rest).objects.token = s.objects.token := by
  simp only [leave, aexit]
  split
  · rfl
  · split <;> rfl

theorem resets_leave (inv : Inv s) (top : s.blocks k = b :: rest) {k' : κ} {c : Block ο}
    (inside : c ∈ (leave s k raised b rest).blocks k') {old : Option ο}
    (resets : s.objects.current.Resets k' c.token old) :
    (leave s k raised b rest).objects.current.Resets k' c.token old := by
  cases again : b.again with
  | true =>
    obtain ⟨e, left⟩ := aexit_error raised inv top again
    simpa only [leave, left] using resets
  | false =>
    obtain ⟨old', resets', left⟩ := aexit_ok raised inv top again
    have apart : b.token ≠ c.token := by
      by_cases same : k' = k
      · obtain rfl := same
        have ordered := inv.ordered k'
        rw [top] at ordered
        simp only [leave, Function.update_self] at inside
        exact ((List.pairwise_cons.mp ordered).1 c inside).ne'
      · intro equal
        rw [← equal] at resets
        have tokens := resets'.symm.trans resets
        simp [Ne.symm same] at tokens
    simp only [leave, left, Var.Resets]
    rw [List.getElem?_set_ne apart]
    exact resets

theorem spent_leave (inv : Inv s) (top : s.blocks k = b :: rest) {o : ο} {j : Nat}
    (held : s.objects.token o = some j) :
    ∃ t, (leave s k raised b rest).objects.current.tokens[j]? = some t ∧ (t.used = true ∨
      ∃ c ∈ (leave s k raised b rest).blocks t.context, c.context = o ∧ c.token = j) := by
  obtain ⟨t, present, state⟩ := inv.spent o j held
  cases again : b.again with
  | true =>
    obtain ⟨e, left⟩ := aexit_error raised inv top again
    refine ⟨t, by simpa only [leave, left] using present, state.imp id ?_⟩
    rintro ⟨c, member, rfl, rfl⟩
    refine ⟨c, mem_leave_of_mem raised top member ?_, rfl, rfl⟩
    rintro ⟨_, rfl⟩
    obtain ⟨j, held', _, once⟩ := inv.latest t.context c member
    obtain rfl := Option.some.inj (held.symm.trans held')
    simp [once.mpr rfl] at again
  | false =>
    obtain ⟨old, resets, left⟩ := aexit_ok raised inv top again
    simp only [leave, left]
    by_cases same : b.token = j
    · obtain rfl := same
      have range := Var.lt_of_resets resets
      exact ⟨⟨k, old, true⟩, by rw [List.getElem?_set_self range], .inl rfl⟩
    · refine ⟨t, by rw [List.getElem?_set_ne same]; exact present, state.imp id ?_⟩
      rintro ⟨c, member, context, token⟩
      refine ⟨c, mem_leave_of_mem raised top member ?_, context, token⟩
      rintro ⟨_, rfl⟩
      exact same token

theorem current_leave (inv : Inv s) (top : s.blocks k = b :: rest) {k' : κ}
    (clean : (leave s k raised b rest).Clean k') :
    (leave s k raised b rest).objects.current.value k' = (leave s k raised b rest).within k' ∧
      Restores (leave s k raised b rest).objects.current k' (s.inherited k')
        ((leave s k raised b rest).blocks k') := by
  obtain ⟨value, restores⟩ := inv.current k' (clean_of_leave clean)
  have remaining : Restores s.objects.current k' (s.inherited k')
      ((leave s k raised b rest).blocks k') := by
    by_cases same : k' = k
    · obtain rfl := same
      rw [top] at restores
      simpa only [leave, Function.update_self] using restores.2
    · simpa only [leave, Function.update_of_ne same] using restores
  refine ⟨?_, restores_of_tokens (fun c inside old => resets_leave inv top inside) remaining⟩
  cases again : b.again with
  | true =>
    obtain ⟨e, left⟩ := aexit_error raised inv top again
    by_cases same : k' = k
    · obtain rfl := same
      have failed := clean _ (List.mem_append_right _ (List.mem_singleton.mpr rfl)) rfl
      simp [left, Except.isOk, Except.toBool] at failed
    · simpa only [State.within, leave, left, Function.update_of_ne same] using value
  | false =>
    obtain ⟨old, resets, left⟩ := aexit_ok raised inv top again
    by_cases same : k' = k
    · obtain rfl := same
      rw [top] at restores
      have tokens := resets.symm.trans restores.1
      simp only [State.within, leave, left, Function.update_self]
      simpa using tokens
    · simpa only [State.within, leave, left, Function.update_of_ne same] using value

theorem told_leave (inv : Inv s) (top : s.blocks k = b :: rest) :
    ∀ x ∈ (leave s k raised b rest).exits, x.Told := by
  intro x inside
  rcases List.mem_append.mp inside with earlier | new
  · exact inv.told x earlier
  · obtain rfl := List.mem_singleton.mp new
    cases again : b.again with
    | true =>
      obtain ⟨e, left⟩ := aexit_error raised inv top again
      simp [Exit.Told, again, left]
    | false =>
      obtain ⟨old, resets, left⟩ := aexit_ok raised inv top again
      simp [Exit.Told, again, left]

theorem inv_leave (inv : Inv s) (top : s.blocks k = b :: rest) :
    Inv (leave s k raised b rest) where
  fresh := (blocks_leave inv top).1
  resets := by
    intro k' c inside
    obtain ⟨old, resets⟩ := inv.resets k' c (mem_leave top inside)
    exact ⟨old, resets_leave inv top inside resets⟩
  ordered := (blocks_leave inv top).2
  latest := by
    intro k' c inside
    rw [token_leave]
    exact inv.latest k' c (mem_leave top inside)
  spent := by
    intro o j held
    rw [token_leave] at held
    exact spent_leave inv top held
  current := fun k' => current_leave inv top
  told := told_leave inv top
  enclosed := by
    intro x inside clean
    rcases List.mem_append.mp inside with earlier | new
    · exact inv.enclosed x earlier (clean_of_leave clean)
    · obtain rfl := List.mem_singleton.mp new
      have current := (current_leave inv top clean).1
      simpa only [State.within, leave, Function.update_self] using current

end Leaving

end Steps

section Runs

variable {κ ο : Type} [DecidableEq κ] [DecidableEq ο] {s : State κ ο}

theorem inv_step (inv : Inv s) (m : Move κ ο) : Inv (step s m) := by
  cases m with
  | create k new =>
    simp only [step]
    split
    · next born => exact inv_create inv born.2
    · exact inv
  | respond o response => exact inv_respond inv _
  | enter k o =>
    simp only [step]
    split
    · next alive => exact inv_enter inv alive o
    · exact inv
  | exit k raised =>
    simp only [step]
    split
    · exact inv
    · next b rest top => exact inv_leave inv top

theorem inv_reached (main : κ) (run : List (Move κ ο)) : Inv (reached main run) := by
  induction run using List.reverseRecOn with
  | nil => exact inv_initial main
  | append_singleton run m ih =>
    rw [reached, List.foldl_append]
    exact inv_step ih m

def Unentered (s : State κ ο) (m : Move κ ο) : Prop :=
  ∀ k o, m = .enter k o → ∀ k', ∀ b ∈ s.blocks k', b.context ≠ o

/-- No context of an open block, or of one that was left, was entered again. -/
structure Single (s : State κ ο) : Prop where
  blocks : ∀ k, ∀ b ∈ s.blocks k, b.again = false
  exits : ∀ x ∈ s.exits, x.block.again = false

theorem single_step {m : Move κ ο} (unentered : Unentered s m) (single : Single s) :
    Single (step s m) := by
  cases m with
  | create k new =>
    simp only [step]
    split
    · exact ⟨single.blocks, single.exits⟩
    · exact single
  | respond o response => exact ⟨single.blocks, single.exits⟩
  | enter k o =>
    simp only [step]
    split
    · refine ⟨fun k' b inside => ?_, single.exits⟩
      rcases mem_enter inside with ⟨_, rfl⟩ | ⟨c, member, rfl⟩
      · rfl
      · rw [entered, if_neg (unentered k o rfl k' c member)]
        exact single.blocks k' c member
    · exact single
  | exit k raised =>
    simp only [step]
    split
    · exact single
    · next b rest top =>
      refine ⟨fun k' c inside => single.blocks k' c (mem_leave top inside), fun x inside => ?_⟩
      rcases List.mem_append.mp inside with earlier | new
      · exact single.exits x earlier
      · obtain rfl := List.mem_singleton.mp new
        exact single.blocks k b (by simp [top])

theorem single_reached (main : κ) {run : List (Move κ ο)}
    (meets : Along step Unentered (initial main) run) : Single (reached main run) := by
  have start : Single (initial main : State κ ο) := ⟨by simp [initial], by simp [initial]⟩
  exact (throughout_of_along (fun _ _ => single_step) start meets).final

/-- However the tasks are interleaved: in a task none of whose exits failed, the context of
the innermost open block is current, or what was so where the task was made, and each
commit came with the enclosing context current; an exit fails exactly if its context was
entered again since, and goes on to the commit exactly if it does not fail, the body did not
raise and there is a response; and where no context is entered while a block of it is open,
no exit fails. -/
theorem current_innermost (main : κ) (run : List (Move κ ο)) :
    (∀ k, (reached main run).Clean k →
      (reached main run).objects.current.value k = (reached main run).within k ∧
        ∀ x ∈ (reached main run).exits, x.task = k → x.current = x.enclosing) ∧
    (∀ x ∈ (reached main run).exits, x.Told) ∧
    (Along step Unentered (initial main) run → ∀ k, (reached main run).Clean k) := by
  have inv := inv_reached main run
  refine ⟨fun k clean => ⟨(inv.current k clean).1, ?_⟩, inv.told, fun meets k x inside _ => ?_⟩
  · rintro x inside rfl
    exact inv.enclosed x inside clean
  · have told := inv.told x inside
    rw [Exit.Told, (single_reached main meets).exits x inside] at told
    simp only [Bool.false_eq_true, if_false] at told
    rw [told]
    rfl

/-- A context that a task enters twice stays current there after both blocks. -/
example : (reached 0 [.enter 0 'a', .enter 0 'a', .exit 0 false, .exit 0 false]).within 0 = none ∧
    (reached 0 [.enter 0 'a', .enter 0 'a', .exit 0 false, .exit 0 false]).objects.current.value 0 =
      some 'a' := by
  decide

end Runs

end AgentTrust.CurrentTask
