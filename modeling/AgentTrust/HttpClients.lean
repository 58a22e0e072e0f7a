import AgentTrust.Runs

/-! The HTTP client that an `ATPClient` holds, on one event loop. Clients are made when a
context is entered and when a request finds none, and closed on exit and by `close`. Only
a request records the loop it runs on, and a held client whose loop is not recorded is
dropped as one of another loop. -/

namespace AgentTrust.HttpClients

open Runs

section Lifecycle

variable {Loop : Type}

/-- The held client, the loop recorded for it, and all that became of the clients: the
`n`-th one made is `n`. `closing` counts the `close()` calls that await `aclose()`. -/
structure Connection (Loop : Type) where
  httpClient : Option Nat
  clientLoop : Option Loop
  created : Nat
  closed : List Nat
  closing : Nat

def init : Connection Loop := ⟨none, none, 0, [], 0⟩

/-- `self._http_client = httpx.AsyncClient(...)`. -/
def Connection.create (s : Connection Loop) : Connection Loop :=
  { s with httpClient := some s.created, created := s.created + 1 }

def aenter (s : Connection Loop) : Connection Loop := s.create

/-- `_get_client`, with the loop that runs it. -/
def getClient [DecidableEq Loop] (currentLoop : Option Loop) (s : Connection Loop) :
    Connection Loop :=
  let s := if s.httpClient.isSome ∧ s.clientLoop ≠ currentLoop then
      { s with httpClient := none, clientLoop := none }
    else s
  if s.httpClient.isNone then { s.create with clientLoop := currentLoop } else s

/-- `aclose()` of the held client, if there is one. -/
def Connection.aclose (s : Connection Loop) : Connection Loop :=
  { s with closed := s.httpClient.toList ++ s.closed }

def aexit (s : Connection Loop) : Connection Loop := s.aclose

/-- `close()` up to where it awaits `aclose()`, which closes the client first. -/
def closeStart (s : Connection Loop) : Connection Loop :=
  if s.httpClient.isSome then { s.aclose with closing := s.closing + 1 } else s

def closeEnd (s : Connection Loop) : Connection Loop :=
  if s.closing = 0 then s else { s with httpClient := none, closing := s.closing - 1 }

/-- What runs between two awaits. -/
inductive Step where
  | enter
  | request
  | closeStart
  | closeEnd
  | exit

def step [DecidableEq Loop] (loop : Loop) (s : Connection Loop) : Step → Connection Loop
  | .enter => aenter s
  | .request => getClient (some loop) s
  | .closeStart => closeStart s
  | .closeEnd => closeEnd s
  | .exit => aexit s

/-- The last call of a run, which nothing overtakes. -/
inductive Final where
  | exit
  | close

def Final.call : Final → Connection Loop → Connection Loop
  | .exit, s => aexit s
  | .close, s => closeEnd (closeStart s)

end Lifecycle

section Leaks

variable {Loop : Type} {s : Connection Loop}

def NoneLeaked (s : Connection Loop) : Prop :=
  ∀ c < s.created, s.httpClient ≠ some c → c ∈ s.closed

def AllClosed (s : Connection Loop) : Prop := ∀ c < s.created, c ∈ s.closed

def Idle (s : Connection Loop) : Prop := ∀ c, s.httpClient = some c → c ∈ s.closed

def Owned (s : Connection Loop) : Prop := ∀ c, s.httpClient = some c → c < s.created

theorem allClosed_iff (owned : Owned s) : AllClosed s ↔ NoneLeaked s ∧ Idle s := by
  constructor
  · intro all
    exact ⟨fun c made _ => all c made, fun c held => all c (owned c held)⟩
  · rintro ⟨kept, idle⟩ c made
    by_cases held : s.httpClient = some c
    · exact idle c held
    · exact kept c made held

theorem noneLeaked_drop (none : s.httpClient = none) : NoneLeaked s ↔ AllClosed s := by
  simp [NoneLeaked, AllClosed, none]

theorem noneLeaked_create : NoneLeaked s.create ↔ AllClosed s := by
  constructor
  · intro kept c made
    refine kept c (Nat.lt_succ_of_lt made) ?_
    simp only [Connection.create, ne_eq, Option.some.injEq]
    omega
  · intro all c made other
    simp only [Connection.create, ne_eq, Option.some.injEq] at made other
    exact all c (by omega)

/-- What a step needs so that it leaks no client: one that is made, dropped or forgotten
is not open. -/
def Keeps (loop : Loop) (s : Connection Loop) : Step → Prop
  | .enter => Idle s
  | .request => Idle s ∨ s.clientLoop = some loop
  | .closeStart => True
  | .closeEnd => s.closing = 0 ∨ Idle s
  | .exit => True

theorem owned_create : Owned s.create := by
  intro c held
  simp only [Connection.create, Option.some.injEq] at held ⊢
  omega

theorem aclose_keeps (kept : NoneLeaked s) : NoneLeaked s.aclose :=
  fun c made other => List.mem_append_right _ (kept c made other)

theorem aclose_allClosed (kept : NoneLeaked s) : AllClosed s.aclose := by
  intro c made
  by_cases held : s.httpClient = some c
  · exact List.mem_append_left _ (by simp [held])
  · exact aclose_keeps kept c made held

theorem closeStart_keeps (kept : NoneLeaked s) : NoneLeaked (closeStart s) := by
  unfold closeStart
  split
  · exact aclose_keeps kept
  · exact kept

theorem closeEnd_allClosed : AllClosed (closeEnd s) ↔ AllClosed s := by
  unfold closeEnd
  split <;> exact Iff.rfl

theorem final_allClosed (kept : NoneLeaked s) (final : Final) : AllClosed (final.call s) := by
  cases final with
  | exit => exact aclose_allClosed kept
  | close =>
    rw [Final.call, closeEnd_allClosed]
    unfold closeStart
    split
    · exact aclose_allClosed kept
    · next none => exact (noneLeaked_drop (by simpa using none)).mp kept

theorem closeEnd_keeps_iff (owned : Owned s) (kept : NoneLeaked s) :
    NoneLeaked (closeEnd s) ↔ s.closing = 0 ∨ Idle s := by
  unfold closeEnd
  split
  · next idle => exact iff_of_true kept (.inl idle)
  · next waiting =>
    rw [noneLeaked_drop rfl]
    change AllClosed s ↔ _
    rw [allClosed_iff owned, or_iff_right waiting, and_iff_right kept]

variable [DecidableEq Loop] {loop : Loop}

theorem getClient_foreign (held : s.httpClient.isSome) (foreign : s.clientLoop ≠ some loop) :
    getClient (some loop) s = { s.create with clientLoop := some loop } := by
  simp [getClient, held, foreign, Connection.create]

theorem getClient_none (none : s.httpClient = none) :
    getClient (some loop) s = { s.create with clientLoop := some loop } := by
  simp [getClient, none, Connection.create]

theorem getClient_own (held : s.httpClient.isSome) (own : s.clientLoop = some loop) :
    getClient (some loop) s = s := by
  simp [getClient, own, Option.isSome_iff_ne_none.mp held]

theorem owned_step (owned : Owned s) (i : Step) : Owned (step loop s i) := by
  cases i with
  | enter => exact owned_create
  | request =>
    change Owned (getClient _ _)
    by_cases held : s.httpClient.isSome
    · by_cases own : s.clientLoop = some loop
      · rw [getClient_own held own]
        exact owned
      · rw [getClient_foreign held own]
        exact owned_create (s := s)
    · rw [getClient_none (by simpa using held)]
      exact owned_create (s := s)
  | closeStart =>
    change Owned (closeStart s)
    unfold closeStart
    split <;> exact owned
  | closeEnd =>
    change Owned (closeEnd s)
    unfold closeEnd
    split
    · exact owned
    · simp [Owned]
  | exit => exact owned

theorem getClient_keeps_iff (owned : Owned s) (kept : NoneLeaked s) :
    NoneLeaked (getClient (some loop) s) ↔ Idle s ∨ s.clientLoop = some loop := by
  have made : NoneLeaked { s.create with clientLoop := some loop } ↔ Idle s := by
    have created := noneLeaked_create (s := s)
    rw [allClosed_iff owned, and_iff_right kept] at created
    exact created
  cases held : s.httpClient with
  | none =>
    have idle : Idle s := by simp [Idle, held]
    rw [getClient_none held]
    exact iff_of_true (made.mpr idle) (.inl idle)
  | some c =>
    have present : s.httpClient.isSome := by simp [held]
    by_cases own : s.clientLoop = some loop
    · rw [getClient_own present own]
      exact iff_of_true kept (.inr own)
    · rw [getClient_foreign present own, or_iff_left own]
      exact made

/-- A step leaks nothing exactly where it has what it needs. -/
theorem step_keeps_iff (owned : Owned s) (kept : NoneLeaked s) (i : Step) :
    NoneLeaked (step loop s i) ↔ Keeps loop s i := by
  cases i with
  | enter =>
    change NoneLeaked s.create ↔ Idle s
    rw [noneLeaked_create, allClosed_iff owned, and_iff_right kept]
  | request => exact getClient_keeps_iff owned kept
  | closeStart => exact iff_of_true (closeStart_keeps kept) trivial
  | closeEnd => exact closeEnd_keeps_iff owned kept
  | exit => exact iff_of_true (aclose_keeps kept) trivial

theorem throughout_noneLeaked_iff (loop : Loop) (run : List Step) :
    Throughout (step loop) NoneLeaked init run ↔ Along (step loop) (Keeps loop) init run :=
  throughout_iff_along (I := Owned) (P := NoneLeaked) (fun _ i owned => owned_step owned i)
    (fun _ i owned kept => step_keeps_iff owned kept i) (by simp [Owned, init])
    (by simp [NoneLeaked, init]) run

/-- Along a run on one loop every client but the held one is closed, and all of them after
the last call, exactly where each step lets go of closed clients only. -/
theorem noneLeaked_iff (loop : Loop) (run : List Step) (final : Final) :
    (Throughout (step loop) NoneLeaked init run ∧
        AllClosed (final.call (run.foldl (step loop) init))) ↔
      Along (step loop) (Keeps loop) init run := by
  rw [← throughout_noneLeaked_iff]
  exact and_iff_left_of_imp fun kept => final_allClosed kept.final final

/-- A context entered and one request made in it, as the class documents its use. -/
def contextRun : List Step := [.enter, .request]

/-- The client of the context is dropped by the request and closed by no one. -/
theorem contextRun_leaks :
    ¬ (Throughout (step ()) NoneLeaked init contextRun ∧
      AllClosed (Final.exit.call (contextRun.foldl (step ()) init))) := by
  rintro ⟨_, all⟩
  exact absurd (all 0 (by decide)) (by decide)

/-- The calls on a client that is not entered as a context, none of which overtakes another. -/
inductive Call where
  | request
  | close
  | exit

def Call.steps : Call → List Step
  | .request => [.request]
  | .close => [.closeStart, .closeEnd]
  | .exit => [.exit]

def Recorded (loop : Loop) (s : Connection Loop) : Prop :=
  s.httpClient.isSome → s.clientLoop = some loop

theorem recorded_getClient (recorded : Recorded loop s) :
    Recorded loop (getClient (some loop) s) := by
  by_cases held : s.httpClient.isSome
  · rw [getClient_own held (recorded held)]
    exact recorded
  · rw [getClient_none (by simpa using held)]
    exact fun _ => rfl

theorem closing_getClient : (getClient (some loop) s).closing = s.closing := by
  unfold getClient
  dsimp only
  split <;> split <;> rfl

theorem along_calls (calls : List Call) (recorded : Recorded loop s) (quiet : s.closing = 0) :
    Along (step loop) (Keeps loop) s (calls.flatMap Call.steps) := by
  induction calls generalizing s with
  | nil => trivial
  | cons call calls ih =>
    rw [List.flatMap_cons, along_append]
    cases call with
    | request =>
      refine ⟨⟨?_, trivial⟩, ih (recorded_getClient recorded) ?_⟩
      · by_cases held : s.httpClient.isSome
        · exact .inr (recorded held)
        · exact .inl (by simp [Idle, show s.httpClient = none by simpa using held])
      · exact closing_getClient.trans quiet
    | close =>
      by_cases held : s.httpClient.isSome
      · have start : closeStart s = { s.aclose with closing := s.closing + 1 } := if_pos held
        have finish : closeEnd (closeStart s) = { s.aclose with httpClient := none } := by
          rw [start]
          simp [closeEnd, Connection.aclose]
        have idle : Idle (closeStart s) := by
          intro c same
          rw [start] at same ⊢
          exact List.mem_append_left _ (Option.mem_toList.mpr same)
        refine ⟨⟨trivial, .inr idle, trivial⟩, ih ?_ ?_⟩
        · change Recorded loop (closeEnd (closeStart s))
          rw [finish]
          exact fun present => by simp at present
        · change (closeEnd (closeStart s)).closing = 0
          rw [finish]
          exact quiet
      · have start : closeStart s = s := if_neg held
        have finish : closeEnd (closeStart s) = s := by
          rw [start]
          exact if_pos quiet
        refine ⟨⟨trivial, .inl ?_, trivial⟩, ih ?_ ?_⟩
        · exact (congrArg Connection.closing start).trans quiet
        · change Recorded loop (closeEnd (closeStart s))
          rw [finish]
          exact recorded
        · change (closeEnd (closeStart s)).closing = 0
          rw [finish]
          exact quiet
    | exit => exact ⟨⟨trivial, trivial⟩, ih recorded quiet⟩

theorem calls_noneLeaked (loop : Loop) (calls : List Call) (final : Final) :
    Throughout (step loop) NoneLeaked init (calls.flatMap Call.steps) ∧
      AllClosed (final.call ((calls.flatMap Call.steps).foldl (step loop) init)) := by
  have kept := (throughout_noneLeaked_iff loop (calls.flatMap Call.steps)).mpr
    (along_calls calls (by simp [Recorded, init]) rfl)
  exact ⟨kept, final_allClosed kept.final final⟩

end Leaks

end AgentTrust.HttpClients
