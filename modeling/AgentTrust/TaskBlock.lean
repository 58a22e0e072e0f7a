import AgentTrust.StoreAgreement

/-! An `atp_task` block: the context it makes, the body that runs in it and what its
exit does. A body sets responses, adds dependencies and awaits anything else, and goes
on with what it was answered; one run of it leaves a trace of the calls it made on the
context. -/

namespace AgentTrust.TaskBlock

open JsonTree JsonTree.Json PyText PyJson Gregorian PyDateTime OrderedDict PyValue Models Hashing
  Effects Exchange Client Storage Tasks Publication HonestAgent StoreAgreement
open Effects.Run hiding pure bind

section Context

/-- `ATPTaskContext(client, store, query, config, classification)`; `id` is its `uuid4()`. -/
def newContext (client : ATPClient) (query : PyStr) (config : Option ATPConfig)
    (classification : Option Capability) (id : Uuid) : ATPTaskContext where
  config := config.getD client.config
  query := query
  atpTaskId := id.str
  response := none
  committed := false
  classification := classification.getD defaultClassification
  dependencies := []

/-- What is passed to `set_response`: a string, an instance of a subclass of `str`, whose
`str` need not be its characters and may raise, or another value with its `str`. -/
inductive ResponseValue where
  | text (s : PyStr)
  | subclass (characters : PyStr) (str : Option PyStr)
  | other (str : PyStr)

def ResponseValue.str : ResponseValue → Option PyStr
  | .text s => some s
  | .subclass _ str => str
  | .other str => some str

/-- `str(response) if not isinstance(response, str) else response`. -/
def ResponseValue.stored : ResponseValue → PyStr
  | .text s => s
  | .subclass characters _ => characters
  | .other str => str

/-- What is passed to `add_dependent_proof`. -/
inductive DependentProof where
  | storedProof (p : StoredProof)
  | dependency (d : Dependency)

def DependentProof.dependencyWith (evaluations : Option (List DependencyEvaluation)) :
    DependentProof → Dependency
  | .storedProof p =>
    { systemUri := some p.proofData.task.systemUri
      taskId := p.proofData.task.taskId
      challengeUrl := none
      evaluations := evaluations.getD [] }
  | .dependency d =>
    if evaluations.getD [] = [] then d
    else { d with evaluations := d.evaluations ++ evaluations.getD [] }

inductive Call where
  | setResponse (value : ResponseValue)
  | addDependentProof (proof : DependentProof) (evaluations : Option (List DependencyEvaluation))

def Call.apply (t : ATPTaskContext) : Call → ATPTaskContext
  | .setResponse value => { t with response := some value.stored }
  | .addDependentProof proof evaluations =>
    { t with dependencies := t.dependencies ++ [proof.dependencyWith evaluations] }

def Call.response : Call → Option ResponseValue
  | .setResponse value => some value
  | .addDependentProof _ _ => none

def Call.dependency : Call → Option Dependency
  | .setResponse _ => none
  | .addDependentProof proof evaluations => some (proof.dependencyWith evaluations)

theorem foldl_apply (calls : List Call) (t : ATPTaskContext) :
    calls.foldl Call.apply t =
      { t with
        response :=
          ((calls.filterMap Call.response).getLast?.map ResponseValue.stored).or t.response
        dependencies := t.dependencies ++ calls.filterMap Call.dependency } := by
  induction calls generalizing t with
  | nil => simp
  | cons call calls ih =>
    rw [List.foldl_cons, ih]
    cases call with
    | setResponse value =>
      simp only [Call.apply, Call.response, Call.dependency, List.filterMap_cons]
      cases later : (calls.filterMap Call.response).getLast? <;>
        simp [List.getLast?_cons, later]
    | addDependentProof proof evaluations =>
      simp [Call.apply, Call.response, Call.dependency]

end Context

section Bodies

/-- The body of a block. It may catch what an awaited computation raises. -/
inductive Body : Type 1 where
  | finish
  | raise (e : Exc)
  | call (c : Call) (rest : Body)
  | await {α : Type} (x : Run α) (rest : Except Exc α → Body)

structure Trace where
  calls : List Call
  raised : Option Exc
  log : List Event

def Body.trace (w : World) : Body → List Event → Trace
  | .finish, h => ⟨[], none, h⟩
  | .raise e, h => ⟨[], some e, h⟩
  | .call c rest, h => { rest.trace w h with calls := c :: (rest.trace w h).calls }
  | .await x rest, h => (rest (x.run w h).result).trace w (x.run w h).log

/-- `__aexit__`, with the client as it is then. -/
def aexit (t : ATPTaskContext) (c : ATPClient) (raised : Option Exc) :
    Run ATPTaskContext :=
  if raised.isNone ∧ t.response.getD [] ≠ [] then t.commit c else pure t

/-- `async with context: body`. -/
def atpTask (t : ATPTaskContext) (c : ATPClient) (body : Body) : Run ATPTaskContext :=
  ⟨fun w h =>
    let s := body.trace w h
    let exit : Run ATPTaskContext := do
      let t ← aexit (s.calls.foldl Call.apply t) c s.raised
      match s.raised with
      | some e => .raise e
      | none => pure t
    exit.run w s.log⟩

variable {t : ATPTaskContext} {c : ATPClient} {body : Body} {w : World} {h : List Event}

theorem atpTask_log : ((atpTask t c body).run w h).log =
    if (body.trace w h).raised.isNone ∧
        ((body.trace w h).calls.foldl Call.apply t).response.getD [] ≠ [] then
      ((((body.trace w h).calls.foldl Call.apply t).commit c).run w (body.trace w h).log).log
    else (body.trace w h).log := by
  unfold atpTask
  dsimp only
  rw [log_bind]
  · unfold aexit
    split <;> rfl
  · intro t l
    cases (body.trace w h).raised <;> rfl

end Bodies

section Exit

variable {t : ATPTaskContext} {c : ATPClient} {w : World} {h : List Event}

/-- What a commit of the context needs besides a response: a registered system, evaluation
times within the years, an expiry within them, and a store that takes the proof. -/
def Accepted (w : World) (h : List Event) (t : ATPTaskContext) (c : ATPClient) : Prop :=
  ∃ systemId hash expiresAt, (c.firstSystem.map Prod.snd).filter (· ≠ []) = some systemId ∧
    computeDependenciesHash (t.dependencies.map .object) = .ok hash ∧
    expiry (w.now h) t.config.proofTtlSeconds = .ok expiresAt ∧
    w.save (h ++ [.clock])
      ((contextTask t c systemId (w.now h) hash).storedProof expiresAt) = .ok ()

/-- One proof with the response is saved, and then one commit for the task is posted. -/
def CommitsOnce (taskId : Text) (response : PyStr) (h log : List Event) : Prop :=
  ∃ p systemId sketch proofHash, log = h ++ [.clock, .save p, .send (postRequest "/api/v1/commit"
      (commitPayload systemId taskId sketch proofHash))] ∧
    p.proofData.task.taskId = taskId ∧
    (getItem "response" (.obj p.proofData.task.outcome) >>= getItem "text") = .ok (.str response)

theorem attempt_context {now : Wall} {b : Attempt} :
    Caller.attempt now (.context t c) = some b ↔
      t.committed = false ∧ t.response.getD [] ≠ [] ∧ ∃ systemId hash expiresAt,
        (c.firstSystem.map Prod.snd).filter (· ≠ []) = some systemId ∧
        computeDependenciesHash (t.dependencies.map .object) = .ok hash ∧
        expiry now t.config.proofTtlSeconds = .ok expiresAt ∧
        b = ⟨contextTask t c systemId now hash, c, systemId, expiresAt⟩ := by
  rw [Caller.attempt]
  split
  · next idle =>
    refine iff_of_false (by simp) ?_
    rintro ⟨uncommitted, response, _⟩
    exact idle.elim (by simp [uncommitted]) response
  · next pending =>
    obtain ⟨uncommitted, response⟩ := not_or.mp pending
    simp only [intended, Option.bind_eq_bind, Option.bind_eq_some_iff, toOption_eq_some,
      Option.pure_def, Option.some.injEq]
    constructor
    · rintro ⟨systemId, system, hash, hashed, expiresAt, deadline, rfl⟩
      exact ⟨by simpa using uncommitted, response, systemId, hash, expiresAt, system, hashed,
        deadline, rfl⟩
    · rintro ⟨_, _, systemId, hash, expiresAt, system, hashed, deadline, rfl⟩
      exact ⟨systemId, system, hash, hashed, expiresAt, deadline, rfl⟩

theorem commit_idle (idle : Caller.attempt (w.now h) (.context t c) = none) :
    ((t.commit c).run w h).log = h ∨ ((t.commit c).run w h).log = h ++ [.clock] := by
  rw [← context_log]
  exact idle_log idle

theorem commit_logs {b : Attempt} (attempted : Caller.attempt (w.now h) (.context t c) = some b) :
    b.Logs w (h ++ [.clock]) ((t.commit c).run w h).log := by
  rw [← context_log]
  exact attempt_log attempted

theorem idle_not_commitsOnce (idle : Caller.attempt (w.now h) (.context t c) = none)
    {taskId : Text} {response : PyStr} :
    ¬ CommitsOnce taskId response h ((t.commit c).run w h).log := by
  rintro ⟨p, systemId, sketch, proofHash, logged, _⟩
  rcases commit_idle idle with same | clock
  · have lengths := congrArg List.length (same.symm.trans logged)
    simp at lengths
  · have lengths := congrArg List.length (clock.symm.trans logged)
    simp at lengths

theorem commit_attempted {b : Attempt} {text : PyStr}
    (attempted : Caller.attempt (w.now h) (.context t c) = some b)
    (task : b.task.taskId = t.atpTaskId)
    (outcome : b.task.outcome = outcomeOf (t.response.getD []) none) :
    CommitsOnce t.atpTaskId text h ((t.commit c).run w h).log ↔
      text = t.response.getD [] ∧ w.save (h ++ [.clock]) b.proof = .ok () := by
  obtain ⟨proofHash, _, logged⟩ := commit_logs attempted
  have answered : (getItem "response" (.obj b.task.outcome) >>= getItem "text") =
      .ok (.str (t.response.getD [])) := by
    rw [outcome]
    simp [outcomeOf, getItem, record]
  constructor
  · rintro ⟨p, systemId, sketch, hash, committed, _, stored⟩
    have same := logged.symm.trans committed
    cases saved : w.save (h ++ [.clock]) b.proof with
    | ok u =>
      simp only [saved, List.append_assoc, List.append_cancel_left_eq, List.cons_append,
        List.nil_append, List.cons.injEq, Event.save.injEq, true_and] at same
      rw [← same.1] at stored
      exact ⟨Json.str.inj (Except.ok.inj (stored.symm.trans answered)), rfl⟩
    | error e =>
      rw [saved] at same
      have lengths := congrArg List.length same
      simp at lengths
  · rintro ⟨rfl, saved⟩
    rw [saved] at logged
    refine ⟨b.proof, b.systemId, b.sketch, proofHash, ?_, task, answered⟩
    rw [logged, task]
    simp

theorem accepted_iff (uncommitted : t.committed = false) (response : t.response.getD [] ≠ []) :
    Accepted w h t c ↔ ∃ b, Caller.attempt (w.now h) (.context t c) = some b ∧
      w.save (h ++ [.clock]) b.proof = .ok () := by
  constructor
  · rintro ⟨systemId, hash, expiresAt, system, hashed, deadline, saved⟩
    exact ⟨_, attempt_context.mpr ⟨uncommitted, response, systemId, hash, expiresAt, system,
      hashed, deadline, rfl⟩, saved⟩
  · rintro ⟨b, attempted, saved⟩
    obtain ⟨_, _, systemId, hash, expiresAt, system, hashed, deadline, rfl⟩ :=
      attempt_context.mp attempted
    exact ⟨systemId, hash, expiresAt, system, hashed, deadline, saved⟩

theorem commit_commitsOnce_iff {text : PyStr} (uncommitted : t.committed = false)
    (response : t.response.getD [] ≠ []) :
    CommitsOnce t.atpTaskId text h ((t.commit c).run w h).log ↔
      text = t.response.getD [] ∧ Accepted w h t c := by
  rw [accepted_iff uncommitted response]
  cases attempted : Caller.attempt (w.now h) (.context t c) with
  | none =>
    refine iff_of_false (idle_not_commitsOnce attempted) ?_
    simp
  | some b =>
    obtain ⟨_, _, systemId, hash, expiresAt, _, _, _, rfl⟩ := attempt_context.mp attempted
    rw [commit_attempted attempted rfl rfl]
    simp

theorem response_after (calls : List Call) (unset : t.response = none) :
    (calls.foldl Call.apply t).response =
      (calls.filterMap Call.response).getLast?.map ResponseValue.stored := by
  rw [foldl_apply]
  change Option.or _ t.response = _
  rw [unset, Option.or_none]

/-- A block whose body ends without an exception commits `str` of the last response exactly
where that is stored, it is not empty and a commit can be made; one whose body raises, or sets
no response, stores and posts nothing on exit. -/
theorem block_commits_iff (client c : ATPClient) (query : PyStr) (config : Option ATPConfig)
    (classification : Option Capability) (id : Uuid) (body : Body) (w : World) (h : List Event) :
    let t := newContext client query config classification id
    let s := body.trace w h
    let log := ((atpTask t c body).run w h).log
    let responses := s.calls.filterMap Call.response
    (∀ value, s.raised = none → responses.getLast? = some value →
      ((∃ text, value.str = some text ∧ CommitsOnce id.str text s.log log) ↔
        value.str = some value.stored ∧ value.stored ≠ [] ∧
          Accepted w s.log (s.calls.foldl Call.apply t) c)) ∧
    (s.raised ≠ none ∨ responses = [] → log = s.log) := by
  intro t s log responses
  have logged : log = _ := atpTask_log
  have response := response_after (t := t) s.calls rfl
  constructor
  · intro value ended last
    have given : (s.calls.foldl Call.apply t).response.getD [] = value.stored := by
      rw [response, last]
      rfl
    by_cases empty : value.stored = []
    · rw [logged, if_neg fun both => both.2 (given.trans empty)]
      refine iff_of_false ?_ fun both => both.2.1 empty
      rintro ⟨text, _, p, systemId, sketch, proofHash, committed, _⟩
      have lengths := congrArg List.length committed
      simp [s] at lengths
    · have present : (s.calls.foldl Call.apply t).response.getD [] ≠ [] := given ▸ empty
      have same : (s.calls.foldl Call.apply t).atpTaskId = id.str ∧
          (s.calls.foldl Call.apply t).committed = false := by
        rw [foldl_apply]
        exact ⟨rfl, rfl⟩
      have commits : ∀ text, CommitsOnce (s.calls.foldl Call.apply t).atpTaskId text s.log
          (((s.calls.foldl Call.apply t).commit c).run w s.log).log ↔
            text = (s.calls.foldl Call.apply t).response.getD [] ∧
              Accepted w s.log (s.calls.foldl Call.apply t) c :=
        fun _ => commit_commitsOnce_iff same.2 present
      rw [logged, if_pos ⟨by rw [ended]; rfl, present⟩, ← same.1, ← given]
      constructor
      · rintro ⟨text, str, once⟩
        obtain ⟨rfl, accepted⟩ := (commits text).mp once
        exact ⟨str, present, accepted⟩
      · rintro ⟨str, _, accepted⟩
        exact ⟨_, str, (commits _).mpr ⟨rfl, accepted⟩⟩
  · rintro (raised | silent)
    · rw [logged, if_neg fun both => raised (Option.isNone_iff_eq_none.mp both.1)]
    · have none : (s.calls.foldl Call.apply t).response.getD [] = [] := by
        rw [response, show s.calls.filterMap Call.response = [] from silent]
        rfl
      rw [logged, if_neg fun both => both.2 none]

def emptyResponse : Body := .call (.setResponse (.text [])) .finish

theorem emptyResponse_uncommitted :
    (emptyResponse.trace acceptingWorld []).raised = none ∧
      ((emptyResponse.trace acceptingWorld []).calls.filterMap Call.response).getLast? =
        some (.text []) ∧
      sampleClient.firstSystem.map Prod.snd = some "v".toList ∧
      ((atpTask (newContext sampleClient (lit "2+2?") none none sampleId) sampleClient
        emptyResponse).run acceptingWorld []).log = [] := by
  refine ⟨rfl, rfl, rfl, ?_⟩
  rw [atpTask_log]
  rfl

end Exit

end AgentTrust.TaskBlock
