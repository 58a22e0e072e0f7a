import AgentTrust.CallBinding
import AgentTrust.TaskBlock

/-! The `atp_response` decorator. It takes the query of a call from a keyword argument or
from the first positional one, makes the call again with the text of that query, in a task
of its own, and returns what the function returned. -/

namespace AgentTrust.ResponseDecorator

open PyText PyJson OrderedDict PyValue Models Effects Exchange Client Tasks Publication HonestAgent
  StoreAgreement TaskBlock CallBinding
open Effects.Run hiding pure bind

section Values

/-- The objects of a program whose type is not `str` itself: their truth and their text, which
their own methods give, and the characters of those that are instances of a subclass of it. -/
class PyObject (α : Type) where
  truth : α → Except Exc Bool
  str : α → Except Exc PyStr
  characters : α → Option PyStr

inductive Value (α : Type) where
  | str (s : PyStr)
  | other (a : α)

variable {α : Type} [PyObject α]

def Value.truth : Value α → Except Exc Bool
  | .str s => .ok (s ≠ [])
  | .other a => PyObject.truth a

/-- `str(value)`. -/
def Value.text : Value α → Except Exc PyStr
  | .str s => .ok s
  | .other a => PyObject.str a

def Value.response : Value α → Except Exc ResponseValue
  | .str s => .ok (.text s)
  | .other a =>
    match PyObject.characters a with
    | some s => .ok (.subclass s (PyObject.str a).toOption)
    | none => (PyObject.str a).map .other

def Value.stored (v : Value α) : Except Exc PyStr := v.response.map ResponseValue.stored

end Values

section Forwarding

variable {α : Type} [PyObject α]

/-- The query of a call: the keyword argument, or the first positional one if that is
missing or false. -/
def queryOf (param : PyStr) (a : Arguments PyStr (Value α)) : Except Exc PyStr := do
  let given := a.kwargs.get param
  let truth ← (given.map Value.truth).getD (.ok false)
  let query := if truth then given else a.args.head?.or given
  (query.map Value.text).getD (.ok (lit "None"))

/-- The arguments that the function is called with: the query in place of the first
positional one, or given by keyword. -/
def withQuery (param query : PyStr) (a : Arguments PyStr (Value α)) :
    Arguments PyStr (Value α) :=
  match a.args with
  | _ :: rest => ⟨.str query :: rest, a.kwargs⟩
  | [] => ⟨[], a.kwargs.set param (.str query)⟩

def forward (param : PyStr) (a : Arguments PyStr (Value α)) :
    Except Exc (PyStr × Arguments PyStr (Value α)) := do
  let query ← queryOf param a
  return (query, withQuery param query a)

variable {param query : PyStr} {kwargs : Dict PyStr (Value α)}

theorem forward_eq_ok {a call : Arguments PyStr (Value α)} :
    forward param a = .ok (query, call) ↔
      queryOf param a = .ok query ∧ withQuery param query a = call := by
  rw [forward, bind_eq_ok]
  constructor
  · rintro ⟨_, guessed, same⟩
    obtain ⟨rfl, rfl⟩ := Prod.mk.inj (Except.ok.inj same)
    exact ⟨guessed, rfl⟩
  · rintro ⟨guessed, rfl⟩
    exact ⟨query, guessed, rfl⟩

def Yields (query : PyStr) (v : Value α) : Prop :=
  v.truth = .ok false ∨ v.truth = .ok true ∧ v.text = .ok query

theorem queryOf_first {rest : List (Value α)} :
    queryOf param ⟨.str query :: rest, kwargs⟩ = .ok query ↔
      ∀ v, kwargs.get param = some v → Yields query v := by
  unfold queryOf Yields
  cases kwargs.get param with
  | none => simp [Value.text]
  | some v =>
    simp only [Option.map_some, Option.getD_some, Option.some.injEq, forall_eq']
    cases v.truth with
    | error e => simp
    | ok truth => cases truth <;> simp [Value.text]

theorem queryOf_keyword (nonempty : query ≠ []) (given : kwargs.get param = some (.str query)) :
    queryOf param ⟨[], kwargs⟩ = .ok query := by
  simp [queryOf, given, Value.truth, Value.text, nonempty]

theorem queryOf_missing (absent : kwargs.get param = none) :
    queryOf param ⟨[], kwargs⟩ = .ok (lit "None") := by
  simp [queryOf, absent]

def Guessed (s : Signature PyStr (Value α)) (param query : PyStr)
    (a : Arguments PyStr (Value α)) : Prop :=
  match a.args with
  | first :: _ => first = .str query ∧ ∀ v, a.kwargs.get param = some v → Yields query v
  | [] => a.kwargs.get param = some (.str query) ∨
    a.kwargs.get param = none ∧ s.takes param ∧ query = lit "None"

variable {s : Signature PyStr (Value α)} {a : Arguments PyStr (Value α)}
  {b : Binding PyStr (Value α)}

theorem forward_iff (bound : s.bind a = some b) (value : b.get param = some (.str query))
    (nonempty : query ≠ []) :
    (∃ call, forward param a = .ok (query, call) ∧ s.bind call = some b) ↔
      Guessed s param query a := by
  simp only [forward_eq_ok, Guessed]
  obtain ⟨args, kwargs⟩ := a
  cases args with
  | cons first rest =>
    constructor
    · rintro ⟨_, ⟨guessed, rfl⟩, rebound⟩
      obtain rfl := bind_first_inj bound rebound
      exact ⟨rfl, queryOf_first.mp guessed⟩
    · rintro ⟨rfl, yields⟩
      exact ⟨_, ⟨queryOf_first.mpr yields, rfl⟩, bound⟩
  | nil =>
    constructor
    · rintro ⟨_, ⟨guessed, rfl⟩, rebound⟩
      rcases bind_set_keyword bound rebound with given | ⟨absent, takes, _⟩
      · exact .inl given
      · rw [queryOf_missing absent, Except.ok.injEq] at guessed
        exact .inr ⟨absent, takes, guessed.symm⟩
    · rintro (given | ⟨absent, takes, rfl⟩)
      · refine ⟨_, ⟨queryOf_keyword nonempty given, rfl⟩, ?_⟩
        rw [withQuery, Dict.set_same given]
        exact bound
      · exact ⟨_, ⟨queryOf_missing absent, rfl⟩, bind_set_default bound absent takes value⟩

end Forwarding

section Programs

/-- What the decorated function does in the task it is run in. It may reach the task's
context, commit it itself, and go on with what anything it awaits was answered; events are
only added to the log. -/
inductive Program (α : Type) : Type 1 where
  | finish (value : Value α)
  | raise (e : Exc)
  | call (c : Call) (rest : Program α)
  | commit (c : ATPClient) (rest : Except Exc Unit → Program α)
  | await {β : Type} (x : Run β) (appends : ∀ w h, h <+: (x.run w h).log)
      (rest : Except Exc β → Program α)

structure Ended (α : Type) where
  context : ATPTaskContext
  result : Except Exc (Value α)
  log : List Event

variable {α : Type}

def Program.trace (w : World) : Program α → ATPTaskContext → List Event → Ended α
  | .finish value, t, h => ⟨t, .ok value, h⟩
  | .raise e, t, h => ⟨t, .error e, h⟩
  | .call c rest, t, h => rest.trace w (c.apply t) h
  | .commit c rest, t, h =>
    let o := (t.commit c).run w h
    (rest (o.result.map fun _ => ())).trace w (o.result.toOption.getD t) o.log
  | .await x _ rest, t, h => (rest (x.run w h).result).trace w t (x.run w h).log

/-- A function: its parameters, what it does with a binding of them, and the exception of a
call that does not fit. -/
structure Function (α : Type) where
  signature : Signature PyStr (Value α)
  body : Binding PyStr (Value α) → Program α
  misfit : Arguments PyStr (Value α) → Exc

def Function.call (f : Function α) (a : Arguments PyStr (Value α)) : Program α :=
  match f.signature.bind a with
  | some b => f.body b
  | none => .raise (f.misfit a)

inductive Returned (α : Type) where
  | dict (atpTaskId : Text) (result : Value α) (atpCommitted : Bool)
  | plain (result : Value α)

variable [PyObject α]

def Ended.answer (s : Ended α) : Except Exc (Value α × ResponseValue) := do
  let value ← s.result
  let response ← value.response
  return (value, response)

/-- The rest of the block when the function has ended: the response is set and the flag
read, and then comes the exit. -/
def Ended.respond (wrapped : Bool) (c : ATPClient) (s : Ended α) : Run (Returned α) :=
  match s.answer with
  | .error e => do
    let _ ← aexit s.context c (some e)
    .raise e
  | .ok (value, response) => do
    let t := Call.apply s.context (.setResponse response)
    let returned := if wrapped then .dict t.atpTaskId value t.committed else .plain value
    let _ ← aexit t c none
    pure returned

def called (f : Function α) (param : PyStr) (client : ATPClient) (id : Uuid)
    (a : Arguments PyStr (Value α)) (w : World) (h : List Event) : Except Exc (Ended α) := do
  let (query, call) ← forward param a
  return (f.call call).trace w (newContext client query none none id) h

/-- `atp_response(client, store, query_param, response_wrapper)(func)(*args, **kwargs)`, with
the client as it is on exit. -/
def wrapper (f : Function α) (param : PyStr) (wrapped : Bool) (client c : ATPClient) (id : Uuid)
    (a : Arguments PyStr (Value α)) : Run (Returned α) :=
  ⟨fun w h => match called f param client id a w h with
    | .error e => ⟨.error e, h⟩
    | .ok s => (s.respond wrapped c).run w s.log⟩

end Programs

section Contexts

theorem commit_saves {t : ATPTaskContext} {c : ATPClient} {w : World} {h : List Event}
    {p : StoredProof} (saved : .save p ∈ ((t.commit c).run w h).log.drop h.length) :
    p.proofData.task.invocation = invocationOf t.query := by
  cases attempted : Caller.attempt (w.now h) (.context t c) with
  | none =>
    rcases commit_idle attempted with same | clock
    · simp [same] at saved
    · simp [clock] at saved
  | some b =>
    obtain ⟨proofHash, _, logged⟩ := commit_logs attempted
    have proof : p = b.proof := by
      cases taken : w.save (h ++ [.clock]) b.proof with
      | error e => simpa [logged, taken] using saved
      | ok u => simpa [logged, taken] using saved
    obtain ⟨_, _, _, _, _, _, _, _, rfl⟩ := attempt_context.mp attempted
    rw [proof]
    rfl

theorem commit_appends (t : ATPTaskContext) (c : ATPClient) (w : World) (h : List Event) :
    h <+: ((t.commit c).run w h).log := by
  cases attempted : Caller.attempt (w.now h) (.context t c) with
  | none =>
    rcases commit_idle attempted with same | clock
    · rw [same]
    · rw [clock]
      exact List.prefix_append _ _
  | some b =>
    obtain ⟨proofHash, _, logged⟩ := commit_logs attempted
    rw [logged, List.append_assoc, List.append_assoc]
    exact List.prefix_append _ _

end Contexts

section Recording

variable {α : Type}

def Same (t t' : ATPTaskContext) : Prop := t'.query = t.query ∧ t'.atpTaskId = t.atpTaskId

theorem same_apply (call : Call) (t : ATPTaskContext) : Same t (call.apply t) := by
  cases call <;> exact ⟨rfl, rfl⟩

theorem same_commit (t : ATPTaskContext) (c : ATPClient) (w : World) (h : List Event) :
    Same t (((t.commit c).run w h).result.toOption.getD t) := by
  cases run : (t.commit c).run w h with
  | mk result log =>
    cases result with
    | error e => exact ⟨rfl, rfl⟩
    | ok t' =>
      obtain ⟨_, rfl, _⟩ | ⟨_, _, rfl, _⟩ := commit_eq_ok run <;> exact ⟨rfl, rfl⟩

theorem Same.trans {t t' t'' : ATPTaskContext} (first : Same t t') (next : Same t' t'') :
    Same t t'' := ⟨next.1.trans first.1, next.2.trans first.2⟩

theorem trace_same (program : Program α) (t : ATPTaskContext) (w : World) (h : List Event) :
    Same t (program.trace w t h).context := by
  induction program generalizing t h with
  | finish value => exact ⟨rfl, rfl⟩
  | raise e => exact ⟨rfl, rfl⟩
  | call c rest ih => exact (same_apply c t).trans (ih (c.apply t) h)
  | commit c rest ih => exact (same_commit t c w h).trans (ih _ _ _)
  | await x appends rest ih => exact ih _ t _

variable [PyObject α]

theorem respond_log (wrapped : Bool) (c : ATPClient) (s : Ended α) (w : World) (h : List Event) :
    ((s.respond wrapped c).run w h).log = h ∨
      ∃ response, ((s.respond wrapped c).run w h).log =
        (((Call.apply s.context (.setResponse response)).commit c).run w h).log := by
  unfold Ended.respond
  split
  · exact .inl rfl
  · next value response _ =>
    dsimp only
    rw [log_bind w h fun _ _ => rfl]
    unfold aexit
    split
    · exact .inr ⟨response, rfl⟩
    · exact .inl rfl

def recordedQuery (p : StoredProof) : Except Exc JsonValue :=
  getItem "input" (.obj p.proofData.task.invocation) >>= getItem "query"

theorem respond_saves (wrapped : Bool) (c : ATPClient) (s : Ended α) (w : World) (h : List Event)
    {p : StoredProof} (saved : .save p ∈ ((s.respond wrapped c).run w h).log.drop h.length) :
    recordedQuery p = .ok (.str s.context.query) := by
  rcases respond_log wrapped c s w h with same | ⟨response, same⟩
  · simp [same] at saved
  · rw [same] at saved
    rw [recordedQuery, commit_saves saved]
    simp [invocationOf, getItem, record, lit_inj, Call.apply]

/-- Whatever a function does, the proof that the wrapper then stores of a task with the one
query records the other. -/
def Records (α : Type) [PyObject α] (query recorded : PyStr) : Prop :=
  ∀ (program : Program α) (client c : ATPClient) (id : Uuid) (wrapped : Bool) (w : World)
    (h : List Event) (p : StoredProof),
    let s := program.trace w (newContext client query none none id) h
    .save p ∈ ((s.respond wrapped c).run w s.log).log.drop s.log.length →
      recordedQuery p = .ok (.str recorded)

def answered (query : PyStr) : ATPTaskContext :=
  Call.apply (newContext sampleClient query none none sampleTask) (.setResponse (.text (lit "4")))

theorem answered_accepted (query : PyStr) :
    Accepted acceptingWorld [] (answered query) sampleClient := by
  obtain ⟨hash, hashed⟩ : ∃ hash,
      Hashing.computeDependenciesHash (σ := Text) [] = .ok hash := ⟨_, rfl⟩
  exact ⟨"v".toList, hash, onePm, rfl, hashed, expiry_noon, rfl⟩

theorem records_iff {query recorded : PyStr} : Records α query recorded ↔ query = recorded := by
  constructor
  · intro records
    let s : Ended α :=
      ⟨newContext sampleClient query none none sampleTask, .ok (.str (lit "4")), []⟩
    have responded : (answered query).response.getD [] ≠ [] := List.cons_ne_nil _ _
    obtain ⟨p, systemId, sketch, proofHash, logged, _⟩ :=
      (commit_commitsOnce_iff rfl responded).mpr ⟨rfl, answered_accepted query⟩
    have exit : ((s.respond true sampleClient).run acceptingWorld []).log =
        (((answered query).commit sampleClient).run acceptingWorld []).log :=
      log_bind _ _ fun _ _ => rfl
    have saved : .save p ∈ ((s.respond true sampleClient).run acceptingWorld []).log := by
      simp [exit, logged]
    have made := respond_saves true sampleClient s acceptingWorld [] saved
    have expected := records (.finish (.str (lit "4"))) sampleClient sampleClient sampleTask true
      acceptingWorld [] p saved
    rw [made] at expected
    exact JsonTree.Json.str.inj (Except.ok.inj expected)
  · rintro rfl program client c id wrapped w h p s saved
    have query := (trace_same program (newContext client query none none id) w h).1
    rw [respond_saves wrapped c s w s.log saved, query]
    rfl

/-- The wrapper calls a function with the binding of the undecorated call, and what it then
stores records the query. -/
def Faithful (s : Signature PyStr (Value α)) (param query : PyStr)
    (a : Arguments PyStr (Value α)) (b : Binding PyStr (Value α)) : Prop :=
  ∃ guessed call, forward param a = .ok (guessed, call) ∧ s.bind call = some b ∧
    Records α guessed query

/-- For a call that gives the query a text that is not empty, the wrapper is faithful exactly
where its guess is right. -/
theorem faithful_iff {s : Signature PyStr (Value α)} {param query : PyStr}
    {a : Arguments PyStr (Value α)} {b : Binding PyStr (Value α)} (bound : s.bind a = some b)
    (value : b.get param = some (.str query)) (nonempty : query ≠ []) :
    Faithful s param query a b ↔ Guessed s param query a := by
  rw [← forward_iff bound value nonempty, Faithful]
  constructor
  · rintro ⟨guessed, call, forwarded, rebound, records⟩
    obtain rfl := records_iff.mp records
    exact ⟨call, forwarded, rebound⟩
  · rintro ⟨call, forwarded, rebound⟩
    exact ⟨query, call, forwarded, rebound, records_iff.mpr rfl⟩

end Recording

section Samples

/-- Where all values are strings. -/
instance : PyObject Empty := ⟨Empty.elim, Empty.elim, Empty.elim⟩

/-- `async def f(topic, query)`. -/
def topicSignature : Signature PyStr (Value Empty) :=
  .ofParameters [⟨lit "topic", true, none⟩, ⟨lit "query", true, none⟩] (by decide)

/-- `f(topic="math", query="2+2?")`, and its binding. -/
def keywordCall : Arguments PyStr (Value Empty) :=
  ⟨[], (Dict.empty.set (lit "topic") (.str (lit "math"))).set (lit "query") (.str (lit "2+2?"))⟩

def topicBinding : Binding PyStr (Value Empty) :=
  ⟨[(lit "topic", .str (lit "math")), (lit "query", .str (lit "2+2?"))], [], Dict.empty⟩

theorem keywordCall_faithful :
    Faithful topicSignature (lit "query") (lit "2+2?") keywordCall topicBinding :=
  (faithful_iff rfl rfl (by decide)).mpr (.inl rfl)

/-- `f("math", query="2+2?")`: the query is passed for the topic as well. -/
def mixedCall : Arguments PyStr (Value Empty) :=
  ⟨[.str (lit "math")], Dict.empty.set (lit "query") (.str (lit "2+2?"))⟩

theorem mixedCall_unfaithful : topicSignature.bind mixedCall = some topicBinding ∧
    topicBinding.get (lit "query") = some (.str (lit "2+2?")) ∧ lit "2+2?" ≠ [] ∧
    ¬ Faithful topicSignature (lit "query") (lit "2+2?") mixedCall topicBinding := by
  refine ⟨rfl, rfl, by decide, ?_⟩
  rintro ⟨guessed, call, forwarded, rebound, _⟩
  obtain ⟨keyword, rfl⟩ := forward_eq_ok.mp forwarded
  have found : queryOf (lit "query") mixedCall = .ok (lit "2+2?") := rfl
  have same : guessed = lit "2+2?" := Except.ok.inj (keyword.symm.trans found)
  have bound : topicSignature.bind ⟨[.str (lit "math")], mixedCall.kwargs⟩ =
    some topicBinding := rfl
  have replaced : lit "math" = guessed := Value.str.inj (bind_first_inj bound rebound)
  exact absurd (replaced.trans same) (by decide)

end Samples

end AgentTrust.ResponseDecorator
