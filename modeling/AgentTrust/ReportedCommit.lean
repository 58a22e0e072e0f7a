import AgentTrust.ResponseDecorator

/-! The flag that a decorated function returns with its result. It is read in the block,
before the exit commits, so it tells what was committed until then. -/

namespace AgentTrust.ReportedCommit

open PyText PyJson OrderedDict PyValue Models Effects Exchange Client Tasks Publication HonestAgent
  TaskBlock CallBinding ResponseDecorator
open Effects.Run hiding pure bind

section Completion

variable {w : World} {h log : List Event}

/-- A `create_commit` for the task has returned by the end of the log. -/
def CommitCompleted (w : World) (log : List Event) (taskId : Text) : Prop :=
  ∃ c systemId sketch before answer l,
    (createCommit c systemId taskId sketch).run w before = ⟨.ok answer, l⟩ ∧ l <+: log

theorem commitCompleted_mono {taskId : Text} {more : List Event} (later : log <+: more)
    (completed : CommitCompleted w log taskId) : CommitCompleted w more taskId := by
  obtain ⟨c, systemId, sketch, before, answer, l, run, early⟩ := completed
  exact ⟨c, systemId, sketch, before, answer, l, run, early.trans later⟩

theorem publish_completed {t : Completed} {c : ATPClient} {systemId : Text} {ttl : Int}
    {answer : CommitResponse} (run : (t.publish c systemId ttl).run w h = ⟨.ok answer, log⟩) :
    CommitCompleted w log t.taskId := by
  obtain ⟨expiresAt, l, _, run⟩ := (run_bind_eq_ok w h).mp run
  obtain ⟨u, l, _, run⟩ := (run_bind_eq_ok w _).mp run
  exact ⟨c, systemId, t.sketch, l, answer, log, run, List.prefix_refl log⟩

theorem commit_completed {t t' : ATPTaskContext} {c : ATPClient}
    (uncommitted : t.committed = false) (response : t.response.getD [] ≠ [])
    (run : (t.commit c).run w h = ⟨.ok t', log⟩) : CommitCompleted w log t.atpTaskId := by
  rcases commit_eq_ok run with ⟨committed | empty, _⟩ | ⟨_, _, _, _, _, _, _, _, published⟩
  · simp [uncommitted] at committed
  · exact absurd empty response
  · exact publish_completed published

def Marked (w : World) (t : ATPTaskContext) (log : List Event) : Prop :=
  t.committed = true → CommitCompleted w log t.atpTaskId

theorem marked_apply {t : ATPTaskContext} (marked : Marked w t h) (call : Call) :
    Marked w (call.apply t) h := by
  cases call <;> exact marked

theorem marked_commit {t : ATPTaskContext} (marked : Marked w t h) (c : ATPClient) :
    Marked w (((t.commit c).run w h).result.toOption.getD t) ((t.commit c).run w h).log := by
  have appends := commit_appends t c w h
  cases run : (t.commit c).run w h with
  | mk result log =>
    rw [run] at appends
    cases result with
    | error e => exact fun committed => commitCompleted_mono appends (marked committed)
    | ok t' =>
      rcases commit_eq_ok run with ⟨_, rfl, rfl⟩ | ⟨uncommitted, response, rfl, _⟩
      · exact marked
      · have completed := commit_completed uncommitted response run
        exact fun _ => completed

theorem marked_trace {α : Type} (program : Program α) {t : ATPTaskContext}
    (marked : Marked w t h) :
    Marked w (program.trace w t h).context (program.trace w t h).log := by
  induction program generalizing t h with
  | finish value => exact marked
  | raise e => exact marked
  | call c rest ih => exact ih (marked_apply marked c)
  | commit c rest ih => exact ih _ (marked_commit marked c)
  | await x appends rest ih =>
    exact ih _ fun committed => commitCompleted_mono (appends w h) (marked committed)

end Completion

section Flags

variable {α : Type} [PyObject α] {w : World} {h log : List Event}

theorem respond_dict {c : ATPClient} {s : Ended α} {taskId : Text} {result : Value α}
    {flag : Bool} : (s.respond true c).run w h = ⟨.ok (.dict taskId result flag), log⟩ ↔
      ∃ response t', s.answer = .ok (result, response) ∧ s.context.atpTaskId = taskId ∧
        s.context.committed = flag ∧
        (aexit (Call.apply s.context (.setResponse response)) c none).run w h =
          ⟨.ok t', log⟩ := by
  unfold Ended.respond
  constructor
  · intro returned
    split at returned
    · obtain ⟨_, _, _, raised⟩ := (run_bind_eq_ok w h).mp returned
      simp at raised
    · next value response answered =>
      obtain ⟨t', l, exit, returned⟩ := (run_bind_eq_ok w h).mp returned
      obtain ⟨dict, rfl⟩ := Outcome.mk.inj returned
      obtain ⟨rfl, rfl, rfl⟩ := Returned.dict.inj (Except.ok.inj dict)
      exact ⟨response, t', answered, rfl, rfl, exit⟩
  · rintro ⟨response, t', answered, rfl, rfl, exit⟩
    rw [answered]
    exact (run_bind_eq_ok w h).mpr ⟨t', log, exit, rfl⟩

theorem stored_of_answer {s : Ended α} {result : Value α} {response : ResponseValue}
    (answered : s.answer = .ok (result, response)) : result.stored = .ok response.stored := by
  obtain ⟨_, _, answered⟩ := bind_eq_ok.mp answered
  obtain ⟨_, given, answered⟩ := bind_eq_ok.mp answered
  obtain ⟨rfl, rfl⟩ := Prod.mk.inj (Except.ok.inj answered)
  rw [Value.stored, given]
  rfl

theorem aexit_completed {t t' : ATPTaskContext} {c : ATPClient} (uncommitted : t.committed = false)
    (exit : (aexit t c none).run w h = ⟨.ok t', log⟩) :
    CommitCompleted w log t.atpTaskId ↔
      (t.response.getD [] = [] → CommitCompleted w h t.atpTaskId) := by
  unfold aexit at exit
  split at exit
  · next both =>
    refine iff_of_true (commit_completed uncommitted both.2 exit) fun empty => ?_
    exact absurd empty both.2
  · next silent =>
    have empty : t.response.getD [] = [] := by simpa using silent
    obtain ⟨_, rfl⟩ := Outcome.mk.inj exit
    simp [empty]

theorem aexit_appends (t : ATPTaskContext) (c : ATPClient) (raised : Option Exc) (w : World)
    (h : List Event) : h <+: ((aexit t c raised).run w h).log := by
  unfold aexit
  split
  · exact commit_appends t c w h
  · exact List.prefix_refl h

/-- The flag of a returned dict tells whether a commit for its task is completed exactly where
the function has committed the context itself, or what is kept of its result is the empty
text and no commit for the task was completed when it returned. -/
theorem flag_true_iff (f : Function α) (param : PyStr) (client c : ATPClient) (id : Uuid)
    (a : Arguments PyStr (Value α)) (w : World) (h log : List Event) (taskId : Text)
    (result : Value α) (flag : Bool)
    (returned : (wrapper f param true client c id a).run w h =
      ⟨.ok (.dict taskId result flag), log⟩) :
    (flag = true ↔ CommitCompleted w log taskId) ↔
      ∃ s, called f param client id a w h = .ok s ∧ (s.context.committed = true ∨
        result.stored = .ok [] ∧ ¬ CommitCompleted w s.log taskId) := by
  simp only [wrapper] at returned
  cases run : called f param client id a w h with
  | error e => simp [run] at returned
  | ok s =>
    rw [run] at returned
    simp only [Except.ok.injEq, exists_eq_left']
    obtain ⟨response, t', answered, rfl, rfl, exit⟩ := respond_dict.mp returned
    have marked : Marked w s.context s.log := by
      obtain ⟨⟨query, call⟩, _, traced⟩ := bind_eq_ok.mp run
      obtain rfl := Except.ok.inj traced
      exact marked_trace _ (by simp [Marked, newContext])
    have appends := aexit_appends (Call.apply s.context (.setResponse response)) c none w s.log
    rw [exit] at appends
    cases committed : s.context.committed with
    | true =>
      have completed := commitCompleted_mono appends (marked committed)
      simp [completed]
    | false =>
      have completed := aexit_completed (t := Call.apply s.context (.setResponse response))
        committed exit
      have empty : result.stored = .ok [] ↔ response.stored = [] := by
        rw [stored_of_answer answered, Except.ok.injEq]
      simp only [Call.apply, Option.getD_some] at completed
      simp [completed, empty]

end Flags

section Samples

theorem not_commitCompleted_nil {w : World} {taskId : Text} : ¬ CommitCompleted w [] taskId := by
  rintro ⟨c, systemId, sketch, before, answer, l, run, early⟩
  obtain ⟨proofHash, logged⟩ := createCommit_ok run
  rw [logged, List.prefix_nil] at early
  simp at early

def constant (text : String) : Function Empty where
  signature := .ofParameters [⟨lit "query", true, none⟩] (List.nodup_singleton _)
  body := fun _ => .finish (.str (lit text))
  misfit := fun _ => foreign .typeError

def sampleCall : Arguments PyStr (Value Empty) :=
  ⟨[], Dict.empty.set (lit "query") (.str (lit "2+2?"))⟩

/-- A function with an empty result is not committed, and the flag says so. -/
theorem empty_flag : false = true ↔ CommitCompleted acceptingWorld [] sampleTask.str :=
  (flag_true_iff (constant "") (lit "query") sampleClient sampleClient sampleTask sampleCall
    acceptingWorld [] [] sampleTask.str (.str []) false rfl).mpr
      ⟨_, rfl, .inr ⟨rfl, not_commitCompleted_nil⟩⟩

theorem answered_commits (query : PyStr) : ∃ log, ((answered query).commit sampleClient).run
    acceptingWorld [] = ⟨.ok { answered query with committed := true }, log⟩ := by
  obtain ⟨answer, accepted⟩ := acceptance_accepted
  let task := contextTask (answered query) sampleClient "v".toList noon.wall
    sampleTaskDone.dependenciesHash
  obtain ⟨proofHash, published⟩ := publish_succeeds (w := acceptingWorld) (h := [.clock]) task
    sampleClient "v".toList expiry_noon rfl (fun _ _ => rfl) accepted
  refine ⟨[.clock] ++ events task sampleClient "v".toList onePm proofHash,
    (run_bind_eq_ok _ _).mpr ⟨noon.wall, [.clock], rfl, ?_⟩⟩
  refine (run_bind_eq_ok _ _).mpr ⟨sampleTaskDone.dependenciesHash, [.clock], rfl, ?_⟩
  exact (run_bind_eq_ok _ _).mpr ⟨answer, _, published, rfl⟩

/-- A function that returns "4": its commit is completed, and the flag is false. -/
theorem four_flag : ∃ log, (wrapper (constant "4") (lit "query") true sampleClient sampleClient
    sampleTask sampleCall).run acceptingWorld [] =
      ⟨.ok (.dict sampleTask.str (.str (lit "4")) false), log⟩ ∧
    ¬ (false = true ↔ CommitCompleted acceptingWorld log sampleTask.str) := by
  obtain ⟨log, committed⟩ := answered_commits (lit "2+2?")
  let s : Ended Empty :=
    ⟨newContext sampleClient (lit "2+2?") none none sampleTask, .ok (.str (lit "4")), []⟩
  have ended : called (constant "4") (lit "query") sampleClient sampleTask sampleCall
    acceptingWorld [] = .ok s := rfl
  refine ⟨log, ?_, ?_⟩
  · simp only [wrapper, ended]
    exact respond_dict.mpr ⟨.text (lit "4"), _, rfl, rfl, rfl, committed⟩
  · have completed := commit_completed (t := answered (lit "2+2?")) rfl (List.cons_ne_nil _ _)
      committed
    simp only [Bool.false_eq_true, false_iff, not_not]
    exact completed

end Samples

end AgentTrust.ReportedCommit
