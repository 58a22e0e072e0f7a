import AgentTrust.Tasks

/-! From a completed task to its disclosure. A successful run stores one proof and
commits one sketch with the same content hashes; either store gives the proof back
until it expires; and a challenge is answered with its dump. -/

namespace AgentTrust.Publication

open JsonTree JsonTree.Json PyText PyJson Gregorian PyDateTime IsoFormat OrderedDict PyValue Models
  Hashing Effects Exchange Client Storage Tasks
open Effects.Run hiding pure bind

section Plain

/-- JSON that survives being written as text: no floats, distinct keys. -/
def plain (v : JsonValue) : Bool := v.floatFree && v.distinctKeys

@[simp] theorem plain_null : plain .null = true := rfl
@[simp] theorem plain_str (s : PyStr) : plain (.str s) = true := rfl
@[simp] theorem plain_text (t : Text) : plain (text t) = true := rfl
@[simp] theorem plain_date (d : DateTime) : plain (date d) = true := rfl

@[simp] theorem plain_optText (x : Option Text) : plain (opt text x) = true := by
  cases x <;> rfl

theorem plain_arr {xs : List JsonValue} (h : ∀ x ∈ xs, plain x) : plain (.arr xs) := by
  simp only [plain, floatFree_arr, distinctKeys_arr, Bool.and_eq_true, List.all_eq_true]
  exact ⟨fun x hx => (Bool.and_eq_true_iff.mp (h x hx)).1,
    fun x hx => (Bool.and_eq_true_iff.mp (h x hx)).2⟩

theorem plain_list {α : Type} {f : α → JsonValue} {xs : List α} (h : ∀ a ∈ xs, plain (f a)) :
    plain (list f xs) := by
  refine plain_arr fun x hx => ?_
  obtain ⟨a, ha, rfl⟩ := List.mem_map.mp hx
  exact h a ha

theorem plain_record {fields : List (String × JsonValue)} (keys : (fields.map Prod.fst).Nodup)
    (values : ∀ p ∈ fields, plain p.2) : plain (record fields) := by
  have parts : ∀ p ∈ fields, p.2.floatFree = true ∧ p.2.distinctKeys = true := fun p hp =>
    Bool.and_eq_true_iff.mp (values p hp)
  simp only [plain, record, floatFree_obj, distinctKeys_obj, Bool.and_eq_true, List.all_eq_true,
    decide_eq_true_eq]
  refine ⟨?_, nodup_record keys, ?_⟩
  · intro q hq
    obtain ⟨p, hp, rfl⟩ := List.mem_map.mp hq
    exact (parts p hp).1
  · intro q hq
    obtain ⟨p, hp, rfl⟩ := List.mem_map.mp hq
    exact (parts p hp).2

theorem plain_evaluation (e : DependencyEvaluation) : plain e.dump :=
  plain_record (by simp) (by simp)

theorem plain_dependency (d : Dependency) : plain d.dump :=
  plain_record (by simp) (by simp [plain_list fun e _ => plain_evaluation e])

theorem plain_storedProof {p : StoredProof} (invocation : plain (.obj p.proofData.task.invocation))
    (outcome : plain (.obj p.proofData.task.outcome)) : plain p.dump := by
  have task : plain p.proofData.task.dump :=
    plain_record (by simp) (by simp [invocation, outcome])
  have data : plain p.proofData.dump :=
    plain_record (by simp) (by simp [task, plain_list fun d _ => plain_dependency d])
  exact plain_record (by simp) (by simp [data])

theorem plain_invocationOf (query : PyStr) : plain (.obj (invocationOf query)) := by
  have trigger : plain (record [("type", .str (lit "user_message"))]) :=
    plain_record (by simp) (by simp)
  have input : plain (record [("query", .str query)]) := plain_record (by simp) (by simp)
  have fields : JsonTree.Json.obj (invocationOf query) = record [("method", .str (lit "query")),
      ("trigger", record [("type", .str (lit "user_message"))]),
      ("input", record [("query", .str query)])] := rfl
  rw [fields]
  refine plain_record (by simp) ?_
  simp only [List.forall_mem_cons]
  exact ⟨plain_str _, trigger, input, by simp⟩

theorem plain_outcomeOf (response : PyStr) (artifacts : Option JsonValue)
    (h : ∀ a ∈ artifacts, plain a) : plain (.obj (outcomeOf response artifacts)) := by
  have answer : plain (record [("text", .str response)]) := plain_record (by simp) (by simp)
  have actions : plain (.arr []) := plain_arr (by simp)
  cases artifacts with
  | none =>
    have fields : JsonTree.Json.obj (outcomeOf response none) = record
        [("response", record [("text", .str response)]), ("status", .str (lit "success")),
         ("actions", .arr []), ("error", .null)] := rfl
    rw [fields]
    refine plain_record (by simp) ?_
    simp only [List.forall_mem_cons]
    exact ⟨answer, plain_str _, actions, plain_null, by simp⟩
  | some a =>
    have fields : JsonTree.Json.obj (outcomeOf response (some a)) = record
        [("response", record [("text", .str response)]), ("status", .str (lit "success")),
         ("actions", .arr []), ("error", .null), ("artifacts", a)] := rfl
    rw [fields]
    refine plain_record (by simp) ?_
    simp only [List.forall_mem_cons]
    exact ⟨answer, plain_str _, actions, plain_null, h a rfl, by simp⟩

end Plain

section Runs

variable {lib : Library} {w : World} {h log : List Event}

def events (t : Completed) (c : ATPClient) (systemId : Text) (expiresAt : DateTime)
    (proofHash : Text) : List Event :=
  [.save (t.storedProof expiresAt), .send (postRequest "/api/v1/commit"
    (commitPayload systemId t.taskId (c.completed systemId t.sketch) proofHash))]

theorem createCommit_ok {c : ATPClient} {systemId taskId : Text} {s : ProofSketch}
    {r : CommitResponse} (run : (createCommit c systemId taskId s).run w h = ⟨.ok r, log⟩) :
    ∃ proofHash, log = h ++ [.send (postRequest "/api/v1/commit"
      (commitPayload systemId taskId (c.completed systemId s) proofHash))] := by
  obtain ⟨proofHash, _, logged⟩ := createCommit_sends c systemId taskId s w h
  rw [run] at logged
  exact ⟨proofHash, logged⟩

theorem expiry_utc {now : Wall} {ttl : Int} {d : DateTime} (h : expiry now ttl = .ok d) :
    d.offset = some utcOffset := by
  unfold expiry at h
  split at h
  · rw [← Except.ok.inj h]
    rfl
  · simp at h

theorem publish_ok {t : Completed} {c : ATPClient} {systemId : Text} {ttl : Int}
    {r : CommitResponse} (run : (t.publish c systemId ttl).run w h = ⟨.ok r, log⟩) :
    ∃ expiresAt proofHash, expiresAt.offset = some utcOffset ∧
      log = h ++ events t c systemId expiresAt proofHash := by
  obtain ⟨expiresAt, l, deadline, run⟩ := (run_bind_eq_ok w h).mp run
  obtain rfl : h = l := congrArg Outcome.log deadline
  obtain ⟨u, l, saved, run⟩ := (run_bind_eq_ok w h).mp run
  obtain rfl : h ++ [.save (t.storedProof expiresAt)] = l := congrArg Outcome.log saved
  obtain ⟨proofHash, logged⟩ := createCommit_ok run
  exact ⟨expiresAt, proofHash, expiry_utc (congrArg Outcome.result deadline),
    by simp [logged, events]⟩

theorem publish_succeeds (t : Completed) (c : ATPClient) (systemId : Text) {ttl : Int}
    {expiresAt : DateTime} {r : Response} {answer : CommitResponse}
    (deadline : expiry t.now ttl = .ok expiresAt)
    (saved : w.save h (t.storedProof expiresAt) = .ok ())
    (replied : ∀ l request, w.reply l request = .ok r)
    (accepted : (acceptedBody r .commitError "Commit creation failed with status " >>=
      CommitResponse.ofData) = .ok answer) :
    ∃ proofHash, (t.publish c systemId ttl).run w h =
      ⟨.ok answer, h ++ events t c systemId expiresAt proofHash⟩ := by
  obtain ⟨proofHash, _, posted⟩ := createCommit_posts c systemId t.taskId t.sketch w
    (h ++ [.save (t.storedProof expiresAt)])
  obtain ⟨data, body, decoded⟩ := bind_eq_ok.mp accepted
  refine ⟨proofHash, ?_⟩
  refine (run_bind_eq_ok w h).mpr ⟨expiresAt, h, by rw [run_lift, deadline], ?_⟩
  refine (run_bind_eq_ok w h).mpr ⟨(), h ++ [.save (t.storedProof expiresAt)], ?_, ?_⟩
  · rw [saveProof, run_perform, saved]
  · rw [posted, translated, run_attempt]
    simp only [send, run_bind, run_perform, replied, next_ok, run_lift, body, decoded]
    simp [events]

/-- What the verification of a published task relies on. -/
structure Honest (lib : Library) (systemId taskId : Text) (t : Completed) : Prop where
  systemUri : ∃ base, t.systemUri = base ++ "/systems/".toList ++ systemId
  taskId : t.taskId = taskId
  invocation : plain (.obj t.invocation)
  outcome : plain (.obj t.outcome)
  dependencies : ∀ d ∈ t.dependencies, d.Readable lib

/-- The events of a run that completes a task: of the adapter, whose registered URI
ends in the system id, or of the task context. -/
inductive Produced (lib : Library) (systemId taskId : Text) : List Event → Prop
  | adapter {a : MinimalAdapter} {query response : PyStr} {artifacts : Option JsonValue}
      {classification : Option Capability} {w : World} {result : TaskResult} {log : List Event}
      (system : a.systemId = some systemId)
      (uri : ∀ u ∈ a.systemUri, u ≠ [] → ∃ base, u = base ++ "/systems/".toList ++ systemId)
      (object : ∀ x ∈ artifacts, isRecord x = true ∧ plain x = true)
      (run : (a.onTaskComplete taskId query response artifacts classification).run w [] =
        ⟨.ok result, log⟩) : Produced lib systemId taskId log
  | context {t t' : ATPTaskContext} {c : ATPClient} {w : World} {log : List Event}
      (system : c.firstSystem.map Prod.snd = some systemId)
      (task : t.atpTaskId = taskId) (uncommitted : t.committed = false)
      (response : t.response.getD [] ≠ [])
      (dependencies : ∀ d ∈ t.dependencies, d.Readable lib)
      (run : (t.commit c).run w [] = ⟨.ok t', log⟩) : Produced lib systemId taskId log

theorem fallbackUri_ends (config : ATPConfig) (systemId : Text) :
    ∃ base, fallbackUri config systemId = base ++ "/systems/".toList ++ systemId := ⟨_, rfl⟩

theorem publish_run_ok {β : Type} {dependencies : List (Form Dependency)} {task : Text → Completed}
    {c : ATPClient} {systemId : Text} {ttl : Int} {answer : CommitResponse → β} {b : β}
    (run : ((do
      let hash ← .lift (computeDependenciesHash dependencies)
      let commit ← (task hash).publish c systemId ttl
      pure (answer commit) : Run β).run w h) = ⟨.ok b, log⟩) :
    ∃ hash expiresAt proofHash, expiresAt.offset = some utcOffset ∧
      log = h ++ events (task hash) c systemId expiresAt proofHash := by
  obtain ⟨hash, l, computed, run⟩ := (run_bind_eq_ok w h).mp run
  obtain rfl : h = l := congrArg Outcome.log computed
  obtain ⟨commit, l, published, run⟩ := (run_bind_eq_ok w h).mp run
  obtain rfl : l = log := congrArg Outcome.log run
  exact ⟨hash, publish_ok published⟩

def adapterTask (a : MinimalAdapter) (systemId taskId : Text) (query response : PyStr)
    (artifacts : Option JsonValue) (classification : Option Capability) (now : Wall)
    (dependenciesHash : Text) : Completed where
  systemUri := (a.systemUri.filter (· ≠ [])).getD (fallbackUri a.config systemId)
  systemType := (a.client.systemTypes.get systemId).getD "agent".toList
  taskId := taskId
  invocation := invocationOf query
  outcome := outcomeOf response artifacts
  dependencies := []
  dependenciesHash := dependenciesHash
  classification := classification.getD defaultClassification
  now := now

def contextTask (t : ATPTaskContext) (c : ATPClient) (systemId : Text) (now : Wall)
    (dependenciesHash : Text) : Completed where
  systemUri := fallbackUri t.config systemId
  systemType := (c.systemTypes.get systemId).getD "agent".toList
  taskId := t.atpTaskId
  invocation := invocationOf t.query
  outcome := outcomeOf (t.response.getD []) none
  dependencies := t.dependencies
  dependenciesHash := dependenciesHash
  classification := t.classification
  now := now

theorem onTaskComplete_ok {taskId : Text} {a : MinimalAdapter} {query response : PyStr}
    {artifacts : Option JsonValue} {classification : Option Capability} {result : TaskResult}
    (run : (a.onTaskComplete taskId query response artifacts classification).run w h =
      ⟨.ok result, log⟩) :
    ∃ systemId now hash expiresAt proofHash, a.systemId.filter (· ≠ []) = some systemId ∧
      expiresAt.offset = some utcOffset ∧ log = h ++ .clock :: events
        (adapterTask a systemId taskId query response artifacts classification now hash) a.client
        systemId expiresAt proofHash := by
  unfold MinimalAdapter.onTaskComplete at run
  split at run
  · simp at run
  · next systemId present =>
    obtain ⟨now, l, clock, run⟩ := (run_bind_eq_ok w h).mp run
    obtain rfl : h ++ [.clock] = l := congrArg Outcome.log clock
    obtain ⟨hash, expiresAt, proofHash, utc, logged⟩ := publish_run_ok run
    exact ⟨systemId, now, hash, expiresAt, proofHash, present, utc, by
      rw [logged, List.append_assoc]; rfl⟩

theorem commit_eq_ok {t t' : ATPTaskContext} {c : ATPClient}
    (run : (t.commit c).run w h = ⟨.ok t', log⟩) :
    (t.committed = true ∨ t.response.getD [] = []) ∧ t' = t ∧ log = h ∨
      t.committed = false ∧ t.response.getD [] ≠ [] ∧ t' = { t with committed := true } ∧
        ∃ systemId now hash answer, (c.firstSystem.map Prod.snd).filter (· ≠ []) = some systemId ∧
          ((contextTask t c systemId now hash).publish c systemId t.config.proofTtlSeconds).run w
            (h ++ [.clock]) = ⟨.ok answer, log⟩ := by
  unfold ATPTaskContext.commit at run
  dsimp only at run
  split at run
  · next idle =>
    obtain ⟨same, logged⟩ := Outcome.mk.inj run
    exact .inl ⟨idle, (Except.ok.inj same).symm, logged.symm⟩
  · next pending =>
    obtain ⟨uncommitted, response⟩ := not_or.mp pending
    obtain ⟨now, l, clock, run⟩ := (run_bind_eq_ok w h).mp run
    obtain rfl : h ++ [.clock] = l := congrArg Outcome.log clock
    split at run
    · simp at run
    · next systemId present =>
      obtain ⟨hash, l, computed, run⟩ := (run_bind_eq_ok w _).mp run
      obtain rfl : h ++ [.clock] = l := congrArg Outcome.log computed
      obtain ⟨answer, l, published, run⟩ := (run_bind_eq_ok w _).mp run
      obtain ⟨marked, rfl⟩ := Outcome.mk.inj run
      exact .inr ⟨by simpa using uncommitted, response, (Except.ok.inj marked).symm, systemId, now,
        hash, answer, present, published⟩

theorem commit_ok {t t' : ATPTaskContext} {c : ATPClient} (uncommitted : t.committed = false)
    (response : t.response.getD [] ≠ []) (run : (t.commit c).run w h = ⟨.ok t', log⟩) :
    ∃ systemId now hash expiresAt proofHash,
      (c.firstSystem.map Prod.snd).filter (· ≠ []) = some systemId ∧
      expiresAt.offset = some utcOffset ∧ log = h ++ .clock :: events
        (contextTask t c systemId now hash) c systemId expiresAt proofHash := by
  rcases commit_eq_ok run with ⟨committed | empty, _⟩ |
    ⟨_, _, _, systemId, now, hash, answer, present, published⟩
  · simp [uncommitted] at committed
  · exact absurd empty response
  · obtain ⟨expiresAt, proofHash, utc, logged⟩ := publish_ok published
    exact ⟨systemId, now, hash, expiresAt, proofHash, present, utc, by
      rw [logged, List.append_assoc]; rfl⟩

theorem eq_of_filter {systemId id : Text} {known : Option Text} (system : known = some systemId)
    (present : known.filter (· ≠ []) = some id) : systemId = id := by
  rw [system] at present
  exact Option.some.inj (Option.filter_eq_some_iff.mp present).1

def Completes (lib : Library) (systemId taskId : Text) (log : List Event) : Prop :=
  ∃ t c expiresAt proofHash, Honest lib systemId taskId t ∧ expiresAt.offset = some utcOffset ∧
    log = .clock :: events t c systemId expiresAt proofHash

theorem completes_onTaskComplete {systemId taskId : Text} {a : MinimalAdapter}
    {query response : PyStr} {artifacts : Option JsonValue} {classification : Option Capability}
    {result : TaskResult} (system : a.systemId = some systemId)
    (uri : ∀ u ∈ a.systemUri, u ≠ [] → ∃ base, u = base ++ "/systems/".toList ++ systemId)
    (object : ∀ x ∈ artifacts, isRecord x = true ∧ plain x = true)
    (run : (a.onTaskComplete taskId query response artifacts classification).run w [] =
      ⟨.ok result, log⟩) : Completes lib systemId taskId log := by
  obtain ⟨id, now, hash, expiresAt, proofHash, present, utc, logged⟩ := onTaskComplete_ok run
  obtain rfl := eq_of_filter system present
  refine ⟨_, a.client, expiresAt, proofHash, ?_, utc, logged⟩
  exact {
    systemUri := by
      unfold adapterTask
      cases given : a.systemUri.filter (· ≠ []) with
      | none => exact fallbackUri_ends _ _
      | some u =>
        obtain ⟨registered, nonempty⟩ := Option.filter_eq_some_iff.mp given
        exact uri u registered (by simpa using nonempty)
    taskId := rfl
    invocation := plain_invocationOf query
    outcome := plain_outcomeOf response artifacts fun x hx => (object x hx).2
    dependencies := by simp [adapterTask] }

theorem completes_commit {systemId : Text} {t t' : ATPTaskContext} {c : ATPClient}
    (system : c.firstSystem.map Prod.snd = some systemId) (uncommitted : t.committed = false)
    (response : t.response.getD [] ≠ []) (dependencies : ∀ d ∈ t.dependencies, d.Readable lib)
    (run : (t.commit c).run w [] = ⟨.ok t', log⟩) : Completes lib systemId t.atpTaskId log := by
  obtain ⟨id, now, hash, expiresAt, proofHash, present, utc, logged⟩ :=
    commit_ok uncommitted response run
  obtain rfl := eq_of_filter system present
  refine ⟨_, c, expiresAt, proofHash, ?_, utc, logged⟩
  exact {
    systemUri := fallbackUri_ends _ _
    taskId := rfl
    invocation := plain_invocationOf t.query
    outcome := plain_outcomeOf (t.response.getD []) none (by simp)
    dependencies := dependencies }

/-- A successful run stores one proof and commits one sketch. -/
theorem completes_of_produced {systemId taskId : Text}
    (produced : Produced lib systemId taskId log) : Completes lib systemId taskId log := by
  cases produced with
  | adapter system uri object run => exact completes_onTaskComplete system uri object run
  | context system task uncommitted response dependencies run =>
    obtain rfl := task
    exact completes_commit system uncommitted response dependencies run

end Runs

section Retrieval

/-- What is known of the validation library: it reads the datetimes that the program
writes for the current time, and JSON text carries plain values unchanged as deep as it is
read. -/
structure Documented (lib : Library) : Prop where
  reads : ∀ w, Reads lib (utcAt w)
  json : ∀ v t, plain v → v.depth ≤ lib.nesting → lib.dumpJson v = some t →
    lib.parseJson t = some v

/-- What either store returns at `now` for a proof just saved in it. -/
inductive ReadBack (lib : Library) (p : StoredProof) (now : Wall) :
    Except Exc (Option StoredProof) → Prop
  | inMemory (store : InMemoryProofStore) : ReadBack lib p now
      (InMemoryProofStore.get (InMemoryProofStore.save store p) p.proofData.task.taskId now).1
  | sqlite {store saved : SQLiteProofStore}
      (success : SQLiteProofStore.save lib store p = .ok saved)
      (shallow : p.dump.depth ≤ lib.nesting) :
      ReadBack lib p now (SQLiteProofStore.get lib saved p.proofData.task.taskId now).1

variable {lib : Library} {p : StoredProof} {now : Wall}

theorem readBack_of_utc {d : DateTime} (utc : d.offset = some utcOffset) : readBack d = d := by
  have shape : d = utcAt d.wall := DateTime.ext rfl utc
  rw [shape, readBack_utcAt]

theorem aware_of_utc {d : DateTime} (utc : d.offset = some utcOffset) : d.offset.isSome := by
  rw [utc]
  rfl

theorem not_late (timely : (utcAt now).instant ≤ p.expiresAt.instant) :
    ¬ p.expiresAt.instant < now.micros :=
  not_lt.mpr (instant_utcAt now ▸ timely)

theorem inMemory_get (store : InMemoryProofStore) (utc : p.expiresAt.offset = some utcOffset)
    (timely : (utcAt now).instant ≤ p.expiresAt.instant) :
    (InMemoryProofStore.get (InMemoryProofStore.save store p) p.proofData.task.taskId now).1 =
      .ok (some p) := by
  have saved : Dict.get (InMemoryProofStore.save store p) p.proofData.task.taskId = some p :=
    Dict.get_set_self _ _ _
  rw [InMemoryProofStore.get_of_proof saved (aware_of_utc utc), if_neg (not_late timely)]

theorem sqlite_get (documented : Documented lib) {store saved : SQLiteProofStore}
    (success : SQLiteProofStore.save lib store p = .ok saved) (readable : p.Readable lib)
    (carried : plain p.dump) (shallow : p.dump.depth ≤ lib.nesting)
    (utc : p.expiresAt.offset = some utcOffset)
    (timely : (utcAt now).instant ≤ p.expiresAt.instant) :
    (SQLiteProofStore.get lib saved p.proofData.task.taskId now).1 = .ok (some p) := by
  obtain ⟨⟨json, expiresAt⟩, row_of, rfl⟩ := SQLiteProofStore.save_eq_ok success
  obtain ⟨dumped, rfl⟩ := SQLiteProofStore.rowOf_eq_some row_of
  have decoded : SQLiteProofStore.decodeRow lib ⟨json, isoformat p.expiresAt⟩ = .ok p := by
    rw [SQLiteProofStore.decodeRow, documented.json _ _ carried shallow dumped, Option.bind_some,
      StoredProofOf.validate_dump readable]
  have expiry := SQLiteProofStore.rowExpiry_isoformat (aware_of_utc utc) json
  rw [readBack_of_utc utc] at expiry
  rw [SQLiteProofStore.get_of_row (Dict.get_set_self _ _ _) expiry (aware_of_utc utc),
    if_neg (not_late timely), decoded]
  rfl

theorem onChallenge_readBack (documented : Documented lib) {r : Except Exc (Option StoredProof)}
    (stored : ReadBack lib p now r) (readable : p.Readable lib) (carried : plain p.dump)
    (utc : p.expiresAt.offset = some utcOffset)
    (timely : (utcAt now).instant ≤ p.expiresAt.instant) (dumpable : lib.dumpable p.dump)
    (taskId : Text) : onChallenge lib taskId r = .ok p.dump := by
  have returned : r = .ok (some p) := by
    cases stored with
    | inMemory store => exact inMemory_get store utc timely
    | sqlite success shallow =>
      exact sqlite_get documented success readable carried shallow utc timely
  rw [returned]
  exact if_pos dumpable

end Retrieval

end AgentTrust.Publication
