import AgentTrust.DependencyForms
import AgentTrust.TaskBlock

/-! What a completed task posts to the Exchange. Its dependencies arrive in the order of
the calls that added them, with a hash that the receiver can recompute; of its contents
nothing arrives but hashes. -/

namespace AgentTrust.PostedCommits

open JsonTree JsonTree.Json PyText PyJson Gregorian PyDateTime OrderedDict PyValue Models Hashing
  Effects Exchange Client Storage Tasks Publication CommitPayload HonestAgent
  DependencyForms StoredJson StoreAgreement TaskBlock
open Effects.Run hiding pure bind

section Dependencies

def reference : DependentProof → Dependency
  | .storedProof p =>
    { systemUri := some p.proofData.task.systemUri
      taskId := p.proofData.task.taskId
      challengeUrl := none
      evaluations := [] }
  | .dependency d => d

/-- The dependency that a call adds: its reference, with the evaluations of the call after
those it has. -/
def added : Call → Option Dependency
  | .setResponse _ => none
  | .addDependentProof proof evaluations => some
    { reference proof with
      evaluations := (reference proof).evaluations ++ evaluations.getD [] }

theorem call_dependency (call : Call) : call.dependency = added call := by
  cases call with
  | setResponse value => rfl
  | addDependentProof proof evaluations =>
    refine congrArg some ?_
    cases proof with
    | storedProof p => rfl
    | dependency d =>
      unfold DependentProof.dependencyWith reference
      dsimp only
      split
      · next none => rw [none, List.append_nil]
      · rfl

variable {t : ATPTaskContext} {c : ATPClient} {w : World} {payload : JsonValue}

theorem posted_of_commit
    (posted : .send (postRequest "/api/v1/commit" payload) ∈ ((t.commit c).run w []).log) :
    ∃ systemId hash proofHash,
      computeDependenciesHash (t.dependencies.map .object) = .ok hash ∧
      payload = commitPayload systemId t.atpTaskId
        (c.completed systemId (contextTask t c systemId (w.now []) hash).sketch) proofHash := by
  cases attempted : Caller.attempt (w.now []) (.context t c) with
  | none =>
    rcases commit_idle attempted with same | clock
    · simp [same] at posted
    · simp [clock] at posted
  | some b =>
    obtain ⟨_, _, systemId, hash, expiresAt, _, hashed, _, rfl⟩ := attempt_context.mp attempted
    obtain ⟨proofHash, _, logged⟩ := commit_logs attempted
    refine ⟨systemId, hash, proofHash, hashed, ?_⟩
    rw [logged] at posted
    split at posted
    · simp at posted
    · simp [postRequest] at posted
      exact posted

/-- The dependencies decoded from a posted sketch are those the calls added, in order, and
their hash is the one posted with them. -/
theorem posted_dependencies {lib : Library} (iso : ReadsIso lib) (client c : ATPClient)
    (query : PyStr) (config : Option ATPConfig) (classification : Option Capability) (id : Uuid)
    (calls : List Call) (w : World) (whole : ∀ d ∈ calls.filterMap added, d.MinuteZones)
    (payload : JsonValue) (posted : .send (postRequest "/api/v1/commit" payload) ∈
      (((calls.foldl Call.apply (newContext client query config classification id)).commit c).run
        w []).log) :
    ∃ (sketch : ProofSketchOf PyStr) (hash : Text),
      required "proof" (ProofSketchOf.validate lib) payload = some sketch ∧
      sketch.dependencies = (calls.filterMap added).map DependencyOf.python ∧
      sketch.cryptography.dependenciesHash = some (raw hash) ∧
      computeDependenciesHash (sketch.dependencies.map .object) = .ok hash := by
  obtain ⟨systemId, hash, proofHash, hashed, rfl⟩ := posted_of_commit posted
  have dependencies : (calls.foldl Call.apply
      (newContext client query config classification id)).dependencies =
        calls.filterMap added := by
    rw [foldl_apply, funext call_dependency]
    rfl
  refine ⟨_, hash, (proof_commitPayload iso proofHash).trans (if_pos ?_), ?_, rfl, ?_⟩
  · exact ⟨fun d hd => whole d (dependencies ▸ hd), minuteZone_utcAt _⟩
  · exact congrArg (List.map DependencyOf.python) dependencies
  · exact (congrArg computeDependenciesHash List.map_map).trans
      ((computeDependenciesHash_python _).trans hashed)

def sampleCalls : List Call :=
  [.addDependentProof (.dependency sampleDependency) (some sampleDependency.evaluations),
   .setResponse (.text (lit "4"))]

def sampleBlock : ATPTaskContext :=
  sampleCalls.foldl Call.apply (newContext sampleClient (lit "2+2?") none none sampleTask)

theorem sampleBlock_accepted : Accepted acceptingWorld [] sampleBlock sampleClient := by
  have utc : ∀ d ∈ sampleBlock.dependencies, ∀ e ∈ d.evaluations,
      ∃ w, e.evaluatedAt.utcWall = some w := by
    intro d hd e he
    obtain rfl := List.mem_singleton.mp hd
    have sample : e ∈ sampleDependency.evaluations ++ sampleDependency.evaluations := he
    obtain rfl := List.mem_singleton.mp ((List.mem_append.mp sample).elim id id)
    exact ⟨noon.wall, utcWall_utcAt noon.wall⟩
  obtain ⟨hash, hashed⟩ : ∃ hash,
      computeDependenciesHash (sampleBlock.dependencies.map .object) = .ok hash := by
    rw [computeDependenciesHash, dependenciesText_object utc]
    exact ⟨_, rfl⟩
  exact ⟨"v".toList, hash, onePm, rfl, hashed, expiry_noon, rfl⟩

theorem sampleBlock_posts : ∃ (payload : JsonValue) (sketch : ProofSketchOf PyStr) (hash : Text),
    .send (postRequest "/api/v1/commit" payload) ∈
      ((sampleBlock.commit sampleClient).run acceptingWorld []).log ∧
    required "proof" (ProofSketchOf.validate minuteLibrary) payload = some sketch ∧
    sketch.dependencies.map (fun d => d.evaluations.length) = [2] ∧
    sketch.cryptography.dependenciesHash = some (raw hash) ∧
    computeDependenciesHash (sketch.dependencies.map .object) = .ok hash := by
  obtain ⟨p, systemId, posted, proofHash, logged, _⟩ :=
    (commit_commitsOnce_iff (t := sampleBlock) rfl (by decide)).mpr ⟨rfl, sampleBlock_accepted⟩
  have member : .send (postRequest "/api/v1/commit" (commitPayload systemId sampleBlock.atpTaskId
      posted proofHash)) ∈ ((sampleBlock.commit sampleClient).run acceptingWorld []).log := by
    rw [logged]
    simp
  obtain ⟨sketch, hash, decoded, dependencies, given, computed⟩ :=
    posted_dependencies readsIso_minuteLibrary sampleClient sampleClient (lit "2+2?") none none
      sampleTask sampleCalls acceptingWorld (by decide) _ member
  exact ⟨_, sketch, hash, member, decoded, by rw [dependencies]; rfl, given, computed⟩

end Dependencies

section Contents

def requests (log : List Event) : List Request :=
  log.filterMap fun
    | .send r => some r
    | _ => none

/-- The keys under which a commit carries hashes that depend on contents. -/
def hashKeys : List String := ["invocation_hash", "outcome_hash", "proof_hash"]

def redact : JsonValue → JsonValue :=
  fold ⟨.null, .bool, .int, .float, .str, .arr, fun fields => .obj (fields.map fun p =>
    if p.1 ∈ hashKeys.map lit then (p.1, .null) else p)⟩

def redacted (r : Request) : Request := { r with json := r.json.map redact }

/-- The contents of a task. Only the adapter has artifacts. -/
structure Contents where
  query : PyStr
  response : PyStr
  artifacts : Option JsonValue

/-- Everything that a completed task is made of but its contents. -/
inductive Producer where
  | adapter (a : MinimalAdapter) (taskId : Text) (classification : Option Capability)
  | block (config : ATPConfig) (taskId : Text) (classification : Capability)
      (dependencies : List Dependency) (c : ATPClient)

def Producer.caller (k : Contents) : Producer → Caller
  | .adapter a taskId classification =>
    .adapter a taskId k.query k.response k.artifacts classification
  | .block config taskId classification dependencies c => .context
    { config := config
      query := k.query
      atpTaskId := taskId
      response := some k.response
      committed := false
      classification := classification
      dependencies := dependencies } c

def Producer.outcome (k : Contents) : Producer → Content
  | .adapter _ _ _ => outcomeOf k.response k.artifacts
  | .block .. => outcomeOf k.response none

/-- The runs of a producer on contents, with the logs before and after: `on_task_complete`,
and the exit of a block whose body ended and responded. -/
inductive Completion (w : World) : Producer → Contents → List Event → List Event → Prop
  | adapter (a : MinimalAdapter) (taskId : Text) (classification : Option Capability)
      (k : Contents) (h : List Event) :
      Completion w (.adapter a taskId classification) k h ((a.onTaskComplete taskId k.query
        k.response k.artifacts classification).run w h).log
  | block (client c : ATPClient) (config : Option ATPConfig) (classification : Option Capability)
      (id : Uuid) (body : Body) (k : Contents) (h : List Event) (value : ResponseValue)
      (ended : (body.trace w h).raised = none)
      (last : ((body.trace w h).calls.filterMap Call.response).getLast? = some value)
      (response : value.stored = k.response) :
      Completion w (.block (config.getD client.config) id.str
          (classification.getD defaultClassification)
          ((body.trace w h).calls.filterMap Call.dependency) c) k (body.trace w h).log
        ((atpTask (newContext client k.query config classification id) c body).run w h).log

variable {w : World} {p : Producer} {k : Contents} {h log : List Event}

theorem completion_caller (completion : Completion w p k h log) (response : k.response ≠ []) :
    log = ((p.caller k).run.run w h).log := by
  cases completion with
  | adapter a taskId classification =>
    exact (log_bind w h fun _ _ => rfl).symm
  | block client c config classification id body k h value ended last given =>
    have context : (body.trace w h).calls.foldl Call.apply
        (newContext client k.query config classification id) =
          { config := config.getD client.config
            query := k.query
            atpTaskId := id.str
            response := some k.response
            committed := false
            classification := classification.getD defaultClassification
            dependencies := (body.trace w h).calls.filterMap Call.dependency } := by
      rw [foldl_apply, last, ← given]
      rfl
    rw [atpTask_log, context, if_pos ⟨by rw [ended]; rfl, response⟩]
    exact (log_bind w _ fun _ _ => rfl).symm

def withHashes (s : ProofSketch) (invocationHash outcomeHash : Text) : ProofSketch :=
  { s with
    cryptography := { s.cryptography with
      invocationHash := invocationHash
      outcomeHash := outcomeHash } }

def postedWith (b : Attempt) (invocationHash outcomeHash : Text) : Request :=
  let sketch := withHashes b.task.sketch invocationHash outcomeHash
  let proofHash := (computeSha256
    (sentMessage b.client b.systemId b.task.taskId sketch)).toOption.getD []
  postRequest "/api/v1/commit"
    (commitPayload b.systemId b.task.taskId (b.client.completed b.systemId sketch) proofHash)

def blank : Contents := ⟨[], lit "-", none⟩

def Producer.fill (p : Producer) (k : Contents) (b : Attempt) : Attempt :=
  { b with task := { b.task with
      invocation := invocationOf k.query
      outcome := p.outcome k } }

/-- What is attempted on contents is an attempt fixed before them, filled in. -/
theorem attempt_caller (now : Wall) (response : k.response ≠ []) :
    (p.caller k).attempt now = ((p.caller blank).attempt now).map (p.fill k) := by
  have given : blank.response ≠ [] := by decide
  cases p with
  | adapter a taskId classification =>
    simp only [Producer.caller, Caller.attempt, intended]
    cases a.systemId.filter (· ≠ []) with
    | none => rfl
    | some systemId =>
      cases computeDependenciesHash (σ := Text) [] <;>
        cases expiry now a.config.proofTtlSeconds <;> rfl
  | block config taskId classification dependencies c =>
    simp only [Producer.caller, Caller.attempt, intended, Option.getD_some, response, given]
    cases (c.firstSystem.map Prod.snd).filter (· ≠ []) with
    | none => rfl
    | some systemId =>
      cases computeDependenciesHash (dependencies.map .object) <;>
        cases expiry now config.proofTtlSeconds <;> rfl

theorem redact_obj (fields : Content) : redact (.obj fields) =
    .obj (fields.map fun p => (p.1, if p.1 ∈ hashKeys.map lit then .null else redact p.2)) := by
  rw [redact, fold_obj]
  refine congrArg Json.obj (List.map_map.trans (List.map_congr_left fun p _ => ?_))
  rw [Function.comp_apply]
  split <;> rfl

theorem redact_record (fields : List (String × JsonValue)) :
    redact (record fields) = record (fields.map fun p =>
      (p.1, if p.1 ∈ hashKeys then .null else redact p.2)) := by
  rw [record, redact_obj, record, List.map_map, List.map_map]
  refine congrArg Json.obj (List.map_congr_left fun p _ => ?_)
  have named : lit p.1 ∈ hashKeys.map lit ↔ p.1 ∈ hashKeys := by
    simp only [List.mem_map, lit_inj, exists_eq_right]
  simp only [Function.comp_apply, named]

theorem redacted_postedWith (b : Attempt) (i o i' o' : Text) :
    redacted (postedWith b i o) = redacted (postedWith b i' o') := by
  simp [redacted, postedWith, postRequest, commitPayload, ProofSketchOf.dump, CryptographyOf.dump,
    redact_record, hashKeys, withHashes, ATPClient.completed]

def AllSaved (w : World) (h log : List Event) : Prop :=
  ∀ q, .save q ∈ log.drop h.length → w.save (h ++ [.clock]) q = .ok ()

theorem idle_completion (completion : Completion w p k h log) (response : k.response ≠ [])
    (idle : (p.caller blank).attempt (w.now h) = none) : requests (log.drop h.length) = [] := by
  obtain rfl := completion_caller completion response
  have filled := attempt_caller (p := p) (w.now h) response
  rw [idle, Option.map_none] at filled
  rcases idle_log filled with same | clock
  · rw [same, List.drop_length]
    rfl
  · rw [clock, List.drop_left]
    rfl

theorem events_completion {b : Attempt} (completion : Completion w p k h log)
    (response : k.response ≠ []) (attempted : (p.caller blank).attempt (w.now h) = some b) :
    log.drop h.length = .clock :: .save (p.fill k b).proof ::
      match w.save (h ++ [.clock]) (p.fill k b).proof with
      | .error _ => []
      | .ok _ =>
        [.send (postedWith b (contentHash (invocationOf k.query))
          (contentHash (p.outcome k)))] := by
  obtain rfl := completion_caller completion response
  have filled := attempt_caller (p := p) (w.now h) response
  rw [attempted, Option.map_some] at filled
  obtain ⟨proofHash, hashed, logged⟩ := attempt_log filled
  have message : computeSha256 (sentMessage b.client b.systemId b.task.taskId (withHashes
      b.task.sketch (contentHash (invocationOf k.query)) (contentHash (p.outcome k)))) =
        .ok proofHash := hashed
  have posted : postedWith b (contentHash (invocationOf k.query)) (contentHash (p.outcome k)) =
      postRequest "/api/v1/commit" (commitPayload (p.fill k b).systemId
        (p.fill k b).task.taskId (p.fill k b).sketch proofHash) := by
    simp only [postedWith, message]
    rfl
  rw [logged, posted]
  cases w.save (h ++ [.clock]) (p.fill k b).proof <;> simp

theorem allSaved_iff {b : Attempt} (completion : Completion w p k h log)
    (response : k.response ≠ []) (attempted : (p.caller blank).attempt (w.now h) = some b) :
    AllSaved w h log ↔ w.save (h ++ [.clock]) (p.fill k b).proof = .ok () := by
  rw [AllSaved, events_completion completion response attempted]
  cases saved : w.save (h ++ [.clock]) (p.fill k b).proof <;> simp [saved]

theorem requests_completion (completion : Completion w p k h log) (response : k.response ≠ []) :
    (AllSaved w h log → requests (log.drop h.length) =
      (((p.caller blank).attempt (w.now h)).map fun b =>
        postedWith b (contentHash (invocationOf k.query)) (contentHash (p.outcome k))).toList) ∧
    (¬ AllSaved w h log → requests (log.drop h.length) = []) := by
  cases attempted : (p.caller blank).attempt (w.now h) with
  | none =>
    have silent := idle_completion completion response attempted
    exact ⟨fun _ => silent, fun _ => silent⟩
  | some b =>
    rw [allSaved_iff completion response attempted,
      events_completion completion response attempted]
    cases saved : w.save (h ++ [.clock]) (p.fill k b).proof with
    | ok u => exact ⟨fun _ => rfl, fun lost => absurd rfl lost⟩
    | error e => exact ⟨fun kept => by simp at kept, fun _ => rfl⟩

/-- What a task posts: there is one function of two hashes, fixed before the contents, whose
values agree but for what is struck out, and which two runs on any contents post at the
hashes of theirs; or, where the store took the proof of neither, they post nothing. -/
theorem requests_agree (p : Producer) (now : Wall) : ∃ post : Text → Text → List Request,
    (∀ i o i' o', (post i o).map redacted = (post i' o').map redacted) ∧
    ∀ (k k' : Contents) (w w' : World) (h h' log log' : List Event),
      Completion w p k h log → Completion w' p k' h' log' →
      k.response ≠ [] → k'.response ≠ [] → w.now h = now → w'.now h' = now →
      (AllSaved w h log ↔ AllSaved w' h' log') →
        requests (log.drop h.length) =
            post (contentHash (invocationOf k.query)) (contentHash (p.outcome k)) ∧
          requests (log'.drop h'.length) =
            post (contentHash (invocationOf k'.query)) (contentHash (p.outcome k')) ∨
        requests (log.drop h.length) = [] ∧ requests (log'.drop h'.length) = [] := by
  refine ⟨fun i o => (((p.caller blank).attempt now).map fun b => postedWith b i o).toList,
    ?_, ?_⟩
  · intro i o i' o'
    cases (p.caller blank).attempt now with
    | none => rfl
    | some b => exact congrArg (fun r => [r]) (redacted_postedWith b i o i' o')
  · rintro k k' w w' h h' log log' run run' response response' rfl clock saves
    obtain ⟨stored, lost⟩ := requests_completion run response
    obtain ⟨stored', lost'⟩ := requests_completion run' response'
    by_cases kept : AllSaved w h log
    · exact .inl ⟨stored kept, clock ▸ stored' (saves.mp kept)⟩
    · exact .inr ⟨lost kept, lost' fun kept' => kept (saves.mpr kept')⟩

def sqliteWorld : World where
  reply := fun _ _ => .ok acceptance
  save := fun _ p => (SQLiteProofStore.save
    { isoLibrary with
      dumpJson := fun v => if scalarStrings v then some (jsonText v) else none }
    Dict.empty p).map fun _ => ()
  now := fun _ => noon.wall

def sampleProducer : Producer := .adapter sampleAdapter sampleTask.str none

theorem sampleProducer_attempts :
    ∃ b, (sampleProducer.caller blank).attempt noon.wall = some b := by
  have system : sampleAdapter.systemId.filter (· ≠ []) = some "s".toList := rfl
  have hashed : (computeDependenciesHash (σ := Text) []).toOption =
      some sampleTaskDone.dependenciesHash := rfl
  have deadline : expiry noon.wall sampleAdapter.config.proofTtlSeconds = .ok onePm := expiry_noon
  simp only [sampleProducer, Producer.caller, Caller.attempt, intended, system, hashed, deadline]
  exact ⟨_, rfl⟩

theorem sqliteWorld_save {before : List Event} {p : StoredProof} :
    sqliteWorld.save before p = .ok () ↔ scalarStrings p.dump := by
  simp only [sqliteWorld, SQLiteProofStore.save]
  by_cases scalar : scalarStrings p.dump <;> simp [scalar, Except.map]

def surrogateQuery : Contents := ⟨[⟨0xD800, by decide⟩], lit "4", none⟩

def plainQuery : Contents := ⟨lit "2+2?", lit "4", none⟩

def sampleLog (k : Contents) : List Event :=
  ((sampleAdapter.onTaskComplete sampleTask.str k.query k.response k.artifacts none).run
    sqliteWorld []).log

theorem scalarStrings_of_mem {fields : List (String × JsonValue)}
    (scalar : scalarStrings (record fields)) {p : String × JsonValue} (hp : p ∈ fields) :
    scalarStrings p.2 := by
  rw [scalarStrings, record, stringsAll_obj, List.all_map, List.all_eq_true] at scalar
  exact (Bool.and_eq_true_iff.mp (scalar p hp)).2

/-- The plain query is committed; the other, whose proof is not stored, is not. -/
theorem surrogateQuery_unposted :
    (requests (sampleLog plainQuery)).map redacted ≠
      (requests (sampleLog surrogateQuery)).map redacted := by
  obtain ⟨b, attempted⟩ := sampleProducer_attempts
  have response : plainQuery.response ≠ [] := by decide
  have run (k : Contents) : Completion sqliteWorld sampleProducer k [] (sampleLog k) :=
    .adapter sampleAdapter sampleTask.str none k []
  have stored : AllSaved sqliteWorld [] (sampleLog plainQuery) := by
    rw [allSaved_iff (run plainQuery) response attempted, sqliteWorld_save]
    have invocation : scalarStrings (.obj (invocationOf plainQuery.query)) := by decide
    have outcome : scalarStrings (.obj (outcomeOf (lit "4") none)) := by decide
    exact scalarStrings_storedProof invocation outcome
  have refused : ¬ AllSaved sqliteWorld [] (sampleLog surrogateQuery) := by
    rw [allSaved_iff (run surrogateQuery) response attempted, sqliteWorld_save]
    intro scalar
    have data := scalarStrings_of_mem scalar (List.mem_cons_self ..)
    have task := scalarStrings_of_mem data (List.mem_cons_self ..)
    have invocation : scalarStrings (.obj (invocationOf surrogateQuery.query)) :=
      scalarStrings_of_mem task (List.mem_cons_of_mem _ (List.mem_cons_of_mem _
        (List.mem_cons_of_mem _ (List.mem_cons_self ..))))
    exact absurd invocation (by decide)
  have sent := (requests_completion (run plainQuery) response).1 stored
  have unsent := (requests_completion (run surrogateQuery) response).2 refused
  rw [show sqliteWorld.now [] = noon.wall from rfl, attempted] at sent
  intro same
  rw [show requests (sampleLog plainQuery) = _ from sent,
    show requests (sampleLog surrogateQuery) = _ from unsent] at same
  simp at same

end Contents

end AgentTrust.PostedCommits
