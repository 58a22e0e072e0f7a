import AgentTrust.Verifier
import AgentTrust.HonestAgent

/-! `pre_challenge_dependencies`: the upstream proofs that a request names are challenged
one after the other, and those that verify are added to the agent's dependencies. What a
challenge raises is caught entry by entry; what the reading of a raw entry raises is not. -/

namespace AgentTrust.DependencyChallenges

open JsonTree JsonTree.Json PyText PyJson Gregorian PyDateTime IsoFormat OrderedDict PyValue Models
  Effects Exchange Client Tasks Verifier HonestAgent
open Effects.Run hiding pure bind

section Source

/-- An entry of `atp_metadata.dependencies`: a model instance or a raw dict. -/
inductive Entry where
  | object (dep : DependencyOf PyStr)
  | dict (fields : Content)

/-- `Dependency(**raw) if isinstance(raw, dict) else raw`. -/
def Entry.dependency (lib : Library) : Entry → Except Exc (DependencyOf PyStr)
  | .object dep => .ok dep
  | .dict fields => valid (DependencyOf.validate lib (.obj fields))

def timestampOf : JsonValue → Run DateTime
  | .str s =>
    match fromisoformat s with
    | some ts => pure ts
    | none => do
      let now ← utcNow
      pure (utcAt now)
  | _ => do
    let now ← utcNow
    pure (utcAt now)

structure TaskFields where
  systemUri : JsonValue
  systemType : JsonValue
  taskId : JsonValue
  invocation : JsonValue
  invocationHash : JsonValue
  outcome : JsonValue
  outcomeHash : JsonValue

def readFields (taskData : JsonValue) : Except Exc TaskFields := do
  let systemUri ← getItem "system_uri" taskData
  let systemType ← getOr "system_type" (text "agent".toList) taskData
  let taskId ← getItem "task_id" taskData
  let invocation ← getItem "invocation" taskData
  let invocationHash ← getItem "invocation_hash" taskData
  let outcome ← getItem "outcome" taskData
  let outcomeHash ← getItem "outcome_hash" taskData
  return { systemUri, systemType, taskId, invocation, invocationHash, outcome, outcomeHash }

/-- `ProofData(task=ProofDataTask(..., trust_level=VERIFIED), dependencies=[])`. -/
def TaskFields.proof (t : TaskFields) (ts : DateTime) : Option (ProofDataOf PyStr) := do
  let task : ProofDataTaskOf PyStr := {
    systemUri := ← asText t.systemUri
    systemType := ← asText t.systemType
    taskId := ← asText t.taskId
    invocation := ← asContent t.invocation
    invocationHash := ← asText t.invocationHash
    outcome := ← asContent t.outcome
    outcomeHash := ← asText t.outcomeHash
    timestamp := ts
    trustLevel := .verified }
  return ⟨task, []⟩

def upstreamProof (proofDict : JsonValue) : Run (ProofDataOf PyStr) := do
  let proofData ← .lift (getItem "proof_data" proofDict)
  let taskData ← .lift (getItem "task" proofData)
  let tsRaw ← .lift (getOr "timestamp" .null taskData)
  let ts ← timestampOf tsRaw
  let fields ← .lift (readFields taskData)
  .lift (valid (fields.proof ts))

def proofOfVerdict (verdict : RawVerdict) : Run (Option (ProofDataOf PyStr)) :=
  if verdict.2.1 && truthy verdict.1 then do
    let proof ← upstreamProof verdict.1
    pure (some proof)
  else pure none

/-- The body of the loop after the entry is read: the proof that it appends, if any. -/
def challengeEntry (lib : Library) (c : ATPClient) (dep : DependencyOf PyStr) :
    Run (Option (ProofDataOf PyStr)) :=
  match dep.challengeUrl.filter (· ≠ []) with
  | none => pure none
  | some url =>
    if dep.taskId = [] then pure none
    else .attempt (do
      let verdict ← challengeAndVerify lib c url dep.taskId none none
      proofOfVerdict verdict)
    fun _ => pure none

/-- `pre_challenge_dependencies`: the agent's dependencies after it, and how it ends. -/
def preChallengeDependencies (lib : Library) (c : ATPClient)
    (agentDependencies : List (ProofDataOf PyStr)) :
    List Entry → Run (List (ProofDataOf PyStr) × Except Exc Unit)
  | [] => pure (agentDependencies, .ok ())
  | raw :: rest =>
    match raw.dependency lib with
    | .error e => pure (agentDependencies, .error e)
    | .ok dep => do
      let proof ← challengeEntry lib c dep
      preChallengeDependencies lib c (agentDependencies ++ proof.toList) rest

end Source

section Purpose

def challengeable (dep : DependencyOf PyStr) : Option (PyStr × PyStr) :=
  match dep.challengeUrl with
  | some url => if url = [] ∨ dep.taskId = [] then none else some (url, dep.taskId)
  | none => none

/-- A task's own time where it is an ISO text, else the time when it is read. -/
def statedTime (now : DateTime) : Option JsonValue → DateTime
  | some (.str s) => (fromisoformat s).getD now
  | _ => now

def verifiedProof (now : DateTime) (proofDict : JsonValue) : Option (ProofDataOf PyStr) := do
  let proofData ← field "proof_data" proofDict
  let taskData ← field "task" proofData
  let fields ← (readFields taskData).toOption
  fields.proof (statedTime now (field "timestamp" taskData))

variable (lib : Library) (c : ATPClient) (w : World)

def contributed (h : List Event) (dep : DependencyOf PyStr) : Option (ProofDataOf PyStr) :=
  match challengeable dep with
  | none => none
  | some (url, taskId) =>
    let challenge := (challengeAndVerify lib c url taskId none none).run w h
    match challenge.result with
    | .ok (proofDict, true, _) => verifiedProof (utcAt (w.now challenge.log)) proofDict
    | _ => none

/-- A malformed entry contributes nothing, and nothing happens for it. -/
def contribution (h : List Event) (raw : Entry) : Option (ProofDataOf PyStr) :=
  (raw.dependency lib).toOption.bind (contributed lib c w h)

def after (h : List Event) (raw : Entry) : List Event :=
  match raw.dependency lib with
  | .ok dep => ((challengeEntry lib c dep).run w h).log
  | .error _ => h

def contributions : List Event → List Entry → List (ProofDataOf PyStr)
  | _, [] => []
  | h, raw :: rest =>
    (contribution lib c w h raw).toList ++ contributions (after lib c w h raw) rest

end Purpose

section Proofs

theorem valid_toOption {α : Type} (x : Option α) : (valid x).toOption = x := by
  cases x <;> rfl

theorem timestampOf_run (tsRaw : JsonValue) (w : World) (h : List Event) :
    ∃ log, (timestampOf tsRaw).run w h =
      ⟨.ok (statedTime (utcAt (w.now h)) (some tsRaw)), log⟩ := by
  cases tsRaw with
  | str s =>
    rw [timestampOf]
    cases parsed : fromisoformat s with
    | some ts => exact ⟨_, by rw [statedTime, parsed]; rfl⟩
    | none => exact ⟨_, by rw [statedTime, parsed]; rfl⟩
  | _ => exact ⟨_, rfl⟩

theorem readFields_record {taskData : JsonValue} {fields : TaskFields}
    (read : readFields taskData = .ok fields) (k : String) (default : JsonValue) :
    getOr k default taskData = .ok ((field k taskData).getD default) := by
  cases taskData with
  | obj _ => rfl
  | _ => simp [readFields, getItem] at read

theorem statedTime_getD (now : DateTime) (tsRaw : Option JsonValue) :
    statedTime now (some (tsRaw.getD .null)) = statedTime now tsRaw := by
  cases tsRaw <;> rfl

theorem upstreamProof_result (proofDict : JsonValue) (w : World) (h : List Event) :
    ((upstreamProof proofDict).run w h).result.toOption =
      verifiedProof (utcAt (w.now h)) proofDict := by
  rw [upstreamProof, verifiedProof, ← getItem_toOption, run_bind, run_lift]
  cases getItem "proof_data" proofDict with
  | error e => rfl
  | ok proofData =>
    rw [next_ok, run_bind, run_lift]
    change _ = (field "task" proofData).bind _
    rw [← getItem_toOption]
    cases getItem "task" proofData with
    | error e => rfl
    | ok taskData =>
      rw [next_ok, run_bind, run_lift]
      change _ = (readFields taskData).toOption.bind _
      cases read : readFields taskData with
      | error e =>
        cases getOr "timestamp" .null taskData with
        | error e => rfl
        | ok tsRaw =>
          obtain ⟨log, stamped⟩ := timestampOf_run tsRaw w h
          rw [next_ok, run_bind, stamped]
          rfl
      | ok fields =>
        obtain ⟨log, stamped⟩ := timestampOf_run ((field "timestamp" taskData).getD .null) w h
        rw [readFields_record read, next_ok, run_bind, stamped, next_ok, statedTime_getD]
        exact valid_toOption _

theorem truthy_of_verifiedProof {now : DateTime} {proofDict : JsonValue} {proof : ProofDataOf PyStr}
    (verified : verifiedProof now proofDict = some proof) : truthy proofDict := by
  cases proofDict with
  | obj fields =>
    cases fields with
    | nil => simp [verifiedProof, field] at verified
    | cons p fields => rfl
  | _ => simp [verifiedProof, field] at verified

end Proofs

section Loop

variable {lib : Library} {c : ATPClient} {w : World}

theorem proofOfVerdict_result (h : List Event) (verdict : RawVerdict) :
    ((proofOfVerdict verdict).run w h).result.toOption.join =
      if verdict.2.1 then verifiedProof (utcAt (w.now h)) verdict.1 else none := by
  rw [proofOfVerdict]
  cases verdict.2.1 with
  | false => rfl
  | true =>
    rw [if_pos rfl, Bool.true_and, ← upstreamProof_result]
    by_cases present : truthy verdict.1
    · rw [if_pos present, run_bind]
      cases (upstreamProof verdict.1).run w h with
      | mk result log => cases result <;> rfl
    · have nothing : verifiedProof (utcAt (w.now h)) verdict.1 = none := by
        cases found : verifiedProof (utcAt (w.now h)) verdict.1 with
        | none => rfl
        | some proof => exact absurd (truthy_of_verifiedProof found) present
      rw [if_neg present, upstreamProof_result, nothing]
      rfl

theorem caught_result (x : Run (Option (ProofDataOf PyStr))) (h : List Event) :
    ((Effects.Run.attempt x fun _ => pure none).run w h).result =
      .ok (x.run w h).result.toOption.join := by
  rw [run_attempt]
  cases result : (x.run w h).result with
  | ok proof => exact result
  | error e => rfl

theorem challengeEntry_result (h : List Event) (dep : DependencyOf PyStr) :
    ((challengeEntry lib c dep).run w h).result = .ok (contributed lib c w h dep) := by
  unfold challengeEntry contributed challengeable
  cases dep.challengeUrl with
  | none => rfl
  | some url =>
    cases url with
    | nil => rfl
    | cons first url =>
      by_cases noTask : dep.taskId = []
      · simp [noTask, Option.filter_some]
      · simp only [Option.filter_some, ne_eq, reduceCtorEq, not_false_eq_true, decide_true, if_true,
          noTask, or_self, if_false, caught_result, run_bind]
        cases (challengeAndVerify lib c (first :: url) dep.taskId none none).run w h
        with
        | mk result log =>
          cases result with
          | error e => rfl
          | ok verdict =>
            rw [next_ok, proofOfVerdict_result]
            obtain ⟨proofDict, verified, m⟩ := verdict
            cases verified <;> rfl

theorem run_challengeEntry (h : List Event) {raw : Entry} {dep : DependencyOf PyStr}
    (read : raw.dependency lib = .ok dep) :
    (challengeEntry lib c dep).run w h =
      ⟨.ok (contribution lib c w h raw), after lib c w h raw⟩ := by
  have result : ((challengeEntry lib c dep).run w h).result = .ok (contributed lib c w h dep) :=
    challengeEntry_result h dep
  rw [contribution, after, read]
  change _ = (⟨.ok (contributed lib c w h dep), _⟩ : Outcome _ _ _)
  rw [← result]

/-- Where every entry is well formed the loop adds what each of them contributes. -/
theorem preChallengeDependencies_run (h : List Event) (agentDependencies : List (ProofDataOf PyStr))
    {entries : List Entry} (wellFormed : ∀ raw ∈ entries, ∃ dep, raw.dependency lib = .ok dep) :
    (preChallengeDependencies lib c agentDependencies entries).run w h =
      ⟨.ok (agentDependencies ++ contributions lib c w h entries, .ok ()),
        entries.foldl (after lib c w) h⟩ := by
  induction entries generalizing agentDependencies h with
  | nil => simp [preChallengeDependencies, contributions]
  | cons raw rest ih =>
    obtain ⟨⟨dep, read⟩, others⟩ := List.forall_mem_cons.mp wellFormed
    rw [preChallengeDependencies, read]
    dsimp only
    rw [run_bind, run_challengeEntry h read, next_ok, ih _ _ others, contributions,
      List.append_assoc, List.foldl_cons]

theorem preChallengeDependencies_raises {entries : List Entry} {raw : Entry} {e : Exc}
    (present : raw ∈ entries) (malformed : raw.dependency lib = .error e) (h : List Event)
    (agentDependencies deps : List (ProofDataOf PyStr)) :
    ((preChallengeDependencies lib c agentDependencies entries).run w h).result ≠
      .ok (deps, .ok ()) := by
  induction entries generalizing agentDependencies h with
  | nil => simp at present
  | cons first rest ih =>
    rw [preChallengeDependencies]
    cases read : first.dependency lib with
    | error e' => simp
    | ok dep =>
      have later : raw ∈ rest := by
        refine (List.mem_cons.mp present).resolve_left ?_
        rintro rfl
        simp [malformed] at read
      dsimp only
      rw [run_bind, run_challengeEntry h read, next_ok]
      exact ih later _ _

/-- The call ends normally, adds what each entry contributes and challenges every entry that
can be challenged, exactly if every raw dict is a well-formed dependency. -/
theorem entries_independent_iff (lib : Library) (c : ATPClient) (w : World) (h : List Event)
    (agentDependencies : List (ProofDataOf PyStr)) (entries : List Entry) :
    (preChallengeDependencies lib c agentDependencies entries).run w h =
        ⟨.ok (agentDependencies ++ contributions lib c w h entries, .ok ()),
          entries.foldl (after lib c w) h⟩ ↔
      ∀ fields, .dict fields ∈ entries →
        (DependencyOf.validate lib (.obj fields) : Option (DependencyOf PyStr)).isSome := by
  constructor
  · intro completed fields present
    cases read : (DependencyOf.validate lib (.obj fields) : Option (DependencyOf PyStr)) with
    | some dep => rfl
    | none =>
      have malformed : (Entry.dict fields).dependency lib = .error (foreign .valueError) := by
        rw [Entry.dependency, read]
        rfl
      have ended := congrArg Outcome.result completed
      exact absurd ended (preChallengeDependencies_raises present malformed h agentDependencies _)
  · intro valid
    refine preChallengeDependencies_run h agentDependencies fun raw present => ?_
    cases raw with
    | object dep => exact ⟨dep, rfl⟩
    | dict fields =>
      obtain ⟨dep, read⟩ := Option.isSome_iff_exists.mp (valid fields present)
      exact ⟨dep, by rw [Entry.dependency, read]; rfl⟩

end Loop

section Sample

def sampleEntries : List Entry :=
  [.dict [(lit "challenge_url", text "https://a".toList)],
   .object ⟨none, lit "t", some (lit "https://b"), []⟩]

theorem missingTaskId_raises :
    (preChallengeDependencies isoLibrary sampleClient [] sampleEntries).run acceptingWorld [] =
        ⟨.ok ([], .error (foreign .valueError)), []⟩ ∧
      (preChallengeDependencies isoLibrary sampleClient [] sampleEntries).run acceptingWorld [] ≠
        ⟨.ok ([] ++ contributions isoLibrary sampleClient acceptingWorld [] sampleEntries, .ok ()),
          sampleEntries.foldl (after isoLibrary sampleClient acceptingWorld) []⟩ := by
  have raised : (preChallengeDependencies isoLibrary sampleClient [] sampleEntries).run
      acceptingWorld [] = ⟨.ok ([], .error (foreign .valueError)), []⟩ := rfl
  refine ⟨raised, fun completed => ?_⟩
  have ended := congrArg Outcome.result (raised.symm.trans completed)
  simp at ended

end Sample

end AgentTrust.DependencyChallenges
