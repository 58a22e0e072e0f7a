import AgentTrust.Storage

/-! The agent's side: building the proof of a completed task, storing it, committing
its sketch, and disclosing it when challenged. `ATPTaskContext` and `MinimalAdapter`
build the same two contents; the adapter can add artifacts to the outcome. -/

namespace AgentTrust.Tasks

open JsonTree JsonTree.Json PyText PyJson Gregorian PyDateTime OrderedDict PyValue Models Hashing
  Effects Exchange Client Storage

section Contents

def invocationOf (query : PyStr) : Content :=
  [(lit "method", .str (lit "query")),
   (lit "trigger", record [("type", .str (lit "user_message"))]),
   (lit "input", record [("query", .str query)])]

def outcomeOf (response : PyStr) (artifacts : Option JsonValue) : Content :=
  [(lit "response", record [("text", .str response)]), (lit "status", .str (lit "success")),
   (lit "actions", .arr []), (lit "error", .null)] ++
    match artifacts with
    | some a => [(lit "artifacts", a)]
    | none => []

/-- What a completed task fixes, before its proof and sketch are built. -/
structure Completed where
  systemUri : Text
  systemType : Text
  taskId : Text
  invocation : Content
  outcome : Content
  dependencies : List Dependency
  dependenciesHash : Text
  classification : Capability
  now : Wall

def Completed.sketch (t : Completed) : ProofSketch where
  atpMetadata :=
    { specVersion := "0.2.0".toList
      specUri := some "https://agenttrustprotocol.org/spec/v0.2".toList
      systemUri := t.systemUri
      systemType := t.systemType
      taskId := t.taskId
      classification := some t.classification }
  dependencies := t.dependencies
  cryptography :=
    { algorithm := "SHA-256".toList
      invocationHash := contentHash t.invocation
      outcomeHash := contentHash t.outcome
      dependenciesHash := some t.dependenciesHash }
  timestamp := utcAt t.now

def Completed.proofData (t : Completed) : ProofData where
  task :=
    { systemUri := t.systemUri
      systemType := t.systemType
      taskId := t.taskId
      invocation := t.invocation
      invocationHash := contentHash t.invocation
      outcome := t.outcome
      outcomeHash := contentHash t.outcome
      timestamp := utcAt t.now
      trustLevel := .unverified }
  dependencies := t.dependencies

/-- `now + timedelta(seconds=ttl)`. -/
def expiry (now : Wall) (ttl : Int) : Except Exc DateTime :=
  match Wall.ofMicros (now.micros + ttl * 1000000) with
  | some w => .ok (utcAt w)
  | none => .error (foreign .overflowError)

def Completed.storedProof (t : Completed) (expiresAt : DateTime) : StoredProof :=
  ⟨t.proofData, utcAt t.now, expiresAt⟩

def Completed.publish (t : Completed) (c : ATPClient) (systemId : Text) (ttl : Int) :
    Run CommitResponse := do
  let expiresAt ← .lift (expiry t.now ttl)
  saveProof (t.storedProof expiresAt)
  createCommit c systemId t.taskId t.sketch

end Contents

section TaskContext

structure ATPTaskContext where
  config : ATPConfig
  query : PyStr
  atpTaskId : Text
  response : Option PyStr
  committed : Bool
  classification : Capability
  dependencies : List Dependency

def ATPConfig.exchangeUrlOr (c : ATPConfig) (default : String) : Text :=
  if c.exchangeUrl = [] then default.toList else c.exchangeUrl

def fallbackUri (config : ATPConfig) (systemId : Text) : Text :=
  ATPConfig.exchangeUrlOr config "http://localhost:8080" ++ "/systems/".toList ++ systemId

/-- `_commit`: the context after it, or the exception it raises. -/
def ATPTaskContext.commit (t : ATPTaskContext) (c : ATPClient) : Run ATPTaskContext := do
  let response := t.response.getD []
  if t.committed ∨ response = [] then pure t
  else
    let now ← utcNow
    match (c.firstSystem.map Prod.snd).filter (· ≠ []) with
    | none => .raise ⟨.runtimeError,
        msg "No registered system found. Call client.register_system() first."⟩
    | some systemId =>
      let dependenciesHash ← .lift (computeDependenciesHash (t.dependencies.map .object))
      let task : Completed := {
        systemUri := fallbackUri t.config systemId
        systemType := (c.systemTypes.get systemId).getD "agent".toList
        taskId := t.atpTaskId
        invocation := invocationOf t.query
        outcome := outcomeOf response none
        dependencies := t.dependencies
        dependenciesHash
        classification := t.classification
        now }
      let _ ← task.publish c systemId t.config.proofTtlSeconds
      pure { t with committed := true }

end TaskContext

section Adapter

structure MinimalAdapter where
  config : ATPConfig
  client : ATPClient
  systemId : Option Text
  systemUri : Option Text

structure TaskResult where
  taskId : Text
  commitId : PyStr
  status : PyStr

def MinimalAdapter.onTaskComplete (a : MinimalAdapter) (taskId : Text) (query response : PyStr)
    (artifacts : Option JsonValue) (classification : Option Capability) : Run TaskResult :=
  match a.systemId.filter (· ≠ []) with
  | none => .raise ⟨.runtimeError, msg "Adapter not registered. Call register() first."⟩
  | some systemId => do
    let now ← utcNow
    let dependenciesHash ← .lift (computeDependenciesHash ([] : List (Form Dependency)))
    let task : Completed := {
      systemUri := (a.systemUri.filter (· ≠ [])).getD (fallbackUri a.config systemId)
      systemType := (a.client.systemTypes.get systemId).getD "agent".toList
      taskId
      invocation := invocationOf query
      outcome := outcomeOf response artifacts
      dependencies := []
      dependenciesHash
      classification := classification.getD defaultClassification
      now }
    let commit ← task.publish a.client systemId a.config.proofTtlSeconds
    pure ⟨taskId, commit.commitId, commit.status⟩

/-- `on_challenge`: the dump of the stored proof that `get` returned, which the validation
library does not write of every content. -/
def onChallenge (lib : Library) (taskId : Text) (stored : Except Exc (Option StoredProof)) :
    Except Exc JsonValue := do
  match ← stored with
  | some proof => if lib.dumpable proof.dump then .ok proof.dump else .error (foreign .valueError)
  | none => .error ⟨.proofNotFoundError, msg "No proof found for task " ++ [.text (raw taskId)]⟩

end Adapter

end AgentTrust.Tasks
