import AgentTrust.Tasks

/-! `challenge_and_verify`: the second verifier. It reads the disclosed proof as raw
JSON, without the validation of `ATPClient.challenge`, and decides path by path
whether to report an integrity assessment. -/

namespace AgentTrust.Verifier

open JsonTree JsonTree.Json PyText PyJson PyDateTime OrderedDict PyValue Models Hashing Effects
  Exchange Client Tasks

structure RawTask where
  taskId : JsonValue
  invocation : JsonValue
  invocationHash : JsonValue
  outcome : JsonValue
  outcomeHash : JsonValue
  systemId : PyStr

/-- `v.rstrip("/").rsplit("/", 1)[-1]`. -/
def trailingId : JsonValue → Except Exc PyStr
  | .str s => .ok (systemIdOf s)
  | _ => .error (foreign .attributeError)

def readTask (storedProof : JsonValue) : Except Exc RawTask := do
  let proofData ← getItem "proof_data" storedProof
  let task ← getItem "task" proofData
  let systemUri ← getItem "system_uri" task
  let taskId ← getItem "task_id" task
  let invocation ← getItem "invocation" task
  let invocationHash ← getItem "invocation_hash" task
  let outcome ← getItem "outcome" task
  let outcomeHash ← getItem "outcome_hash" task
  let systemId ← trailingId systemUri
  return { taskId, invocation, invocationHash, outcome, outcomeHash, systemId }

/-- `t == v`. -/
def isText (t : PyStr) : JsonValue → Bool
  | .str s => t = s
  | _ => false

abbrev RawVerdict := JsonValue × Bool × Message

/-- From the agent's reply to its `result` member, or the message of an early return. -/
def decodeReply (r : Response) : Except Exc (Except Message JsonValue) := do
  if ¬ (200 ≤ r.statusCode ∧ r.statusCode < 300) then .error (foreign .httpError)
  let data ← r.json
  let error ← getOr "error" .null data
  if truthy error then return .error (msg "Challenge failed: " ++ [.value error])
  let result ← getItem "result" data
  return .ok result

def report (c : ATPClient) (task : RawTask) (verdict : IntegrityAssessment) : Run Unit :=
  reportIntegrity c task.systemId task.taskId verdict none

def compareSketch (lib : Library) (c : ATPClient) (storedProof : JsonValue) (task : RawTask) :
    Run (Except RawVerdict Commit) :=
  .attempt (do
    let commit ← getCommitBySystemAndTask lib task.systemId task.taskId
    if !isText commit.proofSketch.cryptography.invocationHash task.invocationHash then
      report c task .compromised
      pure (.error (storedProof, false, msg "Invocation hash doesn't match ATP Exchange"))
    else if !isText commit.proofSketch.cryptography.outcomeHash task.outcomeHash then
      report c task .compromised
      pure (.error (storedProof, false, msg "Outcome hash doesn't match ATP Exchange"))
    else pure (.ok commit))
  fun e => pure (.error (storedProof, false, msg "Failed to verify with ATP Exchange: " ++ e.text))

/-- Steps 3 and 4: the expected contents, then the commit status. -/
def conclude (lib : Library) (c : ATPClient)
    (expectedInvocation expectedOutcome : Option JsonValue) (storedProof : JsonValue)
    (task : RawTask) (commit : Commit) : Run RawVerdict := do
  if expectedInvocation.any fun x => !lib.equal task.invocation x then
    report c task .compromised
    pure (storedProof, false, msg "Invocation content mismatch: " ++ [.repr task.invocation])
  else if expectedOutcome.any fun x => !lib.equal task.outcome x then
    report c task .compromised
    pure (storedProof, false, msg "Outcome content mismatch: " ++ [.repr task.outcome])
  else if commit.status.value = "confirmed" then
    report c task .verified
    pure (storedProof, true, msg "✅ Verified and confirmed")
  else
    pure (storedProof, false, msg "Commit in unexpected state: " ++ msg commit.status.value)

def settle (lib : Library) (c : ATPClient) (expectedInvocation expectedOutcome : Option JsonValue)
    (storedProof : JsonValue) (task : RawTask) : Run RawVerdict := do
  let step2 ← compareSketch lib c storedProof task
  match step2 with
  | .error verdict => pure verdict
  | .ok commit => conclude lib c expectedInvocation expectedOutcome storedProof task commit

/-- Step 1, the local hashes, and then the rest. -/
def examine (lib : Library) (c : ATPClient) (expectedInvocation expectedOutcome : Option JsonValue)
    (storedProof : JsonValue) (task : RawTask) : Run RawVerdict := do
  let invocationHash ← .lift (hashWithPrefix task.invocation)
  if !isText (raw invocationHash) task.invocationHash then
    report c task .compromised
    pure (storedProof, false, msg "Proof invocation hash mismatch (proof is invalid)")
  else
    let outcomeHash ← .lift (hashWithPrefix task.outcome)
    if !isText (raw outcomeHash) task.outcomeHash then
      report c task .compromised
      pure (storedProof, false, msg "Proof outcome hash mismatch (proof is invalid)")
    else settle lib c expectedInvocation expectedOutcome storedProof task

def challengeAndVerify (lib : Library) (c : ATPClient) (agentUrl taskId : PyStr)
    (expectedInvocation expectedOutcome : Option JsonValue) : Run RawVerdict :=
  match (c.firstSystem.map Prod.snd).filter (· ≠ []) with
  | none => pure (.obj [], false,
      msg "No registered system found. Call client.register_system() first.")
  | some systemId => do
    let exchangeUrl := ATPConfig.exchangeUrlOr c.config "http://localhost:80"
    let challenger ← fetchIdentity exchangeUrl systemId "ATPClient".toList
    let reply : Except Message JsonValue ← .attempt (do
      let r ← send ⟨.agent, .post, agentUrl, some (challengePayload taskId challenger)⟩
      .lift (decodeReply r))
      (fun e => pure (.error (msg "Challenge request failed: " ++ e.text)))
    match reply with
    | .error message => pure (.obj [], false, message)
    | .ok storedProof =>
      match readTask storedProof with
      | .error e =>
        if e.isAny [.keyError, .typeError] then
          pure (storedProof, false, msg "Invalid proof structure: " ++ e.text)
        else .raise e
      | .ok task => examine lib c expectedInvocation expectedOutcome storedProof task

end AgentTrust.Verifier
