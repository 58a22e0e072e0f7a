import AgentTrust.Exchange

/-! The client: registration caches, commits, commit queries, the challenge of another
agent with its verification and automatic assessment, and signature verification.
Each request is an event; each failure is the exception the method raises. -/

namespace AgentTrust.Client

open JsonTree JsonTree.Json PyText PyJson Gregorian PyDateTime OrderedDict PyValue Models Hashing
  Effects Exchange

structure ATPConfig where
  exchangeUrl : Text
  proofTtlSeconds : Int

/-- The state of a client: name to system id, and the Exchange's own URI and the type
of each registered system. -/
structure ATPClient where
  config : ATPConfig
  registeredSystems : Dict Text Text
  systemUris : Dict Text Text
  systemTypes : Dict Text Text

/-- `list(self._registered_systems.items())[0]`. -/
def ATPClient.firstSystem (c : ATPClient) : Option (Text × Text) :=
  c.registeredSystems.entries.head?

section Queries

def invalidApiKey : Exc := ⟨.authError, msg "Invalid API key"⟩

def statusText (r : Response) (detail : JsonValue) : Message :=
  [.value (.int r.statusCode), .text (lit ": "), .value detail]

/-- The `except` clauses shared by the methods that talk to the Exchange. -/
def translated {α : Type} (network : String) (invalid : ExcClass) (x : Run α) : Run α :=
  .attempt x fun e =>
    if e.cls = .requestError then .raise ⟨.networkError, msg network ++ e.text⟩
    else if e.isAny [.keyError, .valueError] then
      .raise ⟨invalid, msg "Invalid response from backend: " ++ e.text⟩
    else .raise e

theorem translated_log {α : Type} (network : String) (invalid : ExcClass) (x : Run α)
    (w : World) (h : List Event) :
    ((translated network invalid x).run w h).log = (x.run w h).log := by
  refine Run.log_attempt w h fun e l => ?_
  split
  · rfl
  · split <;> rfl

theorem translated_result {α : Type} (network : String) (invalid : ExcClass) (x : Run α)
    (w : World) (h : List Event) :
    ((translated network invalid x).run w h).result.toOption = (x.run w h).result.toOption := by
  unfold translated
  rw [Run.run_attempt]
  cases result : (x.run w h).result with
  | ok a => simp only [result]
  | error e =>
    dsimp only
    split
    · rfl
    · split <;> rfl

def queryBody (r : Response) (notFound : Message) : Except Exc JsonValue := do
  if r.statusCode = 401 then .error invalidApiKey
  if r.statusCode = 404 then .error ⟨.queryError, notFound⟩
  if r.statusCode ≠ 200 then
    let detail ← r.errorDetail
    .error ⟨.queryError, msg "Query failed with status " ++ statusText r detail⟩
  r.json

def commitRequest (systemId taskId : PyStr) : Request :=
  ⟨.exchange, .get,
    lit "/api/v1/systems/" ++ systemId ++ lit "/tasks/" ++ taskId ++ lit "/commit", none⟩

def decodeCommit (lib : Library) (systemId taskId : PyStr) (r : Response) : Except Exc Commit := do
  let data ← queryBody r (msg "No commit found for system_id=" ++
    [.text systemId, .text (lit ", task_id="), .text taskId])
  Commit.fromApiResponse lib data

def getCommitBySystemAndTask (lib : Library) (systemId : PyStr) (taskId : JsonValue) :
    Run Commit :=
  let taskIdStr := pyStr lib.reprContainer taskId
  translated "Network error during commit query: " .queryError do
    let r ← send (commitRequest systemId taskIdStr)
    .lift (decodeCommit lib systemId taskIdStr r)

def commitByIdRequest (commitId : PyStr) : Request :=
  ⟨.exchange, .get, lit "/api/v1/commits/" ++ commitId, none⟩

def decodeCommitById (lib : Library) (commitId : PyStr) (r : Response) : Except Exc Commit := do
  let data ← queryBody r (msg "Commit " ++ [.text commitId] ++ msg " not found")
  Commit.fromApiResponse lib data

def getCommit (lib : Library) (commitId : PyStr) : Run Commit :=
  translated "Network error during commit query: " .queryError do
    let r ← send (commitByIdRequest commitId)
    .lift (decodeCommitById lib commitId r)

/-- `verify_response`: the hash of a bare string against the committed outcome hash. -/
def verifyResponse (lib : Library) (commitId responseData : PyStr) : Run Bool :=
  .attempt (do
    let commit ← getCommit lib commitId
    let responseHash ← .lift (hashWithPrefix (.str responseData))
    pure (decide (raw responseHash = commit.proofSketch.cryptography.outcomeHash)))
  fun e =>
    if e.isAny [.queryError, .networkError] then
      .raise ⟨.verificationError, msg "Failed to verify response: " ++ e.text⟩
    else .raise e

def systemRequest (systemId : PyStr) : Request :=
  ⟨.exchange, .get, lit "/api/v1/systems/" ++ systemId, none⟩

def getSystem (systemId : PyStr) : Run System :=
  translated "Network error during system query: " .queryError do
    let r ← send (systemRequest systemId)
    let data ← .lift (queryBody r (msg "System " ++ [.text systemId] ++ msg " not found"))
    .lift (System.fromApiResponse data)

end Queries

section Commits

/-- `self._system_uris.get(system_id, f"{exchange_url}/systems/{system_id}")`. -/
def ATPClient.systemUri (c : ATPClient) (systemId : Text) : Text :=
  (c.systemUris.get systemId).getD (c.config.exchangeUrl ++ "/systems/".toList ++ systemId)

def ATPClient.completed (c : ATPClient) (systemId : Text) (s : ProofSketch) : ProofSketch :=
  { s with
    atpMetadata :=
      { s.atpMetadata with
        systemUri := c.systemUri systemId
        classification := some (s.atpMetadata.classification.getD defaultClassification) } }

def commitPayload (systemId taskId : Text) (s : ProofSketch) (proofHash : Text) : JsonValue :=
  record [("system_id", text systemId), ("task_id", text taskId), ("proof", s.dump),
    ("proof_hash", text proofHash)]

def postRequest (url : String) (payload : JsonValue) : Request :=
  ⟨.exchange, .post, lit url, some payload⟩

def acceptedBody (r : Response) (cls : ExcClass) (label : String) : Except Exc JsonValue := do
  if r.statusCode = 401 then .error invalidApiKey
  if r.statusCode ≠ 200 ∧ r.statusCode ≠ 201 then
    let detail ← r.errorDetail
    .error ⟨cls, msg label ++ statusText r detail⟩
  r.json

def createCommit (c : ATPClient) (systemId taskId : Text) (s : ProofSketch) :
    Run CommitResponse := do
  let s := c.completed systemId s
  let proofHash ← .lift (computeProofHashParts (raw (c.systemUri systemId)) (raw taskId)
    (raw s.cryptography.invocationHash) (raw s.cryptography.outcomeHash)
    (s.cryptography.dependenciesHash.map raw) s.timestamp)
  translated "Network error during commit: " .commitError do
    let r ← send (postRequest "/api/v1/commit" (commitPayload systemId taskId s proofHash))
    let data ← .lift (acceptedBody r .commitError "Commit creation failed with status ")
    .lift (CommitResponse.ofData data)

theorem createCommit_posts (c : ATPClient) (systemId taskId : Text) (s : ProofSketch) (w : World)
    (h : List Event) :
    ∃ proofHash, computeProofHashParts (raw (c.systemUri systemId)) (raw taskId)
        (raw s.cryptography.invocationHash) (raw s.cryptography.outcomeHash)
        (s.cryptography.dependenciesHash.map raw) s.timestamp = .ok proofHash ∧
      (createCommit c systemId taskId s).run w h =
        (translated "Network error during commit: " .commitError do
          let r ← send (postRequest "/api/v1/commit"
            (commitPayload systemId taskId (c.completed systemId s) proofHash))
          let data ← .lift (acceptedBody r .commitError "Commit creation failed with status ")
          .lift (CommitResponse.ofData data)).run w h := by
  obtain ⟨m, _, hash⟩ := computeProofHashParts_eq_ok (c.systemUri systemId) taskId
    s.cryptography.invocationHash s.cryptography.outcomeHash s.cryptography.dependenciesHash
    s.timestamp
  have hashed := congrArg Outcome.result (congrArg (Outcome.mk (τ := Event) · h) hash)
  exact ⟨sha256 m, hash, Run.run_bind_ok w h hashed _⟩

theorem createCommit_sends (c : ATPClient) (systemId taskId : Text) (s : ProofSketch) (w : World)
    (h : List Event) :
    ∃ proofHash, computeProofHashParts (raw (c.systemUri systemId)) (raw taskId)
        (raw s.cryptography.invocationHash) (raw s.cryptography.outcomeHash)
        (s.cryptography.dependenciesHash.map raw) s.timestamp = .ok proofHash ∧
      ((createCommit c systemId taskId s).run w h).log =
        h ++ [.send (postRequest "/api/v1/commit"
          (commitPayload systemId taskId (c.completed systemId s) proofHash))] := by
  obtain ⟨proofHash, hash, posted⟩ := createCommit_posts c systemId taskId s w h
  refine ⟨proofHash, hash, ?_⟩
  rw [posted, translated_log, Run.log_bind w h]
  · rfl
  · intro r l
    rw [Run.log_bind w l]
    · rfl
    · intro v l
      rfl

end Commits

section Assessments

inductive AssessmentDimension where
  | integrity
  | quality
  | compliance

def AssessmentDimension.value : AssessmentDimension → String
  | .integrity => "integrity"
  | .quality => "quality"
  | .compliance => "compliance"

inductive IntegrityAssessment where
  | verified
  | compromised
  deriving DecidableEq

def IntegrityAssessment.value : IntegrityAssessment → String
  | .verified => "verified"
  | .compromised => "compromised"

structure AssessmentRecord where
  assessmentId : PyStr
  assessorSystemId : PyStr
  assessorTaskId : Option PyStr
  assessedSystemId : PyStr
  assessedTaskId : PyStr
  dimension : AssessmentDimension
  assessment : PyStr
  assessedAt : DateTime
  createdAt : DateTime

def assessPayload (assessor : Text) (assessedSystemId : PyStr) (assessedTaskId : JsonValue)
    (dimension : AssessmentDimension) (assessment : PyStr) (assessedAt : DateTime)
    (assessorTaskId : Option PyStr) : JsonValue :=
  record ([("assessor_system_id", text assessor), ("assessed_system_id", .str assessedSystemId),
    ("assessed_task_id", assessedTaskId), ("dimension", .str (lit dimension.value)),
    ("assessment", .str assessment), ("assessed_at", date assessedAt)] ++
    match assessorTaskId with
    | some t => [("assessor_task_id", .str t)]
    | none => [])

def assessmentOf (assessor : Text) (assessedSystemId : PyStr) (assessedTaskId : JsonValue)
    (dimension : AssessmentDimension) (assessment : PyStr) (assessedAt : DateTime)
    (assessorTaskId : Option PyStr) (data : JsonValue) : Except Exc AssessmentRecord := do
  let assessmentId ← getItem "assessment_id" data
  let recordedAt ← getItem "recorded_at" data
  let createdAt ← isoField recordedAt
  return {
    assessorSystemId := raw assessor
    assessorTaskId, assessedSystemId, dimension, assessment, assessedAt, createdAt
    assessmentId := ← valid (asText assessmentId)
    assessedTaskId := ← valid (asText assessedTaskId) }

/-- `None` for a duplicate. -/
def decodeAssessment (assessor : Text) (assessedSystemId : PyStr) (assessedTaskId : JsonValue)
    (dimension : AssessmentDimension) (assessment : PyStr) (assessedAt : DateTime)
    (assessorTaskId : Option PyStr) (r : Response) : Except Exc (Option AssessmentRecord) := do
  if r.statusCode = 409 then return none
  let data ← acceptedBody r .queryError "Assessment submission failed with status "
  let record ← assessmentOf assessor assessedSystemId assessedTaskId dimension assessment
    assessedAt assessorTaskId data
  return some record

def reportAssessment (c : ATPClient) (assessedSystemId : PyStr) (assessedTaskId : JsonValue)
    (dimension : AssessmentDimension) (assessment : PyStr) (assessedAt : DateTime)
    (assessorTaskId : Option PyStr) : Run (Option AssessmentRecord) :=
  match c.firstSystem with
  | none => .raise ⟨.runtimeError,
      msg "Cannot report assessment — no system registered. Call register_system() first."⟩
  | some (_, assessor) =>
    .attempt (do
      let r ← send (postRequest "/api/v1/assess" (assessPayload assessor assessedSystemId
        assessedTaskId dimension assessment assessedAt assessorTaskId))
      .lift (decodeAssessment assessor assessedSystemId assessedTaskId dimension assessment
        assessedAt assessorTaskId r))
    fun e =>
      if e.cls = .requestError then
        .raise ⟨.networkError, msg "Network error reporting assessment: " ++ e.text⟩
      else .raise e

def reportIntegrity (c : ATPClient) (systemId : PyStr) (taskId : JsonValue)
    (verdict : IntegrityAssessment) (assessorTaskId : Option PyStr) : Run Unit :=
  .attempt (do
    let now ← utcNow
    let _ ← reportAssessment c systemId taskId .integrity (lit verdict.value) (utcAt now)
      assessorTaskId
    pure ())
  fun _ => pure ()

end Assessments

section Verification

/-- `uri.rstrip("/").rsplit("/", 1)[-1]`. -/
def systemIdOf (systemUri : PyStr) : PyStr := trailingSegment (ofChar '/') systemUri

abbrev Verdict := StoredProofOf PyStr × Bool × Message

/-- Step 2 of `_verify`: the commit, or the verdict of an early return. -/
def compareWithExchange (lib : Library) (p : StoredProofOf PyStr) : Run (Except Verdict Commit) :=
  let task := p.proofData.task
  .attempt (do
    let commit ← getCommitBySystemAndTask lib (systemIdOf task.systemUri) (.str task.taskId)
    if commit.proofSketch.cryptography.invocationHash ≠ task.invocationHash then
      pure (.error (p, false, msg "Invocation hash doesn't match ATP Exchange"))
    else if commit.proofSketch.cryptography.outcomeHash ≠ task.outcomeHash then
      pure (.error (p, false, msg "Outcome hash doesn't match ATP Exchange"))
    else pure (.ok commit))
  fun e => pure (.error (p, false, msg "Failed to verify with ATP Exchange: " ++ e.text))

/-- `_verify`: local hashes, then the committed sketch, then the commit status. -/
def verify (lib : Library) (p : StoredProofOf PyStr) : Run Verdict := do
  let task := p.proofData.task
  let computedInvHash ← .lift (hashWithPrefix (.obj task.invocation))
  let computedOutHash ← .lift (hashWithPrefix (.obj task.outcome))
  if raw computedInvHash ≠ task.invocationHash then
    pure (p, false, msg "Proof invocation hash mismatch (proof is invalid)")
  else if raw computedOutHash ≠ task.outcomeHash then
    pure (p, false, msg "Proof outcome hash mismatch (proof is invalid)")
  else
    let step2 ← compareWithExchange lib p
    match step2 with
    | .error verdict => pure verdict
    | .ok commit =>
      if commit.status.value = "confirmed" then pure (p, true, msg "✅ Verified and confirmed")
      else
        pure (p, false, msg "Commit in unexpected state: " ++ msg commit.status.value)

end Verification

section Challenge

def challengePayload (taskId : PyStr) (challenger : JsonValue) : JsonValue :=
  record [("jsonrpc", .str (lit "2.0")), ("method", .str (lit "atp.challenge")),
    ("params", record [("task_id", .str taskId), ("challenger", challenger)]), ("id", .int 1)]

def challengerIdentity (exchangeUrl systemId : Text) (systemType systemName : PyStr) : JsonValue :=
  record [("atp_exchange_url", text exchangeUrl), ("system_id", text systemId),
    ("system_type", .str systemType), ("system_name", .str systemName), ("extensions", .obj [])]

/-- The challenger's identity, with `fallback` as its name when it cannot be fetched. -/
def fetchIdentity (exchangeUrl systemId fallback : Text) : Run JsonValue :=
  .attempt (do
    let system ← getSystem (raw systemId)
    pure (challengerIdentity exchangeUrl systemId system.type system.name))
  fun _ => pure (challengerIdentity exchangeUrl systemId (lit "agent") (raw fallback))

def rpcError (error : JsonValue) : Except Exc (StoredProofOf PyStr) := do
  let message ← getOr "message" (.str (lit "Unknown error")) error
  let code ← getOr "code" (.int (-1)) error
  let data ← getOr "data" .null error
  let reason ← if isRecord data then getOr "reason" (.str (lit "unknown")) data
    else .ok (.str (lit "unknown"))
  .error ⟨.queryError, msg "Challenge failed (code " ++ [.value code] ++ msg "): " ++
    [.value message] ++ msg " (reason: " ++ [.value reason] ++ msg ")"⟩

def decodeDisclosure (lib : Library) (r : Response) : Except Exc (StoredProofOf PyStr) := do
  if r.statusCode ≠ 200 then
    .error ⟨.queryError, msg "Challenge failed with status " ++
      statusText r (.str (if r.text ≠ [] then r.text else lit "Unknown error"))⟩
  let data ← r.json
  let flagged ← contains "error" data
  let error ← if flagged then getOr "error" .null data else .ok .null
  if truthy error then
    rpcError error
  else
    let present ← contains "result" data
    if !present then
      .error ⟨.queryError, msg "Invalid JSON-RPC response: missing 'result' field"⟩
    match getItem "result" data >>= fun v => valid (StoredProofOf.validate lib v) with
    | .ok p => .ok p
    | .error e =>
      -- The log line of the handler evaluates `data.get('result')` first.
      let _ ← getOr "result" .null data
      .error ⟨.queryError, msg "Invalid proof structure from agent: " ++ e.text⟩

/-- The part of `challenge` inside its `try`. -/
def pursue (lib : Library) (c : ATPClient) (agentUrl taskId : PyStr) (challenger : JsonValue)
    (verifying : Bool) (assessorTaskId : Option PyStr) : Run Verdict := do
  let r ← send ⟨.agent, .post, agentUrl, some (challengePayload taskId challenger)⟩
  let p ← .lift (decodeDisclosure lib r)
  if !verifying then pure (p, false, msg "Verification skipped")
  else
    let verdict ← verify lib p
    let task := p.proofData.task
    reportIntegrity c (systemIdOf task.systemUri) (.str task.taskId)
      (if verdict.2.1 then .verified else .compromised) assessorTaskId
    pure verdict

def challengeError (e : Exc) : Exc :=
  if e.cls = .requestError then ⟨.networkError, msg "Network error during challenge: " ++ e.text⟩
  else if e.cls = .queryError then e
  else if e.isAny [.keyError, .valueError] then
    ⟨.queryError, msg "Invalid response from agent: " ++ e.text⟩
  else e

/-- `challenge`: fetch a proof from an agent, verify it, and report the verdict. -/
def challenge (lib : Library) (c : ATPClient) (agentUrl taskId : PyStr) (verifying : Bool)
    (assessorTaskId : Option PyStr) : Run Verdict :=
  match c.firstSystem with
  | none => .raise ⟨.runtimeError, msg "Cannot include challenger identity - no system registered. "
      ++ msg "Call register_system() first."⟩
  | some (challengerName, challengerSystemId) => do
    let challenger ← fetchIdentity c.config.exchangeUrl challengerSystemId challengerName
    .attempt (pursue lib c agentUrl taskId challenger verifying assessorTaskId)
      fun e => .raise (challengeError e)

end Challenge

section Signatures

abbrev Bytes := List UInt8

/-- The signature library: base58, hexadecimal, and Ed25519 verification, whose
rejection of a message, a key or a signature is a `ValueError` here. -/
structure SignatureLib where
  b58decode : PyStr → Except Exc Bytes
  fromHex : Text → Except Exc Bytes
  verify : (key message signature : Bytes) → Except Exc Unit

def signatureMessage (commit : Commit) (proofHash : Text) (catalogedAt : DateTime) : PyStr :=
  raw commit.id.str ++ pipe :: (raw commit.taskId.str ++ pipe :: (commit.systemId ++ pipe ::
    (raw proofHash ++ pipe :: raw (isoformat catalogedAt))))

/-- `bytes.fromhex(key) if key else None`, with no bytes for `None`. -/
def publicKeyBytes (sig : SignatureLib) (key : Option Text) : Except Exc Bytes :=
  match key.filter (· ≠ []) with
  | some k => sig.fromHex k
  | none => .ok []

def checkSignature (sig : SignatureLib) (signature : PyStr) (key : Option Text)
    (message : PyStr) : Except Exc Unit := do
  let sigBytes ← sig.b58decode signature
  let pubkey ← publicKeyBytes sig key
  if pubkey = [] then
    .error ⟨.valueError, msg "Exchange public key required for signature verification"⟩
  else
    let message ← valid (encode message)
    sig.verify pubkey (utf8 message) sigBytes

def verifySignature (sig : SignatureLib) (commit : Commit) (exchangePublicKey : Option Text) :
    Except Exc Bool :=
  match commit.signature.filter (· ≠ []), commit.catalogedAt with
  | none, _ => .error ⟨.valueError, msg "Commit has no signature (may be pending)"⟩
  | some _, none => .error ⟨.valueError, msg "Commit has no cataloged_at time (may be pending)"⟩
  | some signature, some catalogedAt => do
    let proofHash ← computeProofHash commit.proofSketch
    match checkSignature sig signature exchangePublicKey
        (signatureMessage commit proofHash catalogedAt) with
    | .ok () => .ok true
    | .error e =>
      if e.cls = .valueError then .ok false
      else .error ⟨.verificationError, msg "Signature verification failed: " ++ e.text⟩

end Signatures

end AgentTrust.Client
