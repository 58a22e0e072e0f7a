import AgentTrust.Client

/-! The queries of the Exchange that a verifier does not need: the commits of a system, the
assessments of a task and the public key of the Exchange. -/

namespace AgentTrust.ExchangeQueries

open JsonTree JsonTree.Json JsonText PyText PyJson Gregorian PyDateTime PyValue Models Hashing
  Effects Exchange Client

/-- The status checks of the queries that know no 404, and the decoded body. -/
def listedBody (r : Response) (label : String) : Except Exc JsonValue := do
  if r.statusCode = 401 then .error invalidApiKey
  if r.statusCode ≠ 200 then
    let detail ← r.errorDetail
    .error ⟨.queryError, msg label ++ statusText r detail⟩
  r.json

def commitsRequest (systemId : PyStr) (status : Option CommitStatus) (limit offset : Int) :
    Request :=
  ⟨.exchange, .get, lit "/api/v1/systems/" ++ systemId ++ lit "/commits?limit=" ++
    raw (intText limit) ++ lit "&offset=" ++ raw (intText offset) ++
    status.elim [] fun s => lit ("&status=" ++ s.value), none⟩

def commitList (lib : Library) (data : JsonValue) : Except Exc (List Commit) := do
  let items ← iterate data
  items.mapM (Commit.fromApiResponse lib)

def decodeCommits (lib : Library) (r : Response) : Except Exc (List Commit) := do
  let data ← listedBody r "Query failed with status "
  commitList lib data

def getSystemCommits (lib : Library) (systemId : PyStr) (status : Option CommitStatus)
    (limit offset : Int) : Run (List Commit) :=
  translated "Network error during commit query: " .queryError do
    let r ← send (commitsRequest systemId status limit offset)
    .lift (decodeCommits lib r)

def AssessmentDimension.ofValue : JsonValue → Option AssessmentDimension
  | .str s =>
    if s = lit "integrity" then some .integrity
    else if s = lit "quality" then some .quality
    else if s = lit "compliance" then some .compliance
    else none
  | _ => none

def AssessmentRecord.fromApiResponse (lib : Library) (data : JsonValue) :
    Except Exc AssessmentRecord := do
  let assessmentId ← getItem "assessment_id" data
  let assessorSystemId ← getItem "assessor_system_id" data
  let assessorTaskId ← getOr "assessor_task_id" .null data
  let assessedSystemId ← getItem "assessed_system_id" data
  let assessedTaskId ← getItem "assessed_task_id" data
  let dimension ← getItem "dimension" data
  let dimension ← valid (AssessmentDimension.ofValue dimension)
  let assessment ← getItem "assessment" data
  let assessedAt ← getItem "assessed_at" data
  let assessedAt ← isoField assessedAt
  let createdAt ← getItem "created_at" data
  let createdAt ← isoField createdAt
  return {
    dimension, assessedAt, createdAt
    assessedTaskId := pyStr lib.reprContainer assessedTaskId
    assessmentId := ← valid (asText assessmentId)
    assessorSystemId := ← valid (asText assessorSystemId)
    assessorTaskId := ← valid (nullable asText assessorTaskId)
    assessedSystemId := ← valid (asText assessedSystemId)
    assessment := ← valid (asText assessment) }

structure AssessmentsResponse where
  systemId : PyStr
  taskId : PyStr
  assessments : List AssessmentRecord

/-- `[AssessmentRecord.from_api_response(a) for a in v]`. -/
def assessmentList (lib : Library) (v : JsonValue) : Except Exc (List AssessmentRecord) := do
  let items ← iterate v
  items.mapM (AssessmentRecord.fromApiResponse lib)

def AssessmentsResponse.fromApiResponse (lib : Library) (data : JsonValue) :
    Except Exc AssessmentsResponse := do
  let systemId ← getItem "system_id" data
  let taskId ← getItem "task_id" data
  let assessments ← getOr "assessments" (.arr []) data
  let assessments ← assessmentList lib assessments
  return {
    assessments
    systemId := ← valid (asText systemId)
    taskId := ← valid (asText taskId) }

def assessmentsRequest (systemId taskId : PyStr) : Request :=
  ⟨.exchange, .get,
    lit "/api/v1/systems/" ++ systemId ++ lit "/tasks/" ++ taskId ++ lit "/assessments", none⟩

def decodeAssessments (lib : Library) (r : Response) : Except Exc AssessmentsResponse := do
  let data ← listedBody r "Assessment query failed with status "
  AssessmentsResponse.fromApiResponse lib data

def getAssessments (lib : Library) (systemId taskId : PyStr) : Run AssessmentsResponse :=
  translated "Network error querying assessments: " .queryError do
    let r ← send (assessmentsRequest systemId taskId)
    .lift (decodeAssessments lib r)

def publicKeyRequest : Request := ⟨.exchange, .get, lit "/api/v1/exchange/public-key", none⟩

def decodePublicKey (lib : Library) (r : Response) : Except Exc PyStr := do
  if r.statusCode ≠ 200 then
    let detail ← r.errorDetail
    .error ⟨.queryError, msg "Failed to fetch public key with status " ++ statusText r detail⟩
  let data ← r.json
  let key ← getItem "public_key" data
  return pyStr lib.reprContainer key

def getExchangePublicKey (lib : Library) : Run PyStr :=
  translated "Network error fetching public key: " .queryError do
    let r ← send publicKeyRequest
    .lift (decodePublicKey lib r)

end AgentTrust.ExchangeQueries
