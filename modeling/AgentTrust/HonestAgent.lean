import AgentTrust.RawDisclosure
import AgentTrust.StoredJson
import AgentTrust.ProofHash

/-! An honest agent is verified. Its stored proof, disclosed as JSON, is read back
with hashes that match its contents, and the Exchange serves the sketch committed with
the same hashes; so both verifiers confirm it and report it as verified. -/

namespace AgentTrust.HonestAgent

open JsonTree JsonTree.Json PyText PyJson Gregorian PyDateTime IsoFormat OrderedDict PyValue Models
  Hashing Effects Exchange Client Storage Tasks Verifier CommitReveal Disclosure Publication
  StoredJson ProofHash
open Effects.Run hiding pure bind

section Disclosures

variable {lib : Library} {r : Response} {v : JsonValue} {p : StoredProofOf PyStr}

structure Discloses (r : Response) (v : JsonValue) : Prop where
  status : r.statusCode = 200
  body : ∃ data, r.body = .ok data ∧ getItem "result" data = .ok v ∧
    getOr "error" .null data = .ok .null

theorem object_of_getOr {k : String} {default x data : JsonValue}
    (h : getOr k default data = .ok x) : ∃ fields, data = .obj fields := by
  cases data with
  | obj fields => exact ⟨fields, rfl⟩
  | _ => simp [getOr] at h

theorem decodeReply_discloses (reply : Discloses r v) : decodeReply r = .ok (.ok v) := by
  obtain ⟨data, body, result, error⟩ := reply.body
  unfold decodeReply Response.json
  rw [if_neg (by rw [reply.status]; decide), body]
  simp only [Except.mapError, bind_ok, error, result]
  rfl

theorem decodeDisclosure_toOption (reply : Discloses r v) :
    (decodeDisclosure lib r).toOption = StoredProofOf.validate lib v := by
  obtain ⟨data, body, result, error⟩ := reply.body
  obtain ⟨fields, rfl⟩ := object_of_getOr error
  have present : (lookup (lit "result") fields).isSome = true := by
    unfold getItem at result
    dsimp only at result
    split at result
    · next x found => rw [found]; rfl
    · simp at result
  unfold decodeDisclosure Response.json
  rw [if_neg (by rw [reply.status]; decide), body]
  simp only [Except.mapError, bind_ok, error, result, contains, present, ite_self]
  cases (StoredProofOf.validate lib v : Option (StoredProofOf PyStr)) <;> rfl

theorem decodeDisclosure_discloses (reply : Discloses r v)
    (valid_ : StoredProofOf.validate lib v = some p) : decodeDisclosure lib r = .ok p :=
  toOption_eq_some.mp ((decodeDisclosure_toOption reply).trans valid_)

def rawTaskOf (p : StoredProofOf PyStr) : RawTask where
  taskId := namedTask p
  invocation := .obj p.proofData.task.invocation
  invocationHash := .str p.proofData.task.invocationHash
  outcome := .obj p.proofData.task.outcome
  outcomeHash := .str p.proofData.task.outcomeHash
  systemId := namedSystem p

theorem readTask_dump (p : StoredProofOf PyStr) : readTask p.dump = .ok (rawTaskOf p) := by
  simp [readTask, StoredProofOf.dump, ProofDataOf.dump, ProofDataTaskOf.dump, trailingId, rawTaskOf]

theorem disclosed_of_reply {s : Setting} (replied : s.reply s.challenger = .ok r)
    (reply : Discloses r v) (valid_ : StoredProofOf.validate s.lib v = some p) :
    s.disclosed = .ok p := by
  rw [Setting.disclosed, replied, bind_ok]
  exact decodeDisclosure_discloses reply valid_

theorem rawDisclosed_of_reply {s : Setting} (replied : s.reply s.verifier = .ok r)
    (reply : Discloses r p.dump) :
    s.rawDisclosed = some (p.dump, rawTaskOf p) := by
  have result : s.rawReply = .ok p.dump := by
    unfold Setting.rawReply
    rw [replied, bind_ok, decodeReply_discloses reply]
  simp only [Setting.rawDisclosed, result, readTask_dump]

end Disclosures

section Confirmation

variable {s : Setting} {systemId taskId : Text} {v : JsonValue} {p : StoredProofOf PyStr}
  {sketch : ProofSketch}

/-- The agent discloses `v`, and the Exchange serves the confirmed `sketch`. -/
structure Setup (s : Setting) (systemId taskId : Text) (v : JsonValue) (sketch : ProofSketch) :
    Prop where
  registered : s.client.firstSystem = some s.first
  identified : s.first.2 ≠ []
  agent : ∀ challenger, ∃ r, s.reply challenger = .ok r ∧ Discloses r v
  exchange : ∀ h, ∃ r data, s.world.reply h (commitRequest (raw systemId) (raw taskId)) = .ok r ∧
    r.statusCode = 200 ∧ r.body = .ok data ∧ CommitReply data sketch .confirmed

/-- The contents of `p` have the hashes that it declares and that the sketch holds. -/
structure Matches (p : StoredProofOf PyStr) (systemId taskId : Text) (sketch : ProofSketch) :
    Prop where
  systemId : namedSystem p = raw systemId
  taskId : p.proofData.task.taskId = raw taskId
  content : recomputed p = declared p
  sketch : declared p =
    (raw sketch.cryptography.invocationHash, raw sketch.cryptography.outcomeHash)

theorem consulted_setup (setup : Setup s systemId taskId v sketch)
    (readable : sketch.Readable s.lib) (h : List Event) :
    ∃ commit, consulted s.lib s.world h (raw systemId) (.str (raw taskId)) = some commit ∧
      committed commit = ⟨(raw sketch.cryptography.invocationHash,
        raw sketch.cryptography.outcomeHash), true⟩ := by
  obtain ⟨r, data, answered, status, body, reply⟩ := setup.exchange h
  obtain ⟨commit, decoded, same, confirmed⟩ := reply.decodes readable
  refine ⟨commit, ?_, ?_⟩
  · have query : decodeCommit s.lib (raw systemId) (raw taskId) r = .ok commit := by
      unfold decodeCommit queryBody Response.json
      rw [if_neg (by rw [status]; decide), if_neg (by rw [status]; decide),
        if_neg (by rw [status]; decide), body]
      exact decoded
    change (s.world.reply h (commitRequest (raw systemId) (raw taskId)) >>=
      decodeCommit s.lib (raw systemId) (raw taskId)).toOption = _
    rw [answered, bind_ok, query]
    rfl
  · rw [committed, same, confirmed]
    rfl

theorem found_setup (setup : Setup s systemId taskId v sketch) (readable : sketch.Readable s.lib)
    (matched : Matches p systemId taskId sketch) : s.found p = .confirmed := by
  obtain ⟨commit, held, record⟩ := consulted_setup setup readable (s.history s.challenger)
  rw [Setting.found, findingOf_matched matched.content, matched.systemId, namedTask,
    matched.taskId, held, Option.map_some, record, matched.sketch]
  simp [recordFinding, same]

theorem ruled_setup (setup : Setup s systemId taskId v sketch) (readable : sketch.Readable s.lib)
    (matched : Matches p systemId taskId sketch)
    (valid_ : StoredProofOf.validate s.lib v = some p) :
    s.ruled true = some (p, .confirmed) := by
  obtain ⟨r, replied, disclosed⟩ := setup.agent s.challenger
  have disclosure := disclosed_of_reply replied disclosed valid_
  unfold Setting.ruled
  rw [setup.registered, disclosure]
  simp only [if_true, found_setup setup readable matched]

@[simp] theorem isText_str (s t : PyStr) : isText s (.str t) = decide (s = t) := rfl

theorem sameRaw_declared (p : StoredProofOf PyStr) :
    sameRaw (declared p) (declaredRaw (rawTaskOf p)) = true := by
  simp [sameRaw, declaredRaw, rawTaskOf, declared]

theorem rawFinding_dump (h : List Event) (p : StoredProofOf PyStr) :
    rawFinding s.lib s.world h (rawTaskOf p) =
      if (recomputed p).1 = (declared p).1 then
        some (finding sameRaw (recomputed p) (declaredRaw (rawTaskOf p))
          ((consulted s.lib s.world h (namedSystem p) (namedTask p)).map committed))
      else some .mismatch := by
  by_cases equal :
    raw (contentHash p.proofData.task.invocation) = p.proofData.task.invocationHash <;>
    simp [rawFinding, rawTaskOf, recomputed, declared, equal]

theorem rawRuled_setup (setup : Setup s systemId taskId p.dump sketch)
    (readable : sketch.Readable s.lib) (matched : Matches p systemId taskId sketch) :
    s.rawRuled none none = some (p.dump, rawTaskOf p, .confirmed) := by
  obtain ⟨r, replied, disclosed⟩ := setup.agent s.verifier
  obtain ⟨commit, held, record⟩ := consulted_setup setup readable (s.history s.verifier)
  have id : s.registeredId = some s.first.2 := by
    rw [Setting.registeredId, setup.registered, Option.map_some]
    exact Option.filter_eq_some_iff.mpr ⟨rfl, decide_eq_true setup.identified⟩
  have disclosure := rawDisclosed_of_reply replied disclosed
  have found : rawFinding s.lib s.world (s.history s.verifier) (rawTaskOf p) =
      some .confirmed := by
    rw [rawFinding_dump, matched.content, if_pos rfl, matched.systemId, namedTask, matched.taskId,
      held, Option.map_some, record, ← matched.sketch]
    simp [finding, recordFinding, sameRaw_declared]
  have plain_ : unexpected s.lib none none (rawTaskOf p) = false := rfl
  unfold Setting.rawRuled
  rw [id, disclosure]
  simp only [found, Option.map_some, plain_, Finding.expecting_false]

theorem challenge_verified (setup : Setup s systemId taskId v sketch)
    (readable : sketch.Readable s.lib) (matched : Matches p systemId taskId sketch)
    (valid_ : StoredProofOf.validate s.lib v = some p) (assessorTaskId : Option PyStr) :
    ∃ m log now, s.challenge true assessorTaskId = ⟨.ok (p, true, m), log⟩ ∧ assessments log =
      [s.assessment (raw systemId) (text taskId) assessorTaskId now .verified] := by
  obtain ⟨m, log, now, run, submitted⟩ :=
    challenge_of_ruled (ruled_setup setup readable matched valid_) assessorTaskId
  refine ⟨m, log, now, run, ?_⟩
  rw [submitted, matched.systemId, namedTask, matched.taskId]
  rfl

theorem challengeAndVerify_verified (setup : Setup s systemId taskId p.dump sketch)
    (readable : sketch.Readable s.lib) (matched : Matches p systemId taskId sketch) :
    ∃ m log now, s.challengeAndVerify none none = ⟨.ok (p.dump, true, m), log⟩ ∧
      assessments log = [s.assessment (raw systemId) (text taskId) none now .verified] := by
  obtain ⟨m, log, now, run, submitted⟩ :=
    challengeAndVerify_of_ruled (rawRuled_setup setup readable matched)
  have task : text taskId = namedTask p := by
    rw [namedTask, matched.taskId]
    rfl
  refine ⟨m, log, now, run, ?_⟩
  rw [submitted, ← matched.systemId, task]
  rfl

end Confirmation

section Completeness

variable {lib : Library} {systemId taskId : Text} {t : Completed} {c : ATPClient}
  {expiresAt : DateTime}

theorem readable_storedProof (documented : Documented lib) (honest : Honest lib systemId taskId t)
    (utc : expiresAt.offset = some utcOffset) : (t.storedProof expiresAt).Readable lib where
  dependencies := honest.dependencies
  timestamp := documented.reads t.now
  createdAt := documented.reads t.now
  expiresAt := by
    have shape : expiresAt = utcAt expiresAt.wall := DateTime.ext rfl utc
    rw [Completed.storedProof, shape]
    exact documented.reads _

theorem readable_completed (documented : Documented lib) (honest : Honest lib systemId taskId t) :
    (c.completed systemId t.sketch).Readable lib where
  dependencies := honest.dependencies
  timestamp := documented.reads t.now

theorem matches_storedProof (honest : Honest lib systemId taskId t) (nonempty : systemId ≠ [])
    (single : '/' ∉ systemId) :
    Matches (t.storedProof expiresAt).python systemId taskId (c.completed systemId t.sketch) where
  systemId := by
    obtain ⟨base, uri⟩ := honest.systemUri
    have split : t.systemUri = (base ++ "/systems".toList) ++ '/' :: systemId := by
      rw [uri]
      simp
    change trailingSegment (ofChar '/') (raw t.systemUri) = raw systemId
    rw [split, raw, trailingSegment_map ofChar_injective, trailingSegment_append nonempty single]
    rfl
  taskId := congrArg raw honest.taskId
  content := rfl
  sketch := rfl

/-- An honest agent is verified by both verifiers: what a completed task stores is
disclosed unchanged until it expires, as far as it can be dumped, and against the sketch it
committed every check passes and the one assessment submitted is `verified`. -/
theorem honest_agent_verified (documented : Documented lib) (nonempty : systemId ≠ [])
    (single : '/' ∉ systemId) {log : List Event} (produced : Produced lib systemId taskId log) :
    ∃ p sketch proofHash, log = [.clock, .save p, .send (postRequest "/api/v1/commit"
        (commitPayload systemId taskId sketch proofHash))] ∧
      ∀ now r, ReadBack lib p now r → (utcAt now).instant ≤ p.expiresAt.instant →
        lib.dumpable p.dump → ∃ v, onChallenge lib taskId r = .ok v ∧
          ∀ s : Setting, s.lib = lib → Setup s systemId taskId v sketch → ∀ assessorTaskId,
            (∃ m log now, s.challenge true assessorTaskId = ⟨.ok (p.python, true, m), log⟩ ∧
              assessments log =
                [s.assessment (raw systemId) (text taskId) assessorTaskId now .verified]) ∧
            (∃ m log now, s.challengeAndVerify none none = ⟨.ok (v, true, m), log⟩ ∧
              assessments log =
                [s.assessment (raw systemId) (text taskId) none now .verified]) := by
  obtain ⟨t, c, expiresAt, proofHash, honest, utc, events⟩ := completes_of_produced produced
  have stored := readable_storedProof documented honest utc
  have carried : plain ((t.storedProof expiresAt).dump) :=
    plain_storedProof honest.invocation honest.outcome
  have matched :
      Matches (t.storedProof expiresAt).python systemId taskId (c.completed systemId t.sketch) :=
    matches_storedProof honest nonempty single
  refine ⟨t.storedProof expiresAt, c.completed systemId t.sketch, proofHash, ?_, ?_⟩
  · rw [events, Publication.events, honest.taskId]
  · intro now r readBack timely dumpable
    refine ⟨(t.storedProof expiresAt).dump,
      onChallenge_readBack documented readBack stored carried utc timely dumpable taskId, ?_⟩
    rintro s rfl setup assessorTaskId
    have readable := readable_completed (c := c) documented honest
    have validated := StoredProofOf.validate_python stored
    rw [← StoredProofOf.dump_python] at setup ⊢
    exact ⟨challenge_verified setup readable matched
      ((congrArg _ (StoredProofOf.dump_python _)).trans validated) assessorTaskId,
      challengeAndVerify_verified setup readable matched⟩

end Completeness

section Sample

def sampleClient : ATPClient where
  config := ⟨"https://x".toList, 3600⟩
  registeredSystems := ⟨[("me".toList, "v".toList)], by decide⟩
  systemUris := Dict.empty
  systemTypes := Dict.empty

def answer (statusCode : Nat) (body : JsonValue) : Response :=
  ⟨statusCode, raw (dumps body), .ok body⟩

def onePm : DateTime := utcAt (january 13)

def sampleWorld (disclosure : JsonValue) (commit : Except Exc Response) : World where
  reply := fun _ r =>
    match r.party with
    | .agent => .ok (answer 200 (record [("jsonrpc", .str (lit "2.0")), ("result", disclosure),
        ("id", .int 1)]))
    | .exchange =>
      if r.url = (commitRequest (lit "s") (raw sampleTask.str)).url then commit
      else .error (foreign .requestError)
  save := fun _ _ => .ok ()
  now := fun _ => noon.wall

def sampleSetting (lib : Library) (taskId : PyStr) (disclosure : JsonValue)
    (commit : Except Exc Response) : Setting where
  lib := lib
  client := sampleClient
  world := sampleWorld disclosure commit
  agentUrl := lit "https://agent"
  taskId := taskId

def commitData (sketch : ProofSketch) (status : CommitStatus) : JsonValue := record
  [("id", text sampleId.str), ("system_id", text "s".toList), ("task_id", text sampleTask.str),
   ("proof_sketch", sketch.dump), ("status", .str (lit status.value)),
   ("created_at", date sketch.timestamp)]

theorem commitData_reply (sketch : ProofSketch) (status : CommitStatus) :
    CommitReply (commitData sketch status) sketch status where
  proofSketch := by simp [commitData]
  id := ⟨sampleId, by simp [commitData]⟩
  systemId := ⟨"s".toList, by simp [commitData]⟩
  organizationId := ⟨none, by simp [commitData, opt]⟩
  taskId := ⟨sampleTask, by simp [commitData]⟩
  status := by simp [commitData]
  catalogedAt := ⟨none, by simp [commitData, opt]⟩
  createdAt := ⟨sketch.timestamp, by simp [commitData]⟩
  confirmedAt := ⟨none, by simp [commitData, opt]⟩
  texts := by
    intro k hk
    refine ⟨none, ?_⟩
    simp only [List.mem_cons, List.not_mem_nil, or_false] at hk
    rcases hk with rfl | rfl | rfl | rfl | rfl | rfl <;> simp [commitData, opt]
  lists := by
    intro k hk
    refine ⟨none, ?_⟩
    simp only [List.mem_cons, List.not_mem_nil, or_false] at hk
    rcases hk with rfl | rfl <;> simp [commitData, opt]

theorem sampleWorld_commit (disclosure : JsonValue) (commit : Except Exc Response)
    (h : List Event) : (sampleWorld disclosure commit).reply h
      (commitRequest (raw "s".toList) (raw sampleTask.str)) = commit := by
  change (if (commitRequest (lit "s") (raw sampleTask.str)).url =
    (commitRequest (lit "s") (raw sampleTask.str)).url then commit
    else .error (foreign .requestError)) = commit
  exact if_pos rfl

theorem sampleSetting_agent (lib : Library) (taskId : PyStr) (disclosure : JsonValue)
    (commit : Except Exc Response) (challenger : JsonValue) :
    ∃ r, (sampleSetting lib taskId disclosure commit).reply challenger = .ok r ∧
      Discloses r disclosure :=
  ⟨_, rfl, rfl, _, rfl, by simp, by simp⟩

theorem sampleSetup {lib : Library} (taskId : PyStr) (disclosure : JsonValue)
    (sketch : ProofSketch) :
    Setup (sampleSetting lib taskId disclosure (.ok (answer 200 (commitData sketch .confirmed))))
      "s".toList sampleTask.str disclosure sketch where
  registered := rfl
  identified := by
    change "v".toList ≠ []
    decide
  agent := sampleSetting_agent _ _ _ _
  exchange := fun h => ⟨answer 200 (commitData sketch .confirmed), commitData sketch .confirmed,
    sampleWorld_commit _ _ h, rfl, rfl, commitData_reply sketch .confirmed⟩

def sampleArtifacts : JsonValue := record [("n", .int 1)]

def sampleTaskDone : Completed where
  systemUri := "https://x/systems/s".toList
  systemType := "agent".toList
  taskId := sampleTask.str
  invocation := invocationOf (lit "2+2?")
  outcome := outcomeOf (lit "4") (some sampleArtifacts)
  dependencies := []
  dependenciesHash := hashPrefix ++ sha256 "[]".toList
  classification := defaultClassification
  now := noon.wall

def sampleAdapter : MinimalAdapter where
  config := sampleClient.config
  client := sampleClient
  systemId := some "s".toList
  systemUri := none

def acceptance : Response := answer 201 (record
  [("commit_id", text sampleId.str), ("system_id", text "s".toList),
   ("task_id", text sampleTask.str), ("status", text "confirmed".toList),
   ("created_at", date onePm), ("message", text "cataloged".toList)])

def acceptingWorld : World where
  reply := fun _ _ => .ok acceptance
  save := fun _ _ => .ok ()
  now := fun _ => noon.wall

theorem acceptance_accepted : ∃ r, (acceptedBody acceptance .commitError
    "Commit creation failed with status " >>= CommitResponse.ofData) = .ok r := by
  have body : acceptedBody acceptance .commitError "Commit creation failed with status " =
    .ok (record _) := rfl
  rw [body, bind_ok]
  simp [CommitResponse.ofData, isoField_date, valid, optionalIso, truthy, nullable]

theorem expiry_noon : expiry noon.wall 3600 = .ok onePm := by
  have later : noon.wall.micros + 3600 * 1000000 = (onePm.wall.micros : Int) := by decide
  rw [expiry, later, Wall.ofMicros_micros]
  rfl

theorem sampleAdapter_publishes (artifacts : Option JsonValue) :
    ∃ result proofHash, (sampleAdapter.onTaskComplete sampleTask.str (lit "2+2?")
      (lit "4") artifacts none).run acceptingWorld [] = ⟨.ok result,
        .clock :: events { sampleTaskDone with outcome := outcomeOf (lit "4") artifacts }
          sampleClient "s".toList onePm proofHash⟩ := by
  obtain ⟨response, accepted⟩ := acceptance_accepted
  obtain ⟨proofHash, published⟩ := publish_succeeds (w := acceptingWorld) (h := [.clock])
    { sampleTaskDone with outcome := outcomeOf (lit "4") artifacts } sampleClient "s".toList
    expiry_noon rfl (fun _ _ => rfl) accepted
  refine ⟨⟨sampleTask.str, response.commitId, response.status⟩, proofHash,
    (run_bind_eq_ok _ _).mpr ⟨noon.wall, [.clock], rfl, ?_⟩⟩
  refine (run_bind_eq_ok _ _).mpr ⟨sampleTaskDone.dependenciesHash, [.clock], rfl, ?_⟩
  exact (run_bind_eq_ok _ _).mpr ⟨response, _, published, rfl⟩

theorem sampleAdapter_completes :
    ∃ result proofHash, (sampleAdapter.onTaskComplete sampleTask.str (lit "2+2?")
      (lit "4") (some sampleArtifacts) none).run acceptingWorld [] = ⟨.ok result,
        .clock :: events sampleTaskDone sampleClient "s".toList onePm proofHash⟩ :=
  sampleAdapter_publishes (some sampleArtifacts)

theorem sampleAdapter_produced : ∃ proofHash, Produced textLibrary "s".toList sampleTask.str
    (.clock :: events sampleTaskDone sampleClient "s".toList onePm proofHash) := by
  obtain ⟨result, proofHash, run⟩ := sampleAdapter_completes
  refine ⟨proofHash, .adapter rfl (by simp [sampleAdapter]) ?_ run⟩
  simp only [Option.mem_some_iff, forall_eq']
  exact ⟨rfl, plain_record (by simp) (by simp; rfl)⟩

def agentClient : ATPClient :=
  { sampleClient with registeredSystems := ⟨[("me".toList, "s".toList)], by decide⟩ }

def dependencyAt (evaluatedAt : DateTime) : Dependency where
  systemUri := some "https://y/systems/t".toList
  taskId := "t".toList
  challengeUrl := none
  evaluations := [⟨"quality".toList, none, "passed".toList, evaluatedAt⟩]

def contextAt (evaluatedAt : DateTime) : ATPTaskContext where
  config := sampleClient.config
  query := lit "2+2?"
  atpTaskId := sampleTask.str
  response := some (lit "4")
  committed := false
  classification := defaultClassification
  dependencies := [dependencyAt evaluatedAt]

theorem contextAt_commits {evaluatedAt : DateTime} {w : Wall}
    (shifted : evaluatedAt.utcWall = some w) : ∃ hash proofHash,
      ((contextAt evaluatedAt).commit agentClient).run acceptingWorld [] =
        ⟨.ok { contextAt evaluatedAt with committed := true }, .clock :: events
          (contextTask (contextAt evaluatedAt) agentClient "s".toList noon.wall hash) agentClient
          "s".toList onePm proofHash⟩ := by
  obtain ⟨hash, hashed⟩ : ∃ hash,
      computeDependenciesHash ([dependencyAt evaluatedAt].map .object) = .ok hash := by
    simp [computeDependenciesHash, dependenciesText, depToCanonical, depEvalToCanonical,
      formatDatetimeRfc3339nano, shifted, dependencyAt, pure, Except.pure, Except.map]
  obtain ⟨response, accepted⟩ := acceptance_accepted
  obtain ⟨proofHash, published⟩ := publish_succeeds (w := acceptingWorld) (h := [.clock])
    (contextTask (contextAt evaluatedAt) agentClient "s".toList noon.wall hash) agentClient
    "s".toList expiry_noon rfl (fun _ _ => rfl) accepted
  refine ⟨hash, proofHash, (run_bind_eq_ok _ _).mpr ⟨noon.wall, [.clock], rfl, ?_⟩⟩
  refine (run_bind_eq_ok _ _).mpr ⟨hash, [.clock], by rw [run_lift, ← hashed]; rfl, ?_⟩
  exact (run_bind_eq_ok _ _).mpr ⟨response, _, published, rfl⟩

theorem contextTask_scalar (evaluatedAt : DateTime) (hash : Text) :
    scalarStrings ((contextTask (contextAt evaluatedAt) agentClient "s".toList noon.wall
      hash).storedProof onePm).dump := by
  have invocation : scalarStrings (.obj (invocationOf (lit "2+2?"))) := by decide
  have outcome : scalarStrings (.obj (outcomeOf (lit "4") none)) := by decide
  exact scalarStrings_storedProof invocation outcome

noncomputable def served (v : JsonValue) (sketch : ProofSketch) : Setting :=
  sampleSetting textLibrary (raw sampleTask.str) v (.ok (answer 200 (commitData sketch .confirmed)))

def Confirmed (v : JsonValue) (sketch : ProofSketch) : Prop :=
  (∃ p m log, (served v sketch).challenge true none = ⟨.ok (p, true, m), log⟩) ∧
    ∃ m log, (served v sketch).challengeAndVerify none none = ⟨.ok (v, true, m), log⟩

/-- The sample proof, read back from a table at noon, and that of a context whose dependency
was evaluated two hours east of UTC, read back from memory, are verified. -/
theorem sampleAgent_verified :
    (∃ saved sketch v, SQLiteProofStore.save textLibrary Dict.empty
        (sampleTaskDone.storedProof onePm) = .ok saved ∧
      onChallenge textLibrary sampleTask.str
        (SQLiteProofStore.get textLibrary saved sampleTask.str noon.wall).1 = .ok v ∧
      Confirmed v sketch) ∧
    ∃ t' p sketch v proofHash, ((contextAt noonEast).commit agentClient).run acceptingWorld [] =
        ⟨.ok t', [.clock, .save p, .send (postRequest "/api/v1/commit"
          (commitPayload "s".toList sampleTask.str sketch proofHash))]⟩ ∧
      onChallenge textLibrary sampleTask.str (InMemoryProofStore.get
        (InMemoryProofStore.save Dict.empty p) p.proofData.task.taskId noon.wall).1 = .ok v ∧
      Confirmed v sketch := by
  constructor
  · obtain ⟨proofHash, produced⟩ := sampleAdapter_produced
    obtain ⟨p, sketch, _, events, verified⟩ := honest_agent_verified textLibrary_documented
      (by decide) (by decide) produced
    obtain rfl : sampleTaskDone.storedProof onePm = p :=
      Event.save.inj (List.cons.inj (List.cons.inj events).2).1
    have scalar : scalarStrings (sampleTaskDone.storedProof onePm).dump :=
      scalarStrings_storedProof (by decide) (by decide)
    have written : SQLiteProofStore.save textLibrary Dict.empty (sampleTaskDone.storedProof onePm) =
      _ := SQLiteProofStore.save_rowOf (rowOf_textLibrary scalar)
    have shallow : (sampleTaskDone.storedProof onePm).dump.depth ≤ textLibrary.nesting := by
      have limit : textLibrary.nesting = 200 := rfl
      rw [limit]
      decide +kernel
    have timely : (utcAt noon.wall).instant ≤ onePm.instant := by decide
    obtain ⟨v, disclosed, both⟩ := verified noon.wall _ (.sqlite written shallow) timely
      ((textLibrary_dumpable _).trans scalar)
    obtain ⟨⟨m, log, _, run, _⟩, m', log', _, run', _⟩ := both (served v sketch) rfl
      (sampleSetup (raw sampleTask.str) v sketch) none
    exact ⟨_, sketch, v, written, disclosed, ⟨_, m, log, run⟩, m', log', run'⟩
  · have shifted : noonEast.utcWall = some (january 12) := by decide
    obtain ⟨hash, proofHash, run⟩ := contextAt_commits shifted
    have readable : ∀ d ∈ [dependencyAt noonEast], d.Readable textLibrary := by
      intro d hd e he
      obtain rfl := List.mem_singleton.mp hd
      obtain rfl := List.mem_singleton.mp he
      exact readsIso_textLibrary.reads _ (by decide)
    obtain ⟨p, sketch, _, events, verified⟩ := honest_agent_verified textLibrary_documented
      (by decide) (by decide)
      (Produced.context rfl rfl rfl (by decide) readable run)
    have saved := Event.save.inj (List.cons.inj (List.cons.inj events).2).1
    have scalar : scalarStrings p.dump := saved ▸ contextTask_scalar noonEast hash
    have timely : (utcAt noon.wall).instant ≤ onePm.instant := by decide
    obtain ⟨v, disclosed, both⟩ := verified noon.wall _ (.inMemory Dict.empty)
      (by rw [← saved]; exact timely) ((textLibrary_dumpable _).trans scalar)
    obtain ⟨⟨m, log, _, verdict, _⟩, m', log', _, verdict', _⟩ := both (served v sketch) rfl
      (sampleSetup (raw sampleTask.str) v sketch) none
    exact ⟨_, p, sketch, v, _, run.trans (congrArg _ events), disclosed, ⟨_, m, log, verdict⟩, m',
      log', verdict'⟩

end Sample

section Refused

variable {lib : Library} {p : StoredProof}

theorem validate_seconds (iso : ReadsIso lib) {d : Dependency}
    (used : d ∈ p.proofData.dependencies) (seconds : ¬ d.MinuteZones) :
    StoredProofOf.validate lib p.dump = (none : Option (StoredProofOf PyStr)) := by
  have dependencies := asList_filtered (DependencyOf.validate_exact iso) p.proofData.dependencies
  rw [if_neg fun whole => seconds (whole d used)] at dependencies
  simp [StoredProofOf.validate, ProofDataOf.validate, StoredProofOf.dump, ProofDataOf.dump,
    required, Models.optional, dependencies]

theorem refused_of_unread {s : Setting} {r : Response} {v : JsonValue}
    (replied : s.reply s.challenger = .ok r) (reply : Discloses r v)
    (unread : StoredProofOf.validate s.lib v = (none : Option (StoredProofOf PyStr)))
    (assessorTaskId : Option PyStr) :
    ∀ q m, (s.challenge true assessorTaskId).result ≠ .ok (q, true, m) := by
  have disclosed : s.disclosed.toOption = none := by
    rw [Setting.disclosed, replied, bind_ok, decodeDisclosure_toOption reply, unread]
  have unruled : s.ruled true = none := by
    unfold Setting.ruled
    cases s.client.firstSystem with
    | none => rfl
    | some first =>
      cases undisclosed : s.disclosed with
      | error e => rfl
      | ok q => simp [undisclosed, Except.toOption] at disclosed
  exact (challenge_silent unruled assessorTaskId).1

def halfMinute : DateTime := ⟨january 12, some ⟨30000000, by decide⟩⟩

def surrogate : PyStr := [⟨0xDFFF, by decide⟩]

def surrogateKey : JsonValue := .obj [(surrogate, .int 1)]

def nested : Nat → JsonValue
  | 0 => .null
  | n + 1 => .arr [nested n]

theorem nested_depth (n : Nat) : (nested n).depth = n := by
  induction n with
  | zero => rfl
  | succ n ih => rw [nested, depth_arr]; simp [ih]

theorem nested_scalar (n : Nat) : scalarStrings (nested n) := by
  induction n with
  | zero => rfl
  | succ n ih => simpa [nested, scalarStrings] using ih

/-- What passes from every record to its fields passes from a dumped proof to its outcome. -/
theorem outcome_of_dump {P : JsonValue → Prop}
    (down : ∀ fields k v, (k, v) ∈ fields → P (record fields) → P v) (h : P p.dump) :
    P (.obj p.proofData.task.outcome) := by
  have data : P p.proofData.dump := down _ "proof_data" _ (by simp) h
  have task : P p.proofData.task.dump := down _ "task" _ (by simp) data
  exact down _ "outcome" _ (by simp) task

theorem mem_record {fields : List (String × JsonValue)} {k : String} {v : JsonValue}
    (h : (k, v) ∈ fields) : (lit k, v) ∈ fields.map fun p => (lit p.1, p.2) :=
  List.mem_map.mpr ⟨(k, v), h, rfl⟩

theorem outcome_scalar (scalar : scalarStrings p.dump) :
    scalarStrings (.obj p.proofData.task.outcome) := by
  refine outcome_of_dump (P := fun v => scalarStrings v = true) ?_ scalar
  intro fields k v h scalar
  rw [scalarStrings, record, stringsAll_obj, List.all_eq_true] at scalar
  exact (Bool.and_eq_true_iff.mp (scalar _ (mem_record h))).2

theorem outcome_depth {n : Nat} (shallow : p.dump.depth ≤ n) :
    (Json.obj p.proofData.task.outcome).depth ≤ n :=
  outcome_of_dump (P := fun v => v.depth ≤ n)
    (fun _ _ _ h shallow => (depth_lt_obj (mem_record h)).le.trans shallow) shallow

theorem noon_timely : (utcAt noon.wall).instant ≤ onePm.instant := by decide

def proofWith (artifacts : JsonValue) : StoredProof :=
  { sampleTaskDone with outcome := outcomeOf (lit "4") (some artifacts) : Completed }.storedProof
    onePm

theorem mem_outcomeOf (artifacts : JsonValue) :
    (lit "artifacts", artifacts) ∈ outcomeOf (lit "4") (some artifacts) := by
  simp [outcomeOf]

theorem proofWith_unencodable {artifacts : JsonValue} (hidden : ¬ scalarStrings artifacts) :
    ¬ scalarStrings (proofWith artifacts).dump := by
  intro scalar
  have outcome := outcome_scalar scalar
  rw [scalarStrings, stringsAll_obj, List.all_eq_true] at outcome
  exact hidden (Bool.and_eq_true_iff.mp (outcome _ (mem_outcomeOf artifacts))).2

theorem proofWith_depth (artifacts : JsonValue) :
    artifacts.depth < (proofWith artifacts).dump.depth :=
  (depth_lt_obj (mem_outcomeOf artifacts)).trans_le
    (outcome_depth (p := proofWith artifacts) (le_refl _))

theorem proofWith_scalar {artifacts : JsonValue} (value : scalarStrings artifacts) :
    scalarStrings (proofWith artifacts).dump := by
  have invocation : scalarStrings (.obj (invocationOf (lit "2+2?"))) := by decide
  have answer : scalarStrings (record [("text", .str (lit "4"))]) :=
    scalarStrings_record (by simp)
  have outcome : scalarStrings (record [("response", record [("text", .str (lit "4"))]),
      ("status", .str (lit "success")), ("actions", .arr []), ("error", .null),
      ("artifacts", artifacts)]) :=
    scalarStrings_record (by simp [value, answer]; rfl)
  exact scalarStrings_storedProof invocation outcome

def deepArtifacts (n : Nat) : JsonValue := record [("a", nested n)]

theorem deepArtifacts_depth (n : Nat) : n < (deepArtifacts n).depth := by
  have inner : (nested n).depth < (deepArtifacts n).depth :=
    depth_lt_obj (mem_record (List.mem_singleton_self ("a", nested n)))
  rwa [nested_depth] at inner

theorem deepArtifacts_scalar (n : Nat) : scalarStrings (deepArtifacts n) :=
  scalarStrings_record (by simpa using nested_scalar n)

theorem get_proofWith_deep {artifacts : JsonValue} (value : scalarStrings artifacts)
    (deep : textLibrary.nesting < artifacts.depth) : ∃ saved,
      SQLiteProofStore.save textLibrary Dict.empty (proofWith artifacts) = .ok saved ∧
        SQLiteProofStore.get textLibrary saved (proofWith artifacts).proofData.task.taskId
          noon.wall = (.error (SQLiteProofStore.failed (foreign .valueError)), saved) := by
  have scalar := proofWith_scalar value
  have written : SQLiteProofStore.save textLibrary Dict.empty (proofWith artifacts) = _ :=
    SQLiteProofStore.save_rowOf (rowOf_textLibrary scalar)
  have unread := textLibrary_parseJson_deep (textLibrary_dumpJson scalar)
    (deep.trans (proofWith_depth artifacts))
  have timely : ¬ (proofWith artifacts).expiresAt.instant < noon.wall.micros :=
    not_late (p := proofWith artifacts) noon_timely
  refine ⟨_, written, ?_⟩
  rw [SQLiteProofStore.get_of_row (Dict.get_set_self _ _ _)
    (SQLiteProofStore.rowExpiry_isoformat (by rfl) _) (by rfl), readBack_of_utc rfl,
    if_neg timely, SQLiteProofStore.decodeRow, unread]
  rfl

/-- Honest agents that are not verified: a context with a dependency evaluated in a zone with
seconds, artifacts with a key that cannot be dumped, and artifacts nested deeper than the JSON
of a row is read. -/
theorem honest_agents_refused :
    (∃ t' p sketch v proofHash, ((contextAt halfMinute).commit agentClient).run acceptingWorld [] =
        ⟨.ok t', [.clock, .save p, .send (postRequest "/api/v1/commit"
          (commitPayload "s".toList sampleTask.str sketch proofHash))]⟩ ∧
      onChallenge textLibrary sampleTask.str (InMemoryProofStore.get
        (InMemoryProofStore.save Dict.empty p) p.proofData.task.taskId noon.wall).1 = .ok v ∧
      Setup (served v sketch) "s".toList sampleTask.str v sketch ∧
      ∀ q m, ((served v sketch).challenge true none).result ≠ .ok (q, true, m)) ∧
    (∃ result p log, (sampleAdapter.onTaskComplete sampleTask.str (lit "2+2?") (lit "4")
        (some surrogateKey) none).run acceptingWorld [] = ⟨.ok result, .clock :: .save p :: log⟩ ∧
      ∀ v, onChallenge textLibrary sampleTask.str (InMemoryProofStore.get
        (InMemoryProofStore.save Dict.empty p) p.proofData.task.taskId noon.wall).1 ≠ .ok v) ∧
    ∃ result p log saved, (sampleAdapter.onTaskComplete sampleTask.str (lit "2+2?") (lit "4")
        (some (deepArtifacts textLibrary.nesting)) none).run acceptingWorld [] =
          ⟨.ok result, .clock :: .save p :: log⟩ ∧
      SQLiteProofStore.save textLibrary Dict.empty p = .ok saved ∧
      ∀ v, onChallenge textLibrary sampleTask.str
        (SQLiteProofStore.get textLibrary saved p.proofData.task.taskId noon.wall).1 ≠ .ok v := by
  refine ⟨?_, ?_, ?_⟩
  · have shifted : halfMinute.utcWall = some ⟨⟨2024, 1, 31, by decide, by decide, by decide⟩,
        Time.ofMicros (12 * 3600000000 - 30000000)⟩ := by decide
    obtain ⟨hash, proofHash, run⟩ := contextAt_commits shifted
    set t := contextTask (contextAt halfMinute) agentClient "s".toList noon.wall hash
    have stored := inMemory_get (p := t.storedProof onePm) Dict.empty rfl noon_timely
    have scalar : scalarStrings (t.storedProof onePm).dump := contextTask_scalar halfMinute hash
    have unread := validate_seconds (p := t.storedProof onePm) readsIso_textLibrary
      (List.mem_singleton_self (dependencyAt halfMinute)) (by decide)
    obtain ⟨r, replied, reply⟩ := sampleSetting_agent textLibrary (raw sampleTask.str)
      (t.storedProof onePm).dump (.ok (answer 200 (commitData _ .confirmed))) _
    refine ⟨_, _, _, (t.storedProof onePm).dump, proofHash, run, ?_, sampleSetup _ _ _,
      refused_of_unread replied reply unread none⟩
    rw [stored]
    exact if_pos ((textLibrary_dumpable _).trans scalar)
  · obtain ⟨result, proofHash, run⟩ := sampleAdapter_publishes (some surrogateKey)
    have stored := inMemory_get (p := proofWith surrogateKey) Dict.empty rfl noon_timely
    refine ⟨result, proofWith surrogateKey, _, run, fun v => ?_⟩
    have hidden : ¬ scalarStrings surrogateKey := by decide
    have undumpable : textLibrary.dumpable (proofWith surrogateKey).dump = false := by
      rw [textLibrary_dumpable, Bool.eq_false_iff]
      exact proofWith_unencodable hidden
    rw [stored]
    simp [onChallenge, undumpable]
  · generalize deep : deepArtifacts textLibrary.nesting = artifacts
    have scalar : scalarStrings artifacts := deep ▸ deepArtifacts_scalar _
    have deeper : textLibrary.nesting < artifacts.depth := deep ▸ deepArtifacts_depth _
    obtain ⟨result, proofHash, run⟩ := sampleAdapter_publishes (some artifacts)
    obtain ⟨saved, written, unread⟩ := get_proofWith_deep scalar deeper
    refine ⟨result, proofWith artifacts, _, saved, run, written, fun v => ?_⟩
    rw [unread]
    exact fun returned => nomatch returned

end Refused

end AgentTrust.HonestAgent
