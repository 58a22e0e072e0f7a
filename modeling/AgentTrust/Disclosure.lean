import AgentTrust.Verifier
import AgentTrust.CommitReveal

/-! Runs of `ATPClient.challenge`, reduced to the finding of its check of the disclosed
proof against the committed sketch: the verdict is whether the finding is `confirmed`,
and the assessment submitted is the hasty ruling on it. -/

namespace AgentTrust.Disclosure

open JsonTree JsonTree.Json PyText PyJson Gregorian PyDateTime OrderedDict PyValue Models Hashing
  Effects Exchange Client Tasks Verifier CommitReveal
open Effects.Run hiding pure bind

section Reports

def submission : Event → Option JsonValue
  | .send r =>
    if r.party = .exchange ∧ r.method = .post ∧ r.url = lit "/api/v1/assess" then r.json else none
  | .save _ => none
  | .clock => none

def assessments (log : List Event) : List JsonValue := log.filterMap submission

@[simp] theorem assessments_append (a b : List Event) :
    assessments (a ++ b) = assessments a ++ assessments b := List.filterMap_append

@[simp] theorem assessments_get {r : Request} (get : r.method = .get) :
    assessments [.send r] = [] := by
  simp [assessments, submission, get]

@[simp] theorem assessments_agent {r : Request} (agent : r.party = .agent) :
    assessments [.send r] = [] := by
  simp [assessments, submission, agent]

@[simp] theorem assessments_assess (payload : JsonValue) :
    assessments [.clock, .send (postRequest "/api/v1/assess" payload)] = [payload] := by
  simp [assessments, submission, postRequest, List.filterMap_cons]

variable {c : ATPClient} {first : Text × Text} {w : World} {h : List Event}

theorem reportAssessment_log (registered : c.firstSystem = some first)
    (systemId : PyStr) (taskId : JsonValue) (dimension : AssessmentDimension) (verdict : PyStr)
    (at_ : DateTime) (assessorTaskId : Option PyStr) :
    ((reportAssessment c systemId taskId dimension verdict at_ assessorTaskId).run w h).log =
      h ++ [.send (postRequest "/api/v1/assess"
        (assessPayload first.2 systemId taskId dimension verdict at_ assessorTaskId))] := by
  unfold reportAssessment
  rw [registered]
  dsimp only
  rw [log_attempt w h, log_bind w h]
  · rfl
  · intro a l
    rfl
  · intro e l
    split <;> rfl

theorem reportIntegrity_run (registered : c.firstSystem = some first) (systemId : PyStr)
    (taskId : JsonValue) (verdict : IntegrityAssessment) (assessorTaskId : Option PyStr) :
    ∃ log, (reportIntegrity c systemId taskId verdict assessorTaskId).run w h = ⟨.ok (), log⟩ ∧
      assessments log = assessments h ++ [assessPayload first.2 systemId taskId .integrity
        (lit verdict.value) (utcAt (w.now h)) assessorTaskId] := by
  have log := reportAssessment_log (w := w) (h := h ++ [.clock]) registered systemId taskId
    .integrity (lit verdict.value) (utcAt (w.now h)) assessorTaskId
  rw [List.append_assoc] at log
  refine ⟨h ++ ([.clock] ++ [.send (postRequest "/api/v1/assess" (assessPayload first.2 systemId
    taskId .integrity (lit verdict.value) (utcAt (w.now h)) assessorTaskId))]), ?_, ?_⟩
  · unfold reportIntegrity utcNow
    rw [run_attempt]
    simp only [run_bind, run_perform, next_ok]
    cases result : ((reportAssessment c systemId taskId .integrity (lit verdict.value)
        (utcAt (w.now h)) assessorTaskId).run w (h ++ [.clock])).result with
    | ok a => simp only [next, result, run_pure, log]
    | error e => simp only [next, result, run_pure, log]
  · rw [assessments_append]
    exact congrArg _ (assessments_assess _)

end Reports

section Queries

variable {w : World} {h : List Event}

/-- The commit that the Exchange answers with, if it answers with one. -/
def consulted (lib : Library) (w : World) (h : List Event) (systemId : PyStr) (taskId : JsonValue) :
    Option Commit :=
  let taskId := pyStr lib.reprContainer taskId
  (w.reply h (commitRequest systemId taskId) >>= decodeCommit lib systemId taskId).toOption

theorem getCommit_result (lib : Library) (systemId : PyStr) (taskId : JsonValue) :
    ((getCommitBySystemAndTask lib systemId taskId).run w h).result.toOption =
      consulted lib w h systemId taskId := by
  rw [getCommitBySystemAndTask, translated_result, run_bind, consulted]
  cases reply : w.reply h (commitRequest systemId (pyStr lib.reprContainer taskId)) with
  | ok r => simp only [send, run_perform, reply, next_ok, run_lift, bind_ok]
  | error e => simp only [send, run_perform, reply, next_error, bind_error]

theorem getCommit_log (lib : Library) (systemId : PyStr) (taskId : JsonValue) :
    ((getCommitBySystemAndTask lib systemId taskId).run w h).log =
      h ++ [.send (commitRequest systemId (pyStr lib.reprContainer taskId))] := by
  rw [getCommitBySystemAndTask, translated_log, log_bind]
  · rfl
  · intro r l
    rfl

end Queries

section Verify

variable {w : World} {h : List Event}

def recomputed (p : StoredProofOf PyStr) : PyStr × PyStr :=
  (raw (contentHash p.proofData.task.invocation), raw (contentHash p.proofData.task.outcome))

def declared (p : StoredProofOf PyStr) : PyStr × PyStr :=
  (p.proofData.task.invocationHash, p.proofData.task.outcomeHash)

/-- The digests of a committed sketch, and whether its status is `confirmed`. -/
def committed (commit : Commit) : Record (PyStr × PyStr) where
  digest := (commit.proofSketch.cryptography.invocationHash,
    commit.proofSketch.cryptography.outcomeHash)
  confirmed := commit.status = .confirmed

def same (a b : PyStr × PyStr) : Bool := a = b

abbrev namedSystem (p : StoredProofOf PyStr) : PyStr := systemIdOf p.proofData.task.systemUri

abbrev namedTask (p : StoredProofOf PyStr) : JsonValue := .str p.proofData.task.taskId

def findingOf (lib : Library) (w : World) (h : List Event) (p : StoredProofOf PyStr) : Finding :=
  finding same (recomputed p) (declared p)
    ((consulted lib w h (namedSystem p) (namedTask p)).map committed)

theorem status_value (s : CommitStatus) : s.value = "confirmed" ↔ s = .confirmed := by
  cases s <;> simp [CommitStatus.value]

theorem compareWithExchange_log (lib : Library) (p : StoredProofOf PyStr) :
    ((compareWithExchange lib p).run w h).log =
      h ++ [.send (commitRequest (namedSystem p) p.proofData.task.taskId)] := by
  unfold compareWithExchange
  rw [log_attempt w h fun _ _ => rfl, log_bind w h]
  · exact getCommit_log lib _ _
  · intro commit l
    split
    · rfl
    · split <;> rfl

theorem compareWithExchange_result (lib : Library) (p : StoredProofOf PyStr) :
    match consulted lib w h (namedSystem p) (namedTask p) with
    | none => ∃ m, ((compareWithExchange lib p).run w h).result = .ok (.error (p, false, m))
    | some commit =>
      if same (committed commit).digest (declared p) then
        ((compareWithExchange lib p).run w h).result = .ok (.ok commit)
      else ∃ m, ((compareWithExchange lib p).run w h).result = .ok (.error (p, false, m)) := by
  rw [← getCommit_result]
  unfold compareWithExchange
  cases query : ((getCommitBySystemAndTask lib (namedSystem p) (namedTask p)).run w h).result with
  | error e =>
    refine ⟨msg "Failed to verify with ATP Exchange: " ++ e.text, ?_⟩
    rw [run_attempt_error w h (e := e)]
    · rfl
    · rw [run_bind_error w h query]
  | ok commit =>
    simp only [Except.toOption, same, committed, declared, decide_eq_true_eq, Prod.mk.injEq]
    rw [run_attempt, run_bind_ok w h query]
    by_cases invocation :
      commit.proofSketch.cryptography.invocationHash = p.proofData.task.invocationHash
    · by_cases outcome : commit.proofSketch.cryptography.outcomeHash = p.proofData.task.outcomeHash
      · simp [invocation, outcome]
      · simp [invocation, outcome]
    · simp [invocation]

theorem findingOf_mismatch {lib : Library} {p : StoredProofOf PyStr}
    (differ : recomputed p ≠ declared p) : findingOf lib w h p = .mismatch := by
  simp [findingOf, finding, same, differ]

theorem findingOf_matched {lib : Library} {p : StoredProofOf PyStr}
    (equal : recomputed p = declared p) :
    findingOf lib w h p = recordFinding same (declared p)
      ((consulted lib w h (namedSystem p) (namedTask p)).map committed) := by
  have agree : same (recomputed p) (declared p) = true := decide_eq_true equal
  rw [findingOf, finding, if_pos agree]

@[simp] theorem committed_confirmed (commit : Commit) :
    (committed commit).confirmed = decide (commit.status.value = "confirmed") := by
  simp [committed, status_value]

theorem verify_matched (lib : Library) {p : StoredProofOf PyStr}
    (equal : recomputed p = declared p) :
    ∃ m, ((verify lib p).run w h) =
      ⟨.ok (p, decide (findingOf lib w h p = .confirmed), m),
        h ++ [.send (commitRequest (namedSystem p) p.proofData.task.taskId)]⟩ := by
  obtain ⟨invocation, outcome⟩ := Prod.mk.inj equal
  have step2 := compareWithExchange_result (w := w) (h := h) lib p
  have log := compareWithExchange_log (w := w) (h := h) lib p
  unfold verify
  simp only [hashWithPrefix_obj, run_bind, run_lift, next_ok, invocation, outcome, ne_eq,
    not_true, if_false, findingOf_matched equal]
  cases query : consulted lib w h (namedSystem p) (namedTask p) with
  | none =>
    obtain ⟨m, failed⟩ : ∃ m, ((compareWithExchange lib p).run w h).result =
        .ok (.error (p, false, m)) := by simpa only [query] using step2
    exact ⟨m, by simp [next, failed, log, recordFinding]⟩
  | some commit =>
    simp only [query] at step2
    split at step2
    · next agree =>
      by_cases final : commit.status.value = "confirmed"
      · exact ⟨msg "✅ Verified and confirmed", by
          simp [next, step2, log, recordFinding, agree, final]⟩
      · exact ⟨msg "Commit in unexpected state: " ++ msg commit.status.value, by
          simp [next, step2, log, recordFinding, agree, final]⟩
    · next differ =>
      obtain ⟨m, failed⟩ := step2
      exact ⟨m, by simp [next, failed, log, recordFinding, differ]⟩

theorem verify_run (lib : Library) (w : World) (h : List Event) (p : StoredProofOf PyStr) :
    ∃ m log, (verify lib p).run w h =
        ⟨.ok (p, decide (findingOf lib w h p = .confirmed), m), log⟩ ∧
      assessments log = assessments h := by
  by_cases equal : recomputed p = declared p
  · obtain ⟨m, run⟩ := verify_matched (w := w) (h := h) lib equal
    have get : assessments [.send (commitRequest (namedSystem p) p.proofData.task.taskId)] =
        [] := assessments_get rfl
    exact ⟨m, _, run, by rw [assessments_append, get, List.append_nil]⟩
  · rw [findingOf_mismatch equal]
    unfold verify
    simp only [hashWithPrefix_obj, run_bind, run_lift, next_ok]
    by_cases invocation :
      raw (contentHash p.proofData.task.invocation) = p.proofData.task.invocationHash
    · have outcome : raw (contentHash p.proofData.task.outcome) ≠ p.proofData.task.outcomeHash :=
        fun outcome => equal (Prod.ext invocation outcome)
      exact ⟨msg "Proof outcome hash mismatch (proof is invalid)", h,
        by simp [invocation, outcome], rfl⟩
    · exact ⟨msg "Proof invocation hash mismatch (proof is invalid)", h, by simp [invocation], rfl⟩

end Verify

section Settings

/-- The arguments of a challenge and the surroundings it runs in. -/
structure Setting where
  lib : Library
  client : ATPClient
  world : World
  agentUrl : PyStr
  taskId : PyStr

def identityAt (w : World) (exchangeUrl systemId fallback : Text) : JsonValue :=
  match ((getSystem (raw systemId)).run w []).result with
  | .ok system => challengerIdentity exchangeUrl systemId system.type system.name
  | .error _ => challengerIdentity exchangeUrl systemId (lit "agent") (raw fallback)

namespace Setting

def first (s : Setting) : Text × Text := s.client.firstSystem.getD ([], [])

def challenger (s : Setting) : JsonValue :=
  identityAt s.world s.client.config.exchangeUrl s.first.2 s.first.1

def verifier (s : Setting) : JsonValue :=
  identityAt s.world (ATPConfig.exchangeUrlOr s.client.config "http://localhost:80") s.first.2
    "ATPClient".toList

def request (s : Setting) (challenger : JsonValue) : Request :=
  ⟨.agent, .post, s.agentUrl, some (challengePayload s.taskId challenger)⟩

def before (s : Setting) : List Event := [.send (systemRequest (raw s.first.2))]

/-- All that happened when the agent has answered. -/
def history (s : Setting) (challenger : JsonValue) : List Event :=
  s.before ++ [.send (s.request challenger)]

def reply (s : Setting) (challenger : JsonValue) : Except Exc Response :=
  s.world.reply s.before (s.request challenger)

def disclosed (s : Setting) : Except Exc (StoredProofOf PyStr) :=
  s.reply s.challenger >>= decodeDisclosure s.lib

def found (s : Setting) (p : StoredProofOf PyStr) : Finding :=
  findingOf s.lib s.world (s.history s.challenger) p

def consultedFor (s : Setting) (p : StoredProofOf PyStr) : Option Commit :=
  consulted s.lib s.world (s.history s.challenger) (namedSystem p) (namedTask p)

/-- The proof that `challenge` rules on, with its finding. -/
def ruled (s : Setting) (verifying : Bool) : Option (StoredProofOf PyStr × Finding) :=
  match s.client.firstSystem, s.disclosed with
  | some _, .ok p => if verifying then some (p, s.found p) else none
  | _, _ => none

def challenge (s : Setting) (verifying : Bool) (assessorTaskId : Option PyStr) :
    Outcome Exc Event Verdict :=
  (Client.challenge s.lib s.client s.agentUrl s.taskId verifying assessorTaskId).run s.world []

def assessment (s : Setting) (systemId : PyStr) (taskId : JsonValue)
    (assessorTaskId : Option PyStr) (now : Wall) (verdict : IntegrityAssessment) : JsonValue :=
  assessPayload s.first.2 systemId taskId .integrity (lit verdict.value) (utcAt now) assessorTaskId

end Setting

theorem fetchIdentity_run (w : World) (exchangeUrl systemId fallback : Text) :
    (fetchIdentity exchangeUrl systemId fallback).run w [] =
      ⟨.ok (identityAt w exchangeUrl systemId fallback),
        [.send (systemRequest (raw systemId))]⟩ := by
  have log : ((getSystem (raw systemId)).run w []).log =
      [.send (systemRequest (raw systemId))] := by
    rw [getSystem, translated_log, log_bind w []]
    · rfl
    · intro r l
      rw [log_bind w l]
      · rfl
      · intro v l
        rfl
  unfold fetchIdentity identityAt
  cases result : ((getSystem (raw systemId)).run w []).result with
  | ok system =>
    rw [run_attempt, run_bind_ok w [] result, log]
    rfl
  | error e =>
    rw [run_attempt, run_bind_error w [] result, log]
    rfl

end Settings

section Challenge

variable {s : Setting}

theorem challenge_unregistered (absent : s.client.firstSystem = none) (verifying : Bool)
    (assessorTaskId : Option PyStr) :
    ∃ e, s.challenge verifying assessorTaskId = ⟨.error e, []⟩ := by
  unfold Setting.challenge Client.challenge
  rw [absent]
  exact ⟨_, rfl⟩

theorem challenge_run (registered : s.client.firstSystem = some s.first) (verifying : Bool)
    (assessorTaskId : Option PyStr) :
    s.challenge verifying assessorTaskId =
      (attempt (pursue s.lib s.client s.agentUrl s.taskId s.challenger verifying assessorTaskId)
        fun e => .raise (challengeError e)).run s.world s.before := by
  unfold Setting.challenge Client.challenge
  rw [registered]
  dsimp only
  rw [run_bind, fetchIdentity_run]
  rfl

theorem pursue_run (verifying : Bool) (assessorTaskId : Option PyStr) :
    (pursue s.lib s.client s.agentUrl s.taskId s.challenger verifying assessorTaskId).run s.world
        s.before =
      match s.disclosed with
      | .error e => ⟨.error e, s.history s.challenger⟩
      | .ok p =>
        if verifying then
          ((do
            let verdict ← verify s.lib p
            reportIntegrity s.client (namedSystem p) (namedTask p)
              (if verdict.2.1 then .verified else .compromised) assessorTaskId
            pure verdict : Run Verdict)).run s.world (s.history s.challenger)
        else ⟨.ok (p, false, msg "Verification skipped"), s.history s.challenger⟩ := by
  unfold pursue Setting.disclosed Setting.reply
  simp only [send, run_bind, run_perform]
  change next ⟨s.world.reply s.before (s.request s.challenger), s.history s.challenger⟩ _ = _
  cases s.world.reply s.before (s.request s.challenger) with
  | error e => rfl
  | ok r =>
    simp only [next_ok, run_lift, bind_ok]
    cases decodeDisclosure s.lib r with
    | error e => rfl
    | ok p => cases verifying <;> rfl

theorem challenge_error (registered : s.client.firstSystem = some s.first) {e : Exc}
    (failed : s.disclosed = .error e) (verifying : Bool) (assessorTaskId : Option PyStr) :
    s.challenge verifying assessorTaskId = ⟨.error (challengeError e), s.history s.challenger⟩ := by
  rw [challenge_run registered, run_attempt, pursue_run, failed]
  rfl

theorem challenge_skipped (registered : s.client.firstSystem = some s.first)
    {p : StoredProofOf PyStr} (disclosed : s.disclosed = .ok p) (assessorTaskId : Option PyStr) :
    s.challenge false assessorTaskId =
      ⟨.ok (p, false, msg "Verification skipped"), s.history s.challenger⟩ := by
  rw [challenge_run registered, run_attempt, pursue_run, disclosed]
  rfl

@[simp] theorem assessments_history (challenger : JsonValue) :
    assessments (s.history challenger) = [] := by
  have asked : assessments [.send (systemRequest (raw s.first.2))] = [] := assessments_get rfl
  have sent : assessments [.send (s.request challenger)] = [] := assessments_agent rfl
  rw [Setting.history, Setting.before, assessments_append, asked, sent, List.append_nil]

theorem challenge_judged (registered : s.client.firstSystem = some s.first)
    {p : StoredProofOf PyStr} (disclosed : s.disclosed = .ok p) (assessorTaskId : Option PyStr) :
    ∃ m log now, s.challenge true assessorTaskId =
        ⟨.ok (p, decide (s.found p = .confirmed), m), log⟩ ∧
      assessments log = (hasty .verified .compromised (s.found p)).toList.map
        (s.assessment (namedSystem p) (namedTask p) assessorTaskId now) := by
  obtain ⟨m, checked, verified, quiet⟩ : ∃ m log,
      (verify s.lib p).run s.world (s.history s.challenger) =
        ⟨.ok (p, decide (s.found p = .confirmed), m), log⟩ ∧
      assessments log = assessments (s.history s.challenger) := verify_run _ _ _ p
  obtain ⟨log, report, submitted⟩ := reportIntegrity_run (w := s.world) (h := checked) registered
    (namedSystem p) (namedTask p)
    (if decide (s.found p = .confirmed) then .verified else .compromised) assessorTaskId
  refine ⟨m, log, s.world.now checked, ?_, ?_⟩
  · rw [challenge_run registered, run_attempt, pursue_run, disclosed]
    simp only [if_true, run_bind, verified, next_ok, report, run_pure]
  · rw [submitted, quiet, assessments_history]
    by_cases found : s.found p = .confirmed <;> simp [hasty, found, Setting.assessment]

/-- A verdict that is not verified, or none, and nothing submitted. -/
def Silent {α : Type} (o : Outcome Exc Event (α × Bool × Message)) : Prop :=
  (∀ a m, o.result ≠ .ok (a, true, m)) ∧ assessments o.log = []

/-- Every run of `challenge`: it rules hastily on its finding, or stays silent. -/
theorem challenge_spec (s : Setting) (verifying : Bool) (assessorTaskId : Option PyStr) :
    match s.ruled verifying with
    | none => Silent (s.challenge verifying assessorTaskId)
    | some (p, f) => ∃ m log now, s.challenge verifying assessorTaskId =
        ⟨.ok (p, decide (f = .confirmed), m), log⟩ ∧
      assessments log = (hasty .verified .compromised f).toList.map
        (s.assessment (namedSystem p) (namedTask p) assessorTaskId now) := by
  unfold Setting.ruled
  cases absent : s.client.firstSystem with
  | none =>
    obtain ⟨e, run⟩ := challenge_unregistered absent verifying assessorTaskId
    exact ⟨by simp [run], by rw [run]; rfl⟩
  | some first =>
    have registered : s.client.firstSystem = some s.first := by rw [Setting.first, absent]; rfl
    cases disclosed : s.disclosed with
    | error e =>
      have run := challenge_error registered disclosed verifying assessorTaskId
      exact ⟨by simp [run], by rw [run]; exact assessments_history _⟩
    | ok p =>
      cases verifying with
      | false =>
        have run := challenge_skipped registered disclosed assessorTaskId
        exact ⟨by simp [run], by rw [run]; exact assessments_history _⟩
      | true => exact challenge_judged registered disclosed assessorTaskId

theorem ruled_eq_some {verifying : Bool} {p : StoredProofOf PyStr} {f : Finding} :
    s.ruled verifying = some (p, f) ↔
      s.client.firstSystem.isSome ∧ s.disclosed = .ok p ∧ verifying = true ∧ f = s.found p := by
  unfold Setting.ruled
  cases s.client.firstSystem with
  | none => simp
  | some first =>
    cases s.disclosed with
    | error e => simp
    | ok q =>
      cases verifying with
      | false => simp
      | true =>
        simp only [if_true, Option.some.injEq, Prod.mk.injEq, Option.isSome_some, true_and,
          Except.ok.injEq]
        constructor
        · rintro ⟨rfl, rfl⟩
          exact ⟨rfl, rfl⟩
        · rintro ⟨rfl, rfl⟩
          exact ⟨rfl, rfl⟩

theorem challenge_of_ruled {verifying : Bool} {p : StoredProofOf PyStr} {f : Finding}
    (ruled : s.ruled verifying = some (p, f)) (assessorTaskId : Option PyStr) :
    ∃ m log now, s.challenge verifying assessorTaskId =
        ⟨.ok (p, decide (f = .confirmed), m), log⟩ ∧
      assessments log = (hasty .verified .compromised f).toList.map
        (s.assessment (namedSystem p) (namedTask p) assessorTaskId now) := by
  have spec := challenge_spec s verifying assessorTaskId
  rw [ruled] at spec
  exact spec

theorem challenge_silent {verifying : Bool} (unruled : s.ruled verifying = none)
    (assessorTaskId : Option PyStr) : Silent (s.challenge verifying assessorTaskId) := by
  have spec := challenge_spec s verifying assessorTaskId
  rw [unruled] at spec
  exact spec

end Challenge

end AgentTrust.Disclosure
