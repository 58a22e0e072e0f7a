import AgentTrust.HonestAgent

/-! `verify_response` against what the producers commit. A producer hashes the outcome
object that wraps the response text; the check hashes the bare string it is given, so
what it accepts is the canonical JSON text of that object. -/

namespace AgentTrust.ResponseCheck

open JsonTree JsonTree.Json JsonText PyText PyJson Gregorian PyDateTime IsoFormat OrderedDict
  PyValue Models Hashing Effects Exchange Client Storage Tasks Publication HonestAgent
open Effects.Run hiding pure bind

section Lookup

variable {lib : Library} {w : World} {h : List Event} {commitId s : PyStr} {sketch : ProofSketch}

/-- The Exchange answers the query for a commit with a commit that holds the sketch. -/
def Serves (w : World) (commitId : PyStr) (sketch : ProofSketch) : Prop :=
  ∀ h, ∃ r data status, w.reply h (commitByIdRequest commitId) = .ok r ∧ r.statusCode = 200 ∧
    r.body = .ok data ∧ CommitReply data sketch status

theorem sketch_of_decodes (iso : ReadsIso lib) {data : JsonValue} {status : CommitStatus}
    {commit : Commit} (reply : CommitReply data sketch status)
    (decoded : Commit.fromApiResponse lib data = .ok commit) : sketch.MinuteZones := by
  obtain ⟨v, x, item, embedded, validated⟩ := (decoded_of_fromApiResponse decoded).proofSketch
  obtain rfl := Except.ok.inj (reply.proofSketch.symm.trans item)
  obtain rfl := Except.ok.inj embedded
  rw [ProofSketchOf.validate_exact iso] at validated
  exact (Option.ite_none_right_eq_some.mp validated).1

theorem getCommit_served (iso : ReadsIso lib) (served : Serves w commitId sketch)
    (h : List Event) :
    ((getCommit lib commitId).run w h).result.toOption.map (·.proofSketch.cryptography) =
      if sketch.MinuteZones then some sketch.python.cryptography else none := by
  obtain ⟨r, data, status, replied, ok, body, reply⟩ := served h
  have query : decodeCommitById lib commitId r = Commit.fromApiResponse lib data := by
    unfold decodeCommitById queryBody Response.json
    rw [if_neg (by rw [ok]; decide), if_neg (by rw [ok]; decide), if_neg (by rw [ok]; decide),
      body]
    rfl
  rw [getCommit, translated_result, send, run_bind, run_perform, replied, next_ok, run_lift, query]
  by_cases whole : sketch.MinuteZones
  · have valid_ := (ProofSketchOf.validate_exact iso sketch).trans (if_pos whole)
    obtain ⟨commit, decoded, same, _⟩ := reply.decodes_of_valid valid_
    rw [decoded, if_pos whole, ← same]
    rfl
  · rw [if_neg whole]
    cases decoded : Commit.fromApiResponse lib data with
    | ok commit => exact absurd (sketch_of_decodes iso reply decoded) whole
    | error e => rfl

theorem hashWithPrefix_str (s : PyStr) :
    hashWithPrefix (.str s) = (computeSha256 s).map fun t => hashPrefix ++ t := rfl

theorem verifyResponse_eq_true (iso : ReadsIso lib) (served : Serves w commitId sketch) :
    ((verifyResponse lib commitId s).run w h).result = .ok true ↔
      sketch.MinuteZones ∧ hashWithPrefix (.str s) = .ok sketch.cryptography.outcomeHash := by
  have fetched := getCommit_served iso served h
  unfold verifyResponse
  rw [run_attempt, run_bind]
  generalize (getCommit lib commitId).run w h = o at fetched
  obtain ⟨result, log⟩ := o
  cases result with
  | error e =>
    have seconds : ¬ sketch.MinuteZones := fun whole => by simp [whole, Except.toOption] at fetched
    simp only [next_error]
    split <;> simp [seconds]
  | ok commit =>
    obtain ⟨whole, present⟩ := Option.ite_none_right_eq_some.mp fetched.symm
    have committed : commit.proofSketch.cryptography.outcomeHash =
        raw sketch.cryptography.outcomeHash :=
      (congrArg (·.outcomeHash) (Option.some.inj present)).symm
    cases hashed : hashWithPrefix (.str s) with
    | ok responseHash =>
      simp only [next_ok, run_bind, run_lift, run_pure, committed]
      simp [whole, raw_injective.eq_iff]
    | error e =>
      simp only [next_ok, run_bind, run_lift, next_error]
      split <;> simp

end Lookup

section Outcomes

theorem length_lt_dumps_outcome (r : PyStr) :
    r.length < (dumps (.obj (outcomeOf r none))).length := by
  have response : dumps (.str r) <:+: dumps (record [("text", .str r)]) :=
    dumps_infix_obj (p := (lit "text", .str r)) (by simp)
  have outcome : dumps (record [("text", .str r)]) <:+: dumps (.obj (outcomeOf r none)) :=
    dumps_infix_obj (p := (lit "response", record [("text", .str r)])) (by simp [outcomeOf])
  calc r.length < (quoteStr r).length := length_lt_quoteStr r
    _ ≤ (dumps (.obj (outcomeOf r none))).length := (response.trans outcome).length_le

theorem response_ne_outcome (r : PyStr) : r ≠ raw (dumps (.obj (outcomeOf r none))) := by
  intro same
  have lengths := congrArg List.length same
  rw [raw, List.length_map] at lengths
  exact absurd lengths (length_lt_dumps_outcome r).ne

theorem contentHash_eq_hashWithPrefix (c : Content) :
    .ok (contentHash c) = hashWithPrefix (.str (raw (dumps (.obj c)))) := by
  rw [hashWithPrefix_str, computeSha256, encode_raw]
  rfl

theorem hashWithPrefix_eq_contentHash {s : PyStr} {c : Content}
    (injective : Set.InjOn computeSha256 {s, raw (dumps (.obj c))}) :
    hashWithPrefix (.str s) = .ok (contentHash c) ↔ s = raw (dumps (.obj c)) := by
  rw [contentHash_eq_hashWithPrefix]
  constructor
  · intro same
    refine injective (by simp) (by simp) ?_
    simp only [hashWithPrefix_str] at same
    cases left : computeSha256 s <;> cases right : computeSha256 (raw (dumps (.obj c))) <;>
      simp_all [Except.map]
  · intro same
    rw [same]

end Outcomes

section Commits

variable {r : PyStr} {log : List Event}

/-- The events of a run that commits the response `r`. -/
inductive Commits (r : PyStr) : List Event → Prop
  | context {t t' : ATPTaskContext} {c : ATPClient} {w : World} {log : List Event}
      (uncommitted : t.committed = false) (response : t.response = some r) (nonempty : r ≠ [])
      (run : (t.commit c).run w [] = ⟨.ok t', log⟩) : Commits r log
  | adapter {a : MinimalAdapter} {taskId : Text} {query : PyStr}
      {classification : Option Capability} {w : World} {result : TaskResult} {log : List Event}
      (run : (a.onTaskComplete taskId query r none classification).run w [] =
        ⟨.ok result, log⟩) : Commits r log

theorem posted_of_commits (commits : Commits r log) :
    ∃ systemId taskId sketch proofHash,
      .send (postRequest "/api/v1/commit" (commitPayload systemId taskId sketch proofHash)) ∈
        log ∧ sketch.cryptography.outcomeHash = contentHash (outcomeOf r none) := by
  cases commits with
  | @context t t' c w _ uncommitted response nonempty run =>
    have given : t.response.getD [] = r := by rw [response]; rfl
    obtain ⟨systemId, now, hash, expiresAt, proofHash, _, _, rfl⟩ :=
      commit_ok uncommitted (given ▸ nonempty) run
    refine ⟨systemId, (contextTask t c systemId now hash).taskId,
      c.completed systemId (contextTask t c systemId now hash).sketch, proofHash,
      by simp [events], ?_⟩
    rw [← given]
    rfl
  | @adapter a taskId query classification w result _ run =>
    obtain ⟨systemId, now, hash, expiresAt, proofHash, _, _, rfl⟩ := onTaskComplete_ok run
    let task := adapterTask a systemId taskId query r none classification now hash
    exact ⟨systemId, task.taskId, a.client.completed systemId task.sketch, proofHash,
      by simp [events, task], rfl⟩

/-- What the check of a committed response accepts is the outcome's canonical text, if the
sketch can be read; so it tells the response from other strings only where neither that
text nor the response itself is checked. -/
theorem verifyResponse_exact_iff {lib : Library} (iso : ReadsIso lib) (commits : Commits r log) :
    ∃ systemId taskId sketch proofHash,
      .send (postRequest "/api/v1/commit" (commitPayload systemId taskId sketch proofHash)) ∈
        log ∧
      ∀ w h commitId s, Serves w commitId sketch →
        Set.InjOn computeSha256 {s, raw (dumps (.obj (outcomeOf r none)))} →
          ((((verifyResponse lib commitId s).run w h).result = .ok true ↔ s = r) ↔
            s ≠ r ∧ (sketch.MinuteZones → s ≠ raw (dumps (.obj (outcomeOf r none))))) := by
  obtain ⟨systemId, taskId, sketch, proofHash, posted, outcome⟩ := posted_of_commits commits
  refine ⟨systemId, taskId, sketch, proofHash, posted, ?_⟩
  intro w h commitId s served injective
  rw [verifyResponse_eq_true iso served, outcome, hashWithPrefix_eq_contentHash injective]
  have apart := response_ne_outcome r
  constructor
  · intro exact_
    refine ⟨fun same => apart ?_, fun whole same => apart ?_⟩
    · exact same.symm.trans (exact_.mpr same).2
    · exact (exact_.mp ⟨whole, same⟩).symm.trans same
  · rintro ⟨other, plain⟩
    exact ⟨fun accepted => absurd accepted.2 (plain accepted.1), fun same => absurd same other⟩

end Commits

section Sample

def plainTask : Completed := { sampleTaskDone with outcome := outcomeOf (lit "4") none }

def plainSketch : ProofSketch := sampleClient.completed "s".toList plainTask.sketch

theorem plainTask_commits : ∃ proofHash, Commits (lit "4")
    (.clock :: events plainTask sampleClient "s".toList onePm proofHash) := by
  obtain ⟨result, proofHash, run⟩ := sampleAdapter_publishes none
  exact ⟨proofHash, .adapter run⟩

def servingWorld (sketch : ProofSketch) : World where
  reply := fun _ _ => .ok (answer 200 (commitData sketch .confirmed))
  save := fun _ _ => .ok ()
  now := fun _ => noon.wall

theorem servingWorld_serves (sketch : ProofSketch) (commitId : PyStr) :
    Serves (servingWorld sketch) commitId sketch :=
  fun _ => ⟨_, _, _, rfl, rfl, rfl, commitData_reply sketch .confirmed⟩

theorem response_rejected :
    (∃ log systemId taskId proofHash, Commits (lit "4") log ∧
      .send (postRequest "/api/v1/commit"
        (commitPayload systemId taskId plainSketch proofHash)) ∈ log) ∧
    Serves (servingWorld plainSketch) (raw sampleId.str) plainSketch ∧
    ((verifyResponse minuteLibrary (raw sampleId.str) (lit "4")).run (servingWorld plainSketch)
      []).result ≠ .ok true := by
  have served := servingWorld_serves plainSketch (raw sampleId.str)
  refine ⟨?_, served, ?_⟩
  · obtain ⟨proofHash, commits⟩ := plainTask_commits
    exact ⟨_, "s".toList, plainTask.taskId, proofHash, commits, by simp [events, plainSketch]⟩
  · rw [Ne, verifyResponse_eq_true readsIso_minuteLibrary served]
    have differ : (hashWithPrefix (.str (lit "4"))).toOption ≠
        some plainSketch.cryptography.outcomeHash := by
      decide +kernel
    exact fun both => differ (congrArg Except.toOption both.2)

theorem otherResponse_hash :
    Set.InjOn computeSha256 {lit "5", raw (dumps (.obj (outcomeOf (lit "4") none)))} := by
  have differ : (computeSha256 (lit "5")).toOption ≠
      (computeSha256 (raw (dumps (.obj (outcomeOf (lit "4") none))))).toOption := by
    decide +kernel
  exact Set.injOn_pair.mpr fun same => absurd (congrArg Except.toOption same) differ

theorem otherResponse_told_apart :
    ∃ sketch, (((verifyResponse minuteLibrary (raw sampleId.str) (lit "5")).run
      (servingWorld sketch) []).result = .ok true ↔ lit "5" = lit "4") := by
  obtain ⟨_, commits⟩ := plainTask_commits
  obtain ⟨_, _, sketch, _, _, told⟩ := verifyResponse_exact_iff readsIso_minuteLibrary commits
  refine ⟨sketch, (told (servingWorld sketch) [] _ _ (servingWorld_serves sketch _)
    otherResponse_hash).mpr ⟨by decide, fun _ => ?_⟩⟩
  decide +kernel

end Sample

end AgentTrust.ResponseCheck
