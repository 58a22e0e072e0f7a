import AgentTrust.Assessments

/-! The two verifiers on one disclosure. `challenge` validates the whole value as a stored
proof and `challenge_and_verify` reads six of its fields. Where the value validates, both
read the same; where it does not, only the second one can verify it. -/

namespace AgentTrust.VerifierAgreement

open JsonTree JsonTree.Json PyText PyJson OrderedDict PyValue Models Hashing Effects Exchange
  Client Tasks Verifier CommitReveal Disclosure HonestAgent Verdicts
open Assessments (sampleProof sampleProof_matches sampleProof_valid)
open Effects.Run hiding pure bind

section Reading

variable {lib : Library} {v x : JsonValue} {p : StoredProofOf PyStr}

theorem getItem_of_field {k : String} (found : field k v = some x) : getItem k v = .ok x := by
  cases v with
  | obj fields => rw [getItem, show lookup (lit k) fields = some x from found]
  | _ => simp [field] at found

theorem getItem_of_required {α : Type} {k : String} {read : JsonValue → Option α} {a : α}
    (present : required k read v = some a) : ∃ x, getItem k v = .ok x ∧ read x = some a := by
  obtain ⟨x, found, value⟩ := Option.bind_eq_some_iff.mp present
  exact ⟨x, getItem_of_field found, value⟩

theorem eq_str_of_asText {t : PyStr} (read : asText x = some t) : x = .str t := by
  cases x with
  | str s => exact congrArg Json.str (Option.some.inj read)
  | _ => simp [asText] at read

theorem eq_obj_of_asContent {c : Content} (read : asContent x = some c) : x = .obj c := by
  cases x with
  | obj fields => exact congrArg Json.obj (Option.some.inj read)
  | _ => simp [asContent] at read

theorem task_fields {t : ProofDataTaskOf PyStr}
    (valid_ : ProofDataTaskOf.validate lib v = some t) :
    getItem "system_uri" v = .ok (.str t.systemUri) ∧ getItem "task_id" v = .ok (.str t.taskId) ∧
      getItem "invocation" v = .ok (.obj t.invocation) ∧
      getItem "invocation_hash" v = .ok (.str t.invocationHash) ∧
      getItem "outcome" v = .ok (.obj t.outcome) ∧
      getItem "outcome_hash" v = .ok (.str t.outcomeHash) := by
  unfold ProofDataTaskOf.validate at valid_
  obtain ⟨systemUri, readUri, valid_⟩ := Option.bind_eq_some_iff.mp valid_
  obtain ⟨systemType, _, valid_⟩ := Option.bind_eq_some_iff.mp valid_
  obtain ⟨taskId, readId, valid_⟩ := Option.bind_eq_some_iff.mp valid_
  obtain ⟨invocation, readInvocation, valid_⟩ := Option.bind_eq_some_iff.mp valid_
  obtain ⟨invocationHash, readInvocationHash, valid_⟩ := Option.bind_eq_some_iff.mp valid_
  obtain ⟨outcome, readOutcome, valid_⟩ := Option.bind_eq_some_iff.mp valid_
  obtain ⟨outcomeHash, readOutcomeHash, valid_⟩ := Option.bind_eq_some_iff.mp valid_
  obtain ⟨timestamp, _, valid_⟩ := Option.bind_eq_some_iff.mp valid_
  obtain ⟨trustLevel, _, valid_⟩ := Option.bind_eq_some_iff.mp valid_
  obtain rfl := Option.some.inj valid_
  have texts : ∀ {k t}, required k asText v = some t → getItem k v = .ok (.str t) := by
    intro k t present
    obtain ⟨x, found, read⟩ := getItem_of_required present
    rw [found, eq_str_of_asText read]
  have contents : ∀ {k c}, required k asContent v = some c → getItem k v = .ok (.obj c) := by
    intro k c present
    obtain ⟨x, found, read⟩ := getItem_of_required present
    rw [found, eq_obj_of_asContent read]
  exact ⟨texts readUri, texts readId, contents readInvocation, texts readInvocationHash,
    contents readOutcome, texts readOutcomeHash⟩

theorem readTask_of_validate (valid_ : StoredProofOf.validate lib v = some p) :
    readTask v = .ok (rawTaskOf p) := by
  unfold StoredProofOf.validate at valid_
  obtain ⟨proofData, readData, valid_⟩ := Option.bind_eq_some_iff.mp valid_
  obtain ⟨createdAt, _, valid_⟩ := Option.bind_eq_some_iff.mp valid_
  obtain ⟨expiresAt, _, valid_⟩ := Option.bind_eq_some_iff.mp valid_
  obtain rfl := Option.some.inj valid_
  obtain ⟨data, foundData, validData⟩ := getItem_of_required readData
  unfold ProofDataOf.validate at validData
  obtain ⟨task, readTask_, validData⟩ := Option.bind_eq_some_iff.mp validData
  obtain ⟨dependencies, _, validData⟩ := Option.bind_eq_some_iff.mp validData
  obtain rfl := Option.some.inj validData
  obtain ⟨t, foundTask, validTask⟩ := getItem_of_required readTask_
  obtain ⟨uri, id, invocation, invocationHash, outcome, outcomeHash⟩ := task_fields validTask
  simp only [readTask, foundData, bind_ok, foundTask, uri, id, invocation, invocationHash, outcome,
    outcomeHash]
  rfl

end Reading

section Agreement

variable {s : Setting} {v : JsonValue} {p : StoredProofOf PyStr} {task : RawTask}

/-- The agent returns `v` to either verifier, and the Exchange answers the commit queries of
both alike. -/
structure Alike (s : Setting) (v : JsonValue) : Prop where
  challenged : ∃ r, s.reply s.challenger = .ok r ∧ Discloses r v
  verified : ∃ r, s.reply s.verifier = .ok r ∧ Discloses r v
  exchange : ∀ systemId taskId,
    s.world.reply (s.history s.challenger) (commitRequest systemId taskId) =
      s.world.reply (s.history s.verifier) (commitRequest systemId taskId)

theorem disclosed_iff (alike : Alike s v) :
    s.disclosed = .ok p ↔ StoredProofOf.validate s.lib v = some p := by
  obtain ⟨r, replied, discloses⟩ := alike.challenged
  constructor
  · intro disclosed
    rw [Setting.disclosed, replied, bind_ok] at disclosed
    rw [← decodeDisclosure_toOption discloses, disclosed]
    rfl
  · exact disclosed_of_reply replied discloses

theorem rawDisclosed_iff (alike : Alike s v) {u : JsonValue} :
    s.rawDisclosed = some (u, task) ↔ u = v ∧ readTask v = .ok task := by
  obtain ⟨r, replied, discloses⟩ := alike.verified
  have result : s.rawReply = .ok v := by
    rw [Setting.rawReply, replied, bind_ok, decodeReply_discloses discloses]
  rw [Setting.rawDisclosed, result]
  dsimp only
  cases readTask v with
  | error e => simp
  | ok t => simp [eq_comm]

theorem consulted_alike (alike : Alike s v) (systemId : PyStr) (taskId : JsonValue) :
    consulted s.lib s.world (s.history s.challenger) systemId taskId =
      consulted s.lib s.world (s.history s.verifier) systemId taskId := by
  rw [consulted, alike.exchange, consulted]

theorem found_iff (alike : Alike s v) : s.found p = .confirmed ↔ RawCompared s (rawTaskOf p) := by
  rw [rawCompared_iff, rawFinding_dump, ← consulted_alike alike, Setting.found, findingOf]
  have agrees : ∀ a, sameRaw a (declaredRaw (rawTaskOf p)) = same a (declared p) := by
    intro a
    simp [sameRaw, declaredRaw, rawTaskOf, same, declared, Prod.ext_iff]
  have findings : ∀ record, finding sameRaw (recomputed p) (declaredRaw (rawTaskOf p)) record =
      finding same (recomputed p) (declared p) record := by
    intro record
    cases record <;> simp [finding, recordFinding, agrees]
  by_cases first : (recomputed p).1 = (declared p).1
  · rw [if_pos first, findings, Option.some.injEq]
  · have differ : ¬ same (recomputed p) (declared p) = true := by
      intro equal
      exact first (congrArg Prod.fst (of_decide_eq_true equal))
    rw [if_neg first, finding, if_neg differ, Option.some.injEq]

theorem verified_iff (registered : s.client.firstSystem.isSome) (alike : Alike s v)
    (assessorTaskId : Option PyStr) :
    (∃ p m log, s.challenge true assessorTaskId = ⟨.ok (p, true, m), log⟩) ↔
      ∃ p, StoredProofOf.validate s.lib v = some p ∧ RawCompared s (rawTaskOf p) := by
  constructor
  · rintro ⟨p, m, log, run⟩
    obtain ⟨_, disclosed, _, found⟩ := ruled_eq_some.mp (ruled_of_verified run)
    exact ⟨p, (disclosed_iff alike).mp disclosed, (found_iff alike).mp found.symm⟩
  · rintro ⟨p, validated, compared⟩
    have ruled : s.ruled true = some (p, .confirmed) :=
      ruled_eq_some.mpr ⟨registered, (disclosed_iff alike).mpr validated, rfl,
        ((found_iff alike).mpr compared).symm⟩
    obtain ⟨m, log, _, run, _⟩ := challenge_of_ruled ruled assessorTaskId
    exact ⟨p, m, log, run⟩

theorem rawVerified_iff (alike : Alike s v) :
    (∃ u m log, s.challengeAndVerify none none = ⟨.ok (u, true, m), log⟩) ↔
      s.registeredId.isSome ∧ ∃ task, readTask v = .ok task ∧ RawCompared s task := by
  constructor
  · rintro ⟨u, m, log, run⟩
    obtain ⟨task, ruled⟩ := rawRuled_of_verified run
    obtain ⟨identified, disclosed, f, found, confirmed⟩ := rawRuled_eq_some.mp ruled
    obtain ⟨rfl, _⟩ := Finding.expecting_eq_confirmed.mp confirmed.symm
    exact ⟨identified, task, ((rawDisclosed_iff alike).mp disclosed).2, rawCompared_iff.mpr found⟩
  · rintro ⟨identified, task, read, compared⟩
    have ruled : s.rawRuled none none = some (v, task, .confirmed) :=
      rawRuled_eq_some.mpr ⟨identified, (rawDisclosed_iff alike).mpr ⟨rfl, read⟩, .confirmed,
        rawCompared_iff.mp compared, rfl⟩
    obtain ⟨m, log, _, run, _⟩ := challengeAndVerify_of_ruled ruled
    exact ⟨v, m, log, run⟩

theorem registeredId_isSome (registered : s.client.firstSystem.isSome) :
    s.registeredId.isSome ↔ s.first.2 ≠ [] := by
  obtain ⟨first, present⟩ := Option.isSome_iff_exists.mp registered
  rw [Setting.registeredId, Setting.first, present, Option.map_some, Option.getD_some,
    Option.isSome_filter]
  simp

/-- The verifiers agree on a value exactly when, in case its raw fields match a confirmed
commit, it validates as a stored proof if and only if the registered id is not empty. -/
theorem verifiers_agree_iff (registered : s.client.firstSystem.isSome) (alike : Alike s v) :
    ((∃ p m log, s.challenge true none = ⟨.ok (p, true, m), log⟩) ↔
      ∃ u m log, s.challengeAndVerify none none = ⟨.ok (u, true, m), log⟩) ↔
    ∀ task, readTask v = .ok task → RawCompared s task →
      ((StoredProofOf.validate (σ := PyStr) s.lib v).isSome ↔ s.first.2 ≠ []) := by
  rw [verified_iff registered alike, rawVerified_iff alike, registeredId_isSome registered]
  constructor
  · intro agree task read compared
    constructor
    · intro validates
      obtain ⟨p, validated⟩ := Option.isSome_iff_exists.mp validates
      obtain rfl := Except.ok.inj (read.symm.trans (readTask_of_validate validated))
      exact (agree.mp ⟨p, validated, compared⟩).1
    · intro identified
      obtain ⟨p, validated, _⟩ := agree.mpr ⟨identified, task, read, compared⟩
      exact Option.isSome_iff_exists.mpr ⟨p, validated⟩
  · intro condition
    constructor
    · rintro ⟨p, validated, compared⟩
      have read := readTask_of_validate validated
      have validates := Option.isSome_iff_exists.mpr ⟨p, validated⟩
      exact ⟨(condition _ read compared).mp validates, _, read, compared⟩
    · rintro ⟨identified, task, read, compared⟩
      obtain ⟨p, validated⟩ := Option.isSome_iff_exists.mp
        ((condition task read compared).mpr identified)
      obtain rfl := Except.ok.inj (read.symm.trans (readTask_of_validate validated))
      exact ⟨p, validated, compared⟩

end Agreement

section Sample

def disclosing (v : JsonValue) : Setting := sampleSetting isoLibrary (raw sampleTask.str) v
  (.ok (answer 200 (commitData sampleTaskDone.sketch .confirmed)))

theorem disclosing_setup (v : JsonValue) :
    Setup (disclosing v) "s".toList sampleTask.str v sampleTaskDone.sketch := sampleSetup _ _ _

theorem disclosing_alike (v : JsonValue) : Alike (disclosing v) v where
  challenged := (disclosing_setup v).agent _
  verified := (disclosing_setup v).agent _
  exchange := fun _ _ => rfl

theorem sampleProof_agrees :
    (∃ p m log, (disclosing sampleProof.dump).challenge true none =
      ⟨.ok (p, true, m), log⟩) ↔
    ∃ u m log, (disclosing sampleProof.dump).challengeAndVerify none none =
      ⟨.ok (u, true, m), log⟩ := by
  refine (verifiers_agree_iff rfl (disclosing_alike _)).mpr fun _ _ _ => ?_
  exact iff_of_true (congrArg Option.isSome sampleProof_valid) (disclosing_setup _).identified

def undated : JsonValue := record [("proof_data", sampleProof.proofData.dump)]

theorem readTask_undated : readTask undated = .ok (rawTaskOf sampleProof) := by
  simp [readTask, undated, ProofDataOf.dump, ProofDataTaskOf.dump, trailingId, rawTaskOf]

/-- Only `challenge_and_verify` verifies the proof without dates. -/
theorem undated_splits : Alike (disclosing undated) undated ∧
    ¬ ((∃ p m log, (disclosing undated).challenge true none = ⟨.ok (p, true, m), log⟩) ↔
      ∃ u m log, (disclosing undated).challengeAndVerify none none = ⟨.ok (u, true, m), log⟩) := by
  have setup := disclosing_setup undated
  have alike := disclosing_alike undated
  have found : (disclosing undated).found sampleProof = .confirmed :=
    found_setup setup (sketch_isoLibrary (by decide)) sampleProof_matches
  have compared := (found_iff alike).mp found
  have identified : (disclosing undated).registeredId.isSome :=
    (registeredId_isSome rfl).mpr setup.identified
  refine ⟨alike, fun agree => ?_⟩
  obtain ⟨p, m, log, run⟩ := agree.mpr ((rawVerified_iff alike).mpr
    ⟨identified, _, readTask_undated, compared⟩)
  obtain ⟨q, validated, _⟩ := (verified_iff rfl alike none).mp ⟨p, m, log, run⟩
  have rejected : StoredProofOf.validate (σ := PyStr) isoLibrary undated = none := by
    simp [StoredProofOf.validate, undated, required, field, record, lit_inj]
  exact absurd (rejected.symm.trans validated) (by simp)

end Sample

end AgentTrust.VerifierAgreement
