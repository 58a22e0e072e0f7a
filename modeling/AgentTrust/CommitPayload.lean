import AgentTrust.HonestAgent
import AgentTrust.SignedCommit

/-! What `create_commit` posts: a sketch and a hash of its own fields. The sketch is
decoded from the payload as the Exchange does it, and its proof hash is recomputed.
The system URI is overwritten before both are made; the task id is not. -/

namespace AgentTrust.CommitPayload

open JsonTree JsonTree.Json PyText PyJson Gregorian PyDateTime IsoFormat OrderedDict PyValue Models
  Hashing Effects Exchange Client HonestAgent SignedCommit
open Effects.Run hiding pure bind

section Payload

variable {lib : Library} {c : ATPClient} {systemId taskId : Text} {s : ProofSketch}

def SelfConsistent (lib : Library) (payload : JsonValue) : Prop :=
  ∃ (sketch : ProofSketchOf PyStr) (proofHash : Text),
    required "proof" (ProofSketchOf.validate lib) payload = some sketch ∧
    required "proof_hash" asText payload = some proofHash ∧
    computeProofHash sketch = .ok proofHash

theorem proof_commitPayload (iso : ReadsIso lib) (proofHash : Text) :
    required "proof" (ProofSketchOf.validate lib) (commitPayload systemId taskId s proofHash) =
      if s.MinuteZones then some s.python else none := by
  simp [required, commitPayload, ProofSketchOf.validate_exact iso]

theorem computeProofHash_python (s : ProofSketch) :
    computeProofHash s.python = computeProofHash s := by
  rw [computeProofHash, sketchMessage_python, computeProofHash]

theorem selfConsistent_commitPayload (iso : ReadsIso lib) (proofHash : Text) :
    SelfConsistent lib (commitPayload systemId taskId s proofHash) ↔
      s.MinuteZones ∧ computeProofHash s = .ok proofHash := by
  have proof : required "proof" (ProofSketchOf.validate lib)
      (commitPayload systemId taskId s proofHash) =
        if s.MinuteZones then some s.python else none := proof_commitPayload iso proofHash
  have hash : required "proof_hash" asText
      (commitPayload systemId taskId s proofHash) = some proofHash := by
    simp [required, commitPayload]
  constructor
  · rintro ⟨sketch, sent, decoded', sent', agrees⟩
    obtain ⟨whole, read⟩ := Option.ite_none_right_eq_some.mp (proof.symm.trans decoded')
    obtain rfl := Option.some.inj read
    obtain rfl := Option.some.inj (hash.symm.trans sent')
    exact ⟨whole, (computeProofHash_python s).symm.trans agrees⟩
  · rintro ⟨whole, agrees⟩
    exact ⟨s.python, proofHash, proof.trans (if_pos whole), hash,
      (computeProofHash_python s).trans agrees⟩

/-- The message hashed for the payload: of the arguments, not of the sketch. -/
def sentMessage (c : ATPClient) (systemId taskId : Text) (s : ProofSketch) : PyStr :=
  proofMessage (raw (c.systemUri systemId)) (raw taskId) (raw s.cryptography.invocationHash)
    (raw s.cryptography.outcomeHash) (s.cryptography.dependenciesHash.map raw) s.timestamp

theorem proofMessage_taskId {systemUri invocationHash outcomeHash t u : PyStr}
    {dependenciesHash : Option PyStr} {timestamp : DateTime}
    (same : proofMessage systemUri t invocationHash outcomeHash dependenciesHash timestamp =
      proofMessage systemUri u invocationHash outcomeHash dependenciesHash timestamp) : t = u := by
  unfold proofMessage at same
  dsimp only at same
  split at same <;>
    exact List.append_cancel_right (List.cons.inj (List.append_cancel_left same)).2

theorem sentMessage_eq_iff :
    sentMessage c systemId taskId s = sketchMessage (c.completed systemId s) ↔
      taskId = s.atpMetadata.taskId := by
  constructor
  · intro same
    exact raw_injective (proofMessage_taskId same)
  · rintro rfl
    rfl

theorem createCommit_log (c : ATPClient) (systemId taskId : Text)
    (s : ProofSketch) (w : World) (h : List Event) :
    ∃ proofHash, computeSha256 (sentMessage c systemId taskId s) = .ok proofHash ∧
      ((createCommit c systemId taskId s).run w h).log =
        h ++ [.send (postRequest "/api/v1/commit"
          (commitPayload systemId taskId (c.completed systemId s) proofHash))] :=
  createCommit_sends c systemId taskId s w h

/-- The pair sent is consistent for a task id that is the sketch's own, if its dump can be
read, and, where SHA-256 does not collide on the two messages, for no other. -/
theorem createCommit_selfConsistent_iff (iso : ReadsIso lib)
    (injective : Set.InjOn computeSha256
      {sentMessage c systemId taskId s, sketchMessage (c.completed systemId s)})
    (w : World) (h : List Event) :
    ∃ payload, ((createCommit c systemId taskId s).run w h).log =
        h ++ [.send (postRequest "/api/v1/commit" payload)] ∧
      (SelfConsistent lib payload ↔ taskId = s.atpMetadata.taskId ∧ s.MinuteZones) := by
  obtain ⟨proofHash, hash, log⟩ := createCommit_log c systemId taskId s w h
  refine ⟨_, log, ?_⟩
  rw [selfConsistent_commitPayload iso, computeProofHash, ← hash, ← sentMessage_eq_iff]
  constructor
  · rintro ⟨whole, same⟩
    exact ⟨(injective (by simp) (by simp) same).symm, whole⟩
  · rintro ⟨same, whole⟩
    exact ⟨whole, by rw [same]⟩

theorem sampleCommit_selfConsistent :
    ∃ payload, ((createCommit sampleClient "s".toList sampleTask.str
        sampleSketch).run acceptingWorld []).log =
          [.send (postRequest "/api/v1/commit" payload)] ∧
      SelfConsistent minuteLibrary payload := by
  have injective : Set.InjOn computeSha256
      {sentMessage sampleClient "s".toList sampleTask.str sampleSketch,
        sketchMessage (sampleClient.completed "s".toList sampleSketch)} := by
    rw [sentMessage_eq_iff.mpr (show sampleTask.str = sampleSketch.atpMetadata.taskId from rfl),
      Set.pair_eq_singleton]
    exact Set.injOn_singleton _ _
  obtain ⟨payload, log, consistent⟩ :=
    createCommit_selfConsistent_iff readsIso_minuteLibrary injective acceptingWorld []
  exact ⟨payload, log, consistent.mpr ⟨rfl, by decide⟩⟩

theorem sampleCommit_inconsistent :
    ∃ payload, ((createCommit sampleClient "s".toList "another-task".toList
        sampleSketch).run acceptingWorld []).log =
          [.send (postRequest "/api/v1/commit" payload)] ∧
      ¬ SelfConsistent minuteLibrary payload := by
  obtain ⟨proofHash, hash, log⟩ := createCommit_log sampleClient "s".toList
    "another-task".toList sampleSketch acceptingWorld []
  refine ⟨_, log, ?_⟩
  rw [selfConsistent_commitPayload readsIso_minuteLibrary, computeProofHash, ← hash]
  have differ : (computeSha256 (sketchMessage
        (sampleClient.completed "s".toList sampleSketch))).toOption ≠
      (computeSha256 (sentMessage sampleClient "s".toList "another-task".toList
        sampleSketch)).toOption := by
    decide +kernel
  exact fun both => differ (congrArg Except.toOption both.2)

end Payload

end AgentTrust.CommitPayload
