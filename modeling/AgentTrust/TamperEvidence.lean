import AgentTrust.SignedCommit

/-! What a signature accepted by the client binds. The signed message is read back
from both ends and the proof hash in it names the fields of the sketch; the list of
dependencies is never hashed again, so only its stored hash is bound. -/

namespace AgentTrust.TamperEvidence

open JsonTree JsonTree.Json TextCode PyText PyJson Gregorian PyDateTime IsoFormat OrderedDict
  PyValue Sha256 Models Hashing Effects Exchange Client ProofHash SignedCommit

section Messages

def fieldsOf (s : ProofSketchOf PyStr) : ProofFields where
  systemUri := s.atpMetadata.systemUri
  taskId := s.atpMetadata.taskId
  invocationHash := s.cryptography.invocationHash
  outcomeHash := s.cryptography.outcomeHash
  dependenciesHash := s.cryptography.dependenciesHash
  timestamp := s.timestamp

theorem message_fieldsOf (s : ProofSketchOf PyStr) : (fieldsOf s).message = sketchMessage s := by
  have given : s.cryptography.dependenciesHash.map PyString.py = s.cryptography.dependenciesHash :=
    Option.map_id'
  rw [sketchMessage, given]
  rfl

theorem pipe_not_mem_isoformat (d : DateTime) : '|' ∉ isoformat d := by
  have clock : ∀ {l : Text}, (∀ c ∈ l, clockChar c) → '|' ∉ l := fun chars h =>
    absurd (chars _ h) (by decide)
  have zone : ∀ o : Offset, '|' ∉ offsetText o := by
    intro o h
    rcases List.mem_cons.mp h with sign | h
    · split at sign <;> simp at sign
    · exact clock (zoneText_chars _) h
  rw [isoformat, List.mem_append, List.mem_append]
  rintro (h | h | h)
  · exact pipe_not_mem_secondsText _ h
  · exact clock (microText_chars _) h
  · split at h
    · exact zone _ h
    · simp at h

theorem pipe_not_mem_sha256 (t : Text) : '|' ∉ sha256 t := fun h =>
  absurd (hex_of_mem_sha256 h) (by decide)

theorem pipe_not_mem_raw {t : Text} (absent : '|' ∉ t) : pipe ∉ raw t := fun h => by
  obtain ⟨c, hc, same⟩ := List.mem_map.mp h
  exact absent (ofChar_injective same ▸ hc)

theorem Uuid.str_injective : Function.Injective Uuid.str := by
  intro a b same
  apply Option.some.inj
  rw [← Uuid.parse_str (fun _ => none) a, ← Uuid.parse_str (fun _ => none) b, same]

theorem signatureMessage_inj {c d : Commit} {m n : Text} {t u : DateTime}
    (same : signatureMessage c (sha256 m) t = signatureMessage d (sha256 n) u) :
    c.id = d.id ∧ c.taskId = d.taskId ∧ c.systemId = d.systemId ∧ sha256 m = sha256 n ∧ t = u := by
  obtain ⟨id, rest⟩ := List.append_inj same (by simp [raw])
  obtain ⟨task, rest⟩ := List.append_inj (List.cons.inj rest).2 (by simp [raw])
  have rest := (List.cons.inj rest).2
  rw [← List.cons_append, ← List.append_assoc, ← List.cons_append, ← List.append_assoc] at rest
  obtain ⟨rest, time⟩ := append_sep_inj_last (pipe_not_mem_raw (pipe_not_mem_isoformat t))
    (pipe_not_mem_raw (pipe_not_mem_isoformat u)) rest
  obtain ⟨system, hash⟩ := append_sep_inj_last (pipe_not_mem_raw (pipe_not_mem_sha256 m))
    (pipe_not_mem_raw (pipe_not_mem_sha256 n)) rest
  exact ⟨Uuid.str_injective (raw_injective id), Uuid.str_injective (raw_injective task), system,
    raw_injective hash, isoformat_injective (raw_injective time)⟩

end Messages

section Rivals

def hexHash (h : PyStr) : Bool := prefixedHash (hexChars ++ "ABCDEF".toList) h

/-- Well-formed hash fields, free-form fields without `|`, a timestamp in UTC. -/
structure WellFormedSketch (s : ProofSketchOf PyStr) : Prop where
  invocationHash : hexHash (fieldsOf s).invocationHash
  outcomeHash : hexHash (fieldsOf s).outcomeHash
  dependencies : ∀ h ∈ (fieldsOf s).dependencies, hexHash h
  systemUri : pipe ∉ (fieldsOf s).systemUri
  taskId : pipe ∉ (fieldsOf s).taskId
  utc : s.timestamp.offset = some utcOffset

/-- Equal in everything that the signature is to bind, the dependency list apart. -/
structure Agree (c d : Commit) : Prop where
  id : c.id = d.id
  taskId : c.taskId = d.taskId
  systemId : c.systemId = d.systemId
  catalogedAt : c.catalogedAt = d.catalogedAt
  sketch : (fieldsOf c.proofSketch).Same (fieldsOf d.proofSketch)

/-- Another well-formed commit accepted with the signature of `c`, without a SHA-256
collision between the two. -/
structure Rival (sig : SignatureLib) (key : Option Text) (c d : Commit) : Prop where
  signature : d.signature = c.signature
  accepted : verifySignature sig d key = .ok true
  wellFormed : WellFormedSketch d.proofSketch
  injective : Set.InjOn computeSha256 {sketchMessage c.proofSketch, sketchMessage d.proofSketch}

/-- Equal in the canonical form that the dependencies hash is computed from. -/
def SameDependencies (c d : Commit) : Prop :=
  dependenciesText (c.proofSketch.dependencies.map .object) =
    dependenciesText (d.proofSketch.dependencies.map .object)

def TamperEvident (sig : SignatureLib) (key : Option Text) (c : Commit) : Prop :=
  ∀ d, Rival sig key c d →
    Agree c d ∧ ((fieldsOf c.proofSketch).dependencies ≠ none → SameDependencies c d)

variable {sig : SignatureLib} {key : Option Text} {c d : Commit}

theorem WellFormedSketch.delimited {s : ProofSketchOf PyStr} (wf : WellFormedSketch s) :
    (fieldsOf s).Delimited where
  invocationHash := pipe_not_mem_hash wf.invocationHash (by decide)
  outcomeHash := pipe_not_mem_hash wf.outcomeHash (by decide)
  dependencies := fun h hd => pipe_not_mem_hash (wf.dependencies h hd) (by decide)
  utc := wf.utc

theorem sha256_of_computeProofHash {s : ProofSketchOf PyStr} {hash : Text}
    (computed : computeProofHash s = .ok hash) : ∃ m, sha256 m = hash := by
  unfold computeProofHash computeSha256 at computed
  split at computed
  · next m _ => exact ⟨m, Except.ok.inj computed⟩
  · simp at computed

theorem hashes_of_accepted (one : SignatureLib.OneMessage sig)
    (signature : d.signature = c.signature) (hc : verifySignature sig c key = .ok true)
    (hd : verifySignature sig d key = .ok true) :
    c.id = d.id ∧ c.taskId = d.taskId ∧ c.systemId = d.systemId ∧ c.catalogedAt = d.catalogedAt ∧
      computeProofHash c.proofSketch = computeProofHash d.proofSketch := by
  obtain ⟨sigc, catc, hashc, hsigc, hcatc, hhashc, checkc⟩ := verifySignature_eq_true.mp hc
  obtain ⟨sigd, catd, hashd, hsigd, hcatd, hhashd, checkd⟩ := verifySignature_eq_true.mp hd
  obtain rfl : sigd = sigc := by
    rw [signature, hsigc] at hsigd
    exact (Option.some.inj hsigd).symm
  obtain ⟨m, rfl⟩ := sha256_of_computeProofHash hhashc
  obtain ⟨n, rfl⟩ := sha256_of_computeProofHash hhashd
  obtain ⟨id, task, system, hash, time⟩ :=
    signatureMessage_inj (checkSignature_message_eq one checkc checkd)
  exact ⟨id, task, system, by rw [hcatc, hcatd, time], by rw [hhashc, hhashd, hash]⟩

theorem agree_of_rival (one : SignatureLib.OneMessage sig) (wf : WellFormedSketch c.proofSketch)
    (accepted : verifySignature sig c key = .ok true) (rival : Rival sig key c d) : Agree c d := by
  obtain ⟨id, task, system, time, hash⟩ :=
    hashes_of_accepted one rival.signature accepted rival.accepted
  have message : (fieldsOf c.proofSketch).message = (fieldsOf d.proofSketch).message := by
    rw [message_fieldsOf, message_fieldsOf]
    exact rival.injective (Set.mem_insert _ _) (Set.mem_insert_of_mem _ rfl) hash
  have formula := formula_of_message wf.delimited rival.wellFormed.delimited wf.taskId
    rival.wellFormed.taskId (.inl wf.systemUri) (.inl rival.wellFormed.systemUri) message
  exact ⟨id, task, system, time, same_of_message wf.delimited rival.wellFormed.delimited formula
    wf.taskId rival.wellFormed.taskId message⟩

end Rivals

section Dependencies

variable {sig : SignatureLib} {key : Option Text} {c : Commit}

def withDependencies (c : Commit) (dependencies : List (DependencyOf PyStr)) : Commit :=
  { c with proofSketch := { c.proofSketch with dependencies } }

theorem verifySignature_withDependencies (dependencies : List (DependencyOf PyStr)) :
    verifySignature sig (withDependencies c dependencies) key = verifySignature sig c key := rfl

theorem rival_withDependencies (wf : WellFormedSketch c.proofSketch)
    (accepted : verifySignature sig c key = .ok true) (dependencies : List (DependencyOf PyStr)) :
    Rival sig key c (withDependencies c dependencies) where
  signature := rfl
  accepted := accepted
  wellFormed := ⟨wf.invocationHash, wf.outcomeHash, wf.dependencies, wf.systemUri, wf.taskId,
    wf.utc⟩
  injective := by
    have same : sketchMessage (withDependencies c dependencies).proofSketch =
        sketchMessage c.proofSketch := rfl
    rw [same, Set.pair_eq_singleton]
    exact Set.injOn_singleton _ _

theorem dependenciesText_cons_ne_nil (d : Form (DependencyOf PyStr))
    (ds : List (Form (DependencyOf PyStr))) :
    dependenciesText (d :: ds) ≠ dependenciesText ([] : List (Form (DependencyOf PyStr))) := by
  intro same
  obtain ⟨canonical, listed, text⟩ := bind_eq_ok.mp same
  rw [List.mapM_cons] at listed
  obtain ⟨v, _, rest⟩ := bind_eq_ok.mp listed
  obtain ⟨vs, _, value⟩ := bind_eq_ok.mp rest
  obtain rfl : v :: vs = canonical := Except.ok.inj value
  have wire := dumps_eq_iff.mp (Except.ok.inj text)
  simp [wireForm] at wire

def unlisted : DependencyOf PyStr where
  systemUri := some (lit "https://y/systems/t")
  taskId := lit "t"
  challengeUrl := none
  evaluations := []

theorem exists_other_dependencies (c : Commit) :
    ∃ ds, ¬ SameDependencies c (withDependencies c ds) := by
  cases list : c.proofSketch.dependencies with
  | nil =>
    refine ⟨[unlisted], fun same => ?_⟩
    rw [SameDependencies, list] at same
    exact dependenciesText_cons_ne_nil _ _ same.symm
  | cons d ds =>
    refine ⟨[], fun same => ?_⟩
    rw [SameDependencies, list] at same
    exact dependenciesText_cons_ne_nil _ _ same

/-- An accepted signature binds every field but the dependency list, which can be
replaced at will; so it is tamper evident exactly for commits without a
dependencies hash. -/
theorem tamperEvident_iff_legacy (one : SignatureLib.OneMessage sig)
    (wf : WellFormedSketch c.proofSketch) (accepted : verifySignature sig c key = .ok true) :
    (∀ d, Rival sig key c d → Agree c d) ∧
    (∀ ds, verifySignature sig (withDependencies c ds) key = .ok true) ∧
    (TamperEvident sig key c ↔ (fieldsOf c.proofSketch).dependencies = none) := by
  refine ⟨fun d => agree_of_rival one wf accepted,
    fun ds => (verifySignature_withDependencies ds).trans accepted, ?_, ?_⟩
  · intro evident
    by_contra present
    obtain ⟨ds, other⟩ := exists_other_dependencies c
    exact other ((evident _ (rival_withDependencies wf accepted ds)).2 present)
  · intro legacy d rival
    exact ⟨agree_of_rival one wf accepted rival, fun present => absurd legacy present⟩

def offsetSignature : Text :=
  "2zwY4cA4WAEABPzeZ3UXGVrP4hjbQYKPBTR8mjiAF2cWZrRWxvwE5kxJTRKhZrZv3ccg7A6h42M5wCxkoSitvP81".toList

def offsetCommit : Commit where
  id := sampleId
  systemId := lit "s"
  organizationId := none
  taskId := sampleTask
  proofSketch := sampleSketch.python
  status := .confirmed
  signature := some (raw offsetSignature)
  catalogedAt := some noon
  createdAt := noon
  blockchainSignature := none
  blockchainConfirmedAt := none
  blockchainProvider := none
  blockchainCatalogUrl := none
  classificationOccupation := none
  classificationCapabilities := none
  classificationWorkActivities := none
  classificationDescription := none

def offsetLib : SignatureLib := sampleLib (isoformat noon) offsetSignature
  ("63fb84392ae8ff419d391c6d9a482702fafee4e553ad673dd0049b3103014dd5" ++
    "f9fcb7ef65495860f16c16cb5e1abe7c65219f76b83850889d7bbfd058439a06").toList

theorem offsetCommit_accepted :
    verifySignature offsetLib offsetCommit (some exchangeKey) = .ok true := by
  have message : signatureMessage offsetCommit sampleProofHash noon =
      raw (signedMessage sampleId sampleTask "s".toList sampleProofHash (isoformat noon)) := by
    simp [signatureMessage, signedMessage, raw, pipe, offsetCommit, lit]
  refine verifySignature_eq_true.mpr ⟨raw offsetSignature, noon, sampleProofHash,
    Option.filter_eq_some_iff.mpr ⟨rfl, by decide⟩, rfl, computeProofHash_sample, ?_⟩
  rw [message]
  exact checkSignature_oneSignature _ (by decide) (by decide)

theorem sampleSketch_wellFormed : WellFormedSketch sampleSketch.python where
  invocationHash := by decide
  outcomeHash := by decide
  dependencies := by
    intro h used
    obtain rfl := Option.some.inj (Option.mem_filter_iff.mp used).1
    exact prefixedHash_sha256 (fun c hc => List.mem_append_left _ hc) _
  systemUri := by decide
  taskId := by decide
  utc := rfl

/-- A commit without dependencies is still accepted once one is added. -/
theorem dependencies_replaced :
    WellFormedSketch offsetCommit.proofSketch ∧
    (fieldsOf offsetCommit.proofSketch).dependencies ≠ none ∧
    verifySignature offsetLib offsetCommit (some exchangeKey) = .ok true ∧
    verifySignature offsetLib (withDependencies offsetCommit [unlisted]) (some exchangeKey) =
      .ok true ∧
    ¬ SameDependencies offsetCommit (withDependencies offsetCommit [unlisted]) :=
  ⟨sampleSketch_wellFormed, by decide, offsetCommit_accepted, offsetCommit_accepted,
    fun same => dependenciesText_cons_ne_nil _ _ same.symm⟩

theorem not_tamperEvident_offset : ¬ TamperEvident offsetLib (some exchangeKey) offsetCommit := by
  obtain ⟨_, _, exact_when⟩ := tamperEvident_iff_legacy (oneMessage_oneSignature _ _ _ _ _)
    sampleSketch_wellFormed offsetCommit_accepted
  exact fun evident => absurd (exact_when.mp evident) (by decide)

end Dependencies

end AgentTrust.TamperEvidence
