import AgentTrust.Models

/-! Content hashes, the dependencies hash and the ephemeral proof hash. Each is
SHA-256 of a text; the text is a definition of its own, so that what a hash binds is
a statement about texts, and an equality of hashes is one of texts wherever SHA-256
does not collide. -/

namespace AgentTrust.Hashing

open JsonTree JsonTree.Json PyText PyJson PyDateTime OrderedDict PyValue Sha256 Models

section Content

def utf8 (t : Text) : List UInt8 := t.flatMap String.utf8EncodeChar

def sha256 (t : Text) : Text := hexdigest (utf8 t)

def computeSha256 (data : PyStr) : Except Exc Text :=
  match encode data with
  | some t => .ok (sha256 t)
  | none => .error (foreign .valueError)

theorem utf8_injective : Function.Injective utf8 := by
  intro a b same
  have bytes : (String.ofList a).toByteArray = (String.ofList b).toByteArray := by
    rw [String.toByteArray_ofList, String.toByteArray_ofList]
    unfold utf8 at same
    unfold List.utf8Encode
    rw [same]
  exact String.ofList_inj.mp (String.toByteArray_inj.mp bytes)

def hashedString : JsonValue → PyStr
  | .str s => s
  | .obj fields => raw (dumps (.obj fields))
  | .arr xs => raw (dumps (.arr xs))
  | v => raw (atomText v)

def computeDataHash (data : JsonValue) : Except Exc Text := computeSha256 (hashedString data)

def hashPrefix : Text := "sha256:".toList

def hashWithPrefix (data : JsonValue) : Except Exc Text :=
  (computeDataHash data).map fun h => hashPrefix ++ h

def contentHash (c : Content) : Text := hashPrefix ++ sha256 (dumps (.obj c))

@[simp] theorem sha256_length (t : Text) : (sha256 t).length = 64 := hexdigest_length _

theorem hex_of_mem_sha256 {t : Text} {c : Char} (h : c ∈ sha256 t) : c ∈ hexChars :=
  hex_of_mem_hexdigest h

@[simp] theorem hashWithPrefix_obj (c : Content) :
    hashWithPrefix (.obj c) = .ok (contentHash c) := by
  simp [hashWithPrefix, computeDataHash, hashedString, computeSha256, contentHash, Except.map]

theorem contentHash_eq_iff {c d : Content} :
    contentHash c = contentHash d ↔ sha256 (dumps (.obj c)) = sha256 (dumps (.obj d)) :=
  List.append_right_inj _

end Content

section Dependencies

variable {σ : Type} [PyString σ]

def formatDatetimeRfc3339nano (dt : DateTime) : Except Exc Text :=
  match dt.utcWall with
  | some w => .ok (zuluText w)
  | none => .error (foreign .overflowError)

/-- A model instance or the dict it travels as. -/
inductive Form (α : Type) where
  | object (a : α)
  | dict (v : JsonValue)

/-- `d[k] = v` where `present`, with the entries of a new dict in order. -/
def entry (present : Bool) (k : String) (v : JsonValue) : List (String × JsonValue) :=
  if present then [(k, v)] else []

def depEvalToCanonical : Form (DependencyEvaluationOf σ) → Except Exc JsonValue
  | .dict (.obj fields) => do
    let ev : JsonValue := .obj fields
    let type ← getItem "evaluation_type" ev
    let policy ← getOr "evaluation_policy" .null ev
    let result ← getItem "evaluation_result" ev
    let evaluatedAt ← getItem "evaluated_at" ev
    return record (("evaluation_type", type) ::
      (entry (truthy policy) "evaluation_policy" policy ++
        [("evaluation_result", result), ("evaluated_at", evaluatedAt)]))
  | .dict _ => .error (foreign .attributeError)
  | .object ev => do
    let evaluatedAt ← formatDatetimeRfc3339nano ev.evaluatedAt
    let policy := opt literal ev.evaluationPolicy
    return record (("evaluation_type", literal ev.evaluationType) ::
      (entry (truthy policy) "evaluation_policy" policy ++
        [("evaluation_result", literal ev.evaluationResult), ("evaluated_at", text evaluatedAt)]))

/-- `for ev in evals` over what `dep.get("evaluations") or []` can be. -/
def iterate : JsonValue → Except Exc (List JsonValue)
  | .arr xs => .ok xs
  | .obj fields => .ok (fields.map fun p => .str p.1)
  | .str s => .ok (s.map fun c => .str [c])
  | _ => .error (foreign .typeError)

def depToCanonical : Form (DependencyOf σ) → Except Exc JsonValue
  | .dict (.obj fields) => do
    let dep : JsonValue := .obj fields
    let systemUri ← getItem "system_uri" dep
    let taskId ← getItem "task_id" dep
    let stored ← getOr "evaluations" .null dep
    let evals ← if truthy stored then iterate stored else .ok []
    let evaluations ← evals.mapM fun ev => depEvalToCanonical (σ := σ) (.dict ev)
    return record (("system_uri", systemUri) :: ("task_id", taskId) ::
      entry (evals ≠ []) "evaluations" (.arr evaluations))
  | .dict _ => .error (foreign .attributeError)
  | .object dep => do
    let evaluations ← dep.evaluations.mapM fun ev => depEvalToCanonical (.object ev)
    return record (("system_uri", opt literal dep.systemUri) :: ("task_id", literal dep.taskId) ::
      entry (dep.evaluations ≠ []) "evaluations" (.arr evaluations))

def dependenciesText (dependencies : List (Form (DependencyOf σ))) : Except Exc Text := do
  let canonical ← dependencies.mapM depToCanonical
  return dumps (.arr canonical)

def computeDependenciesHash (dependencies : List (Form (DependencyOf σ))) : Except Exc Text :=
  (dependenciesText dependencies).map fun canonical => hashPrefix ++ sha256 canonical

theorem depEvalToCanonical_python (e : DependencyEvaluationOf σ) :
    depEvalToCanonical (.object e.python) = depEvalToCanonical (.object e) := by
  simp only [depEvalToCanonical, DependencyEvaluationOf.python, opt_map]
  rfl

theorem depToCanonical_python (d : DependencyOf σ) :
    depToCanonical (.object d.python) = depToCanonical (.object d) := by
  have evaluations : (d.python.evaluations.mapM fun e => depEvalToCanonical (.object e)) =
      d.evaluations.mapM fun e => depEvalToCanonical (.object e) := by
    rw [DependencyOf.python, List.mapM_map]
    exact congrArg (d.evaluations.mapM ·) (funext depEvalToCanonical_python)
  have present : d.python.evaluations ≠ [] ↔ d.evaluations ≠ [] := by
    simp [DependencyOf.python]
  simp only [depToCanonical, evaluations, present]
  simp only [DependencyOf.python, opt_map]
  rfl

theorem computeDependenciesHash_python (ds : List (DependencyOf σ)) :
    computeDependenciesHash (ds.map fun d => .object d.python) =
      computeDependenciesHash (ds.map .object) := by
  have canonical : (ds.map fun d => Form.object d.python).mapM depToCanonical =
      (ds.map Form.object).mapM depToCanonical := by
    rw [List.mapM_map, List.mapM_map]
    exact congrArg (ds.mapM ·) (funext depToCanonical_python)
  rw [computeDependenciesHash, dependenciesText, canonical]
  rfl

end Dependencies

section ProofHash

def timestampText (timestamp : DateTime) : Text := zuluText timestamp.wall

def pipe : CodePoint := ofChar '|'

/-- The message of `_compute_proof_hash_parts`: with the dependencies hash, or the
legacy formula when it is absent or empty. -/
def proofMessage (systemUri taskId invocationHash outcomeHash : PyStr)
    (dependenciesHash : Option PyStr) (timestamp : DateTime) : PyStr :=
  let ts := raw (timestampText timestamp)
  match dependenciesHash.filter (· ≠ []) with
  | some h => systemUri ++ pipe :: (taskId ++ pipe :: (invocationHash ++ pipe ::
      (outcomeHash ++ pipe :: (h ++ pipe :: ts))))
  | none => systemUri ++ pipe :: (taskId ++ pipe :: (invocationHash ++ pipe ::
      (outcomeHash ++ pipe :: ts)))

def computeProofHashParts (systemUri taskId invocationHash outcomeHash : PyStr)
    (dependenciesHash : Option PyStr) (timestamp : DateTime) : Except Exc Text :=
  computeSha256
    (proofMessage systemUri taskId invocationHash outcomeHash dependenciesHash timestamp)

theorem computeProofHashParts_eq_ok (systemUri taskId invocationHash outcomeHash : Text)
    (dependenciesHash : Option Text) (timestamp : DateTime) :
    ∃ t, encode (proofMessage (raw systemUri) (raw taskId) (raw invocationHash) (raw outcomeHash)
        (dependenciesHash.map raw) timestamp) = some t ∧
      computeProofHashParts (raw systemUri) (raw taskId) (raw invocationHash) (raw outcomeHash)
        (dependenciesHash.map raw) timestamp = .ok (sha256 t) := by
  have scalar : scalarText (proofMessage (raw systemUri) (raw taskId) (raw invocationHash)
      (raw outcomeHash) (dependenciesHash.map raw) timestamp) := by
    have separator : isScalar pipe := isScalar_ofChar '|'
    unfold proofMessage
    dsimp only
    split
    · next h used =>
      obtain ⟨t, _, rfl⟩ := Option.map_eq_some_iff.mp (Option.mem_filter_iff.mp used).1
      simp [separator]
    · simp [separator]
  obtain ⟨t, encoded, _⟩ := encode_eq_some scalar
  exact ⟨t, encoded, by rw [computeProofHashParts, computeSha256, encoded]⟩

section Sketches

variable {σ : Type} [PyString σ]

def sketchMessage (s : ProofSketchOf σ) : PyStr :=
  proofMessage (PyString.py s.atpMetadata.systemUri) (PyString.py s.atpMetadata.taskId)
    (PyString.py s.cryptography.invocationHash) (PyString.py s.cryptography.outcomeHash)
    (s.cryptography.dependenciesHash.map PyString.py) s.timestamp

def computeProofHash (s : ProofSketchOf σ) : Except Exc Text := computeSha256 (sketchMessage s)

theorem sketchMessage_python (s : ProofSketchOf σ) : sketchMessage s.python = sketchMessage s := by
  rw [sketchMessage, sketchMessage, ProofSketchOf.python, CryptographyOf.python, Option.map_map]
  rfl

end Sketches

theorem computeProofHash_eq_ok (s : ProofSketch) :
    ∃ t, encode (sketchMessage s) = some t ∧ computeProofHash s = .ok (sha256 t) :=
  computeProofHashParts_eq_ok _ _ _ _ _ _

end ProofHash

end AgentTrust.Hashing
