import AgentTrust.PyValue
import AgentTrust.IsoFormat
import AgentTrust.Sha256

/-! The data models: their fields, the JSON a dump writes and the validation that
reads it. Unknown keys are ignored; a failed validation is one `ValueError`. A `str` field
takes any Python string; a model of `Text`s is one whose strings have a UTF-8 form, as those
have that are written to a database or read from JSON text. A datetime is dumped by the
encoder every model is configured with, `isoformat`. How a datetime field reads JSON is the
validation library's own, as are `json.loads`, `==` on dicts, their `repr` and the values
that it writes. -/

namespace AgentTrust.Models

open JsonTree JsonTree.Json PyText PyJson Gregorian PyDateTime IsoFormat OrderedDict PyValue
  Sha256

/-- Why a text is not read as JSON: it is none, or it is nested too deeply. -/
inductive Unread where
  | malformed
  | tooDeep

def Unread.exc : Unread → Exc
  | .malformed => foreign .valueError
  | .tooDeep => foreign .recursionError

/-- Services outside the program that its functions call by name. `decimal` is the value of
a decimal digit that is not ASCII; `dumpable` holds where `model_dump(mode="json")` raises
nothing; `nesting` is how many levels of arrays and objects `parseJson` reads. -/
structure Library where
  reprContainer : JsonValue → PyStr
  equal : JsonValue → JsonValue → Bool
  loads : PyStr → Except Unread JsonValue
  datetimeField : JsonValue → Option DateTime
  dumpable : JsonValue → Bool
  dumpJson : JsonValue → Option Text
  parseJson : Text → Option JsonValue
  nesting : Nat
  decimal : CodePoint → Option (Fin 10)

section Strings

/-- A kind of Python strings, with the strings that it takes. -/
class PyString (σ : Type) where
  py : σ → PyStr
  read : PyStr → Option σ
  ofText : Text → σ
  read_py : ∀ s, read (py s) = some s

instance : PyString PyStr := ⟨id, some, raw, fun _ => rfl⟩

instance : PyString Text := ⟨raw, encode, id, encode_raw⟩

end Strings

section Fields

variable {α σ : Type} [PyString σ]

theorem lit_inj {s t : String} : lit s = lit t ↔ s = t := by
  constructor
  · intro same
    exact String.toList_inj.mp (raw_injective same)
  · rintro rfl
    rfl

def text (t : Text) : JsonValue := .str (raw t)

def literal (s : σ) : JsonValue := .str (PyString.py s)

@[simp] theorem literal_text : (literal : Text → JsonValue) = text := rfl

@[simp] theorem literal_pyStr (s : PyStr) : literal s = .str s := rfl

def opt (f : α → JsonValue) : Option α → JsonValue
  | none => .null
  | some a => f a

def list (f : α → JsonValue) (xs : List α) : JsonValue := .arr (xs.map f)

def date (d : DateTime) : JsonValue := text (isoformat d)

def record (fields : List (String × JsonValue)) : JsonValue :=
  .obj (fields.map fun p => (lit p.1, p.2))

theorem nodup_record {fields : List (String × JsonValue)} (keys : (fields.map Prod.fst).Nodup) :
    ((fields.map fun p => (lit p.1, p.2)).map Prod.fst).Nodup := by
  rw [List.map_map]
  have lits : (fields.map Prod.fst).map lit = fields.map (Prod.fst ∘ fun p => (lit p.1, p.2)) :=
    List.map_map
  exact lits ▸ keys.map fun _ _ => lit_inj.mp

theorem lookup_lit (k : String) (fields : List (String × JsonValue)) :
    lookup (lit k) (fields.map fun p => (lit p.1, p.2)) = lookup k fields := by
  induction fields with
  | nil => rfl
  | cons p fields ih =>
    rw [List.map_cons, lookup_cons, lookup_cons, ih]
    simp only [lit_inj]

theorem lookup_of_sortKeys_eq {fs gs : List (String × JsonValue)}
    (same : sortKeys keyLe (record fs) = sortKeys keyLe (record gs))
    (hf : (fs.map Prod.fst).Nodup) (hg : (gs.map Prod.fst).Nodup) (k : String) :
    (lookup k fs).map (sortKeys keyLe) = (lookup k gs).map (sortKeys keyLe) := by
  have sorted : ∀ fields : List (String × JsonValue), (fields.map Prod.fst).Nodup →
      lookup (lit k) (sortFields keyLe ((fields.map fun p => (lit p.1, p.2)).map fun p =>
        (p.1, sortKeys keyLe p.2))) = (lookup k fields).map (sortKeys keyLe) := by
    intro fields keys
    have nodup : (((fields.map fun p => (p.1, sortKeys keyLe p.2)).map fun p =>
        (lit p.1, p.2)).map Prod.fst).Nodup :=
      nodup_record (by simpa [Function.comp_def] using keys)
    rw [← lookup_perm (sortFields_perm keyLe _).symm (by simpa [Function.comp_def] using nodup),
      lookup_mapValues, lookup_lit]
  rw [record, record, sortKeys_obj, sortKeys_obj, obj.injEq] at same
  rw [← sorted fs hf, ← sorted gs hg, same]

def asText : JsonValue → Option σ
  | .str s => PyString.read s
  | _ => none

def nullable (read : JsonValue → Option α) : JsonValue → Option (Option α)
  | .null => some none
  | v => (read v).map some

def asList (read : JsonValue → Option α) : JsonValue → Option (List α)
  | .arr xs => xs.mapM read
  | _ => none

def field (k : String) (v : JsonValue) : Option JsonValue :=
  match v with
  | .obj fields => lookup (lit k) fields
  | _ => none

def isRecord : JsonValue → Bool
  | .obj _ => true
  | _ => false

def isStr : JsonValue → Bool
  | .str _ => true
  | _ => false

theorem getItem_toOption (k : String) (v : JsonValue) : (getItem k v).toOption = field k v := by
  cases v with
  | obj fields =>
    simp only [getItem, field]
    cases lookup (lit k) fields <;> rfl
  | _ => rfl

theorem getItem_eq_ok {k : String} {v x : JsonValue} :
    getItem k v = .ok x ↔ field k v = some x := by
  rw [← getItem_toOption]
  cases getItem k v <;> simp [Except.toOption]

/-- What Python raises on a member of something that is no object. -/
structure Rigid (data : JsonValue) : Prop where
  item : ∀ k, getItem k data = .error (foreign .typeError)
  member : ∀ k default, getOr k default data = .error (foreign .attributeError)
  contained : ∀ k, contains k data = .error (foreign .typeError) ∨ ∃ b, contains k data = .ok b

theorem rigid_of_not_record {data : JsonValue} (other : isRecord data = false) : Rigid data := by
  cases data with
  | obj fields => simp [isRecord] at other
  | null => exact ⟨fun _ => rfl, fun _ _ => rfl, fun _ => .inl rfl⟩
  | bool b => exact ⟨fun _ => rfl, fun _ _ => rfl, fun _ => .inl rfl⟩
  | int i => exact ⟨fun _ => rfl, fun _ _ => rfl, fun _ => .inl rfl⟩
  | float f => exact ⟨fun _ => rfl, fun _ _ => rfl, fun _ => .inl rfl⟩
  | str t => exact ⟨fun _ => rfl, fun _ _ => rfl, fun _ => .inr ⟨_, rfl⟩⟩
  | arr xs => exact ⟨fun _ => rfl, fun _ _ => rfl, fun _ => .inr ⟨_, rfl⟩⟩

theorem obj_of_isRecord {data : JsonValue} (record : isRecord data = true) :
    ∃ fields, data = .obj fields := by
  cases data with
  | obj fields => exact ⟨fields, rfl⟩
  | _ => simp [isRecord] at record

theorem getOr_record {data : JsonValue} (record : isRecord data = true) (k : String)
    (default : JsonValue) : getOr k default data = .ok ((field k data).getD default) := by
  obtain ⟨fields, rfl⟩ := obj_of_isRecord record
  rfl

def required (k : String) (read : JsonValue → Option α) (v : JsonValue) : Option α :=
  (field k v).bind read

def optional (k : String) (read : JsonValue → Option α) (default : α) (v : JsonValue) : Option α :=
  match field k v with
  | some x => read x
  | none => if isRecord v then some default else none

/-- `dict[str, Any]`: the values are not looked at. -/
abbrev Content := List (PyStr × JsonValue)

def asContent : JsonValue → Option Content
  | .obj fields => some fields
  | _ => none

@[simp] theorem field_record_cons (k l : String) (v : JsonValue)
    (fields : List (String × JsonValue)) :
    field k (record ((l, v) :: fields)) = if l = k then some v else field k (record fields) := by
  simp only [record, field, List.map_cons, lookup_cons, lit_inj]

@[simp] theorem getItem_record_cons (k l : String) (v : JsonValue)
    (fields : List (String × JsonValue)) :
    getItem k (record ((l, v) :: fields)) =
      if l = k then .ok v else getItem k (record fields) := by
  simp only [record, getItem, List.map_cons, lookup_cons, lit_inj]
  by_cases same : l = k
  · simp only [if_pos same]
  · simp only [if_neg same]

@[simp] theorem getOr_record_cons (k l : String) (default v : JsonValue)
    (fields : List (String × JsonValue)) :
    getOr k default (record ((l, v) :: fields)) =
      if l = k then .ok v else getOr k default (record fields) := by
  simp only [record, getOr, List.map_cons, lookup_cons, lit_inj]
  by_cases same : l = k
  · simp only [if_pos same, Option.getD_some]
  · simp only [if_neg same]

@[simp] theorem getOr_record_nil (k : String) (default : JsonValue) :
    getOr k default (record []) = .ok default := rfl

@[simp] theorem isRecord_record (fields : List (String × JsonValue)) :
    isRecord (record fields) = true := rfl

@[simp] theorem asText_literal (s : σ) : asText (literal s) = some s := PyString.read_py s

@[simp] theorem asText_text (t : Text) : asText (text t) = some t := encode_raw t

@[simp] theorem asText_str (s : PyStr) : asText (.str s) = some s := rfl

@[simp] theorem asText_raw (t : Text) : asText (text t) = some (raw t) := rfl

theorem nullable_opt {f : α → JsonValue} {read : JsonValue → Option α} {x : Option α}
    (some_ne : ∀ a, f a ≠ .null) (h : ∀ a ∈ x, read (f a) = some a) :
    nullable read (opt f x) = some x := by
  cases x with
  | none => rfl
  | some a =>
    have present := some_ne a
    have value := h a rfl
    unfold nullable opt
    split
    · next same => exact absurd same present
    · rw [value]
      rfl

@[simp] theorem nullable_literal (x : Option σ) : nullable asText (opt literal x) = some x :=
  nullable_opt (fun _ => by simp [literal]) fun _ _ => asText_literal _

@[simp] theorem nullable_text (x : Option Text) : nullable asText (opt text x) = some x :=
  nullable_literal x

theorem asList_list {f : α → JsonValue} {read : JsonValue → Option α} {xs : List α}
    (h : ∀ a ∈ xs, read (f a) = some a) : asList read (list f xs) = some xs := by
  unfold asList list
  dsimp only
  induction xs with
  | nil => rfl
  | cons a xs ih =>
    rw [List.map_cons, List.mapM_cons, h a (by simp), ih fun b hb => h b (by simp [hb])]
    rfl

@[simp] theorem asList_literal (xs : List σ) : asList asText (list literal xs) = some xs :=
  asList_list fun _ _ => asText_literal _

@[simp] theorem scalarStrings_null : scalarStrings .null = true := rfl

@[simp] theorem scalarStrings_text (t : Text) : scalarStrings (text t) = true := by
  simp [scalarStrings, text]

@[simp] theorem scalarStrings_date (d : DateTime) : scalarStrings (date d) = true :=
  scalarStrings_text _

@[simp] theorem scalarStrings_lit (s : String) : scalarStrings (.str (lit s)) = true :=
  scalarStrings_text s.toList

@[simp] theorem scalarStrings_optText (x : Option Text) :
    scalarStrings (opt text x) = true := by
  cases x with
  | none => rfl
  | some t => exact scalarStrings_text t

theorem scalarStrings_list {α : Type} {f : α → JsonValue} {xs : List α}
    (h : ∀ a ∈ xs, scalarStrings (f a)) : scalarStrings (list f xs) := by
  rw [scalarStrings, list, stringsAll_arr, List.all_map, List.all_eq_true]
  exact h

theorem scalarStrings_record {fields : List (String × JsonValue)}
    (h : ∀ p ∈ fields, scalarStrings p.2) : scalarStrings (record fields) := by
  rw [scalarStrings, record, stringsAll_obj, List.all_map, List.all_eq_true]
  intro p hp
  rw [Function.comp_apply, Bool.and_eq_true]
  exact ⟨scalarText_raw p.1.toList, h p hp⟩

end Fields

section Sketches

variable {σ : Type} [PyString σ]

structure OntologyOf (σ : Type) where
  ontologyVersion : Option σ
  ontologyUri : σ
  occupation : Option σ
  workActivities : List σ
  capabilities : List σ

def OntologyOf.dump (o : OntologyOf σ) : JsonValue := record
  [("ontology_version", opt literal o.ontologyVersion), ("ontology_uri", literal o.ontologyUri),
   ("occupation", opt literal o.occupation), ("work_activities", list literal o.workActivities),
   ("capabilities", list literal o.capabilities)]

def OntologyOf.validate (v : JsonValue) : Option (OntologyOf σ) := do
  return ⟨← optional "ontology_version" (nullable asText) none v,
    ← required "ontology_uri" asText v,
    ← optional "occupation" (nullable asText) none v,
    ← optional "work_activities" (asList asText) [] v,
    ← optional "capabilities" (asList asText) [] v⟩

structure CapabilityOf (σ : Type) where
  description : Option σ
  ontology : OntologyOf σ

def CapabilityOf.dump (c : CapabilityOf σ) : JsonValue := record
  [("description", opt literal c.description), ("ontology", c.ontology.dump)]

def CapabilityOf.validate (v : JsonValue) : Option (CapabilityOf σ) := do
  return ⟨← optional "description" (nullable asText) none v,
    ← required "ontology" OntologyOf.validate v⟩

abbrev Capability := CapabilityOf Text

def defaultClassification : Capability where
  description := some "General question-answering task (SDK default)".toList
  ontology :=
    { ontologyVersion := none
      ontologyUri := "https://agenttrustprotocol.org/ontology/v0.2.0".toList
      occupation := none
      workActivities := []
      capabilities := ["question-answering".toList] }

structure ATPMetadataOf (σ : Type) where
  specVersion : σ
  specUri : Option σ
  systemUri : σ
  systemType : σ
  taskId : σ
  classification : Option (CapabilityOf σ)

def ATPMetadataOf.dump (m : ATPMetadataOf σ) : JsonValue := record
  [("spec_version", literal m.specVersion), ("spec_uri", opt literal m.specUri),
   ("system_uri", literal m.systemUri), ("system_type", literal m.systemType),
   ("task_id", literal m.taskId), ("classification", opt CapabilityOf.dump m.classification)]

def ATPMetadataOf.validate (v : JsonValue) : Option (ATPMetadataOf σ) := do
  return ⟨← required "spec_version" asText v, ← optional "spec_uri" (nullable asText) none v,
    ← required "system_uri" asText v, ← required "system_type" asText v,
    ← required "task_id" asText v,
    ← optional "classification" (nullable CapabilityOf.validate) none v⟩

structure DependencyEvaluationOf (σ : Type) where
  evaluationType : σ
  evaluationPolicy : Option σ
  evaluationResult : σ
  evaluatedAt : DateTime

def DependencyEvaluationOf.dump (e : DependencyEvaluationOf σ) : JsonValue := record
  [("evaluation_type", literal e.evaluationType),
   ("evaluation_policy", opt literal e.evaluationPolicy),
   ("evaluation_result", literal e.evaluationResult), ("evaluated_at", date e.evaluatedAt)]

def DependencyEvaluationOf.validate (lib : Library) (v : JsonValue) :
    Option (DependencyEvaluationOf σ) := do
  return ⟨← required "evaluation_type" asText v,
    ← optional "evaluation_policy" (nullable asText) none v,
    ← required "evaluation_result" asText v, ← required "evaluated_at" lib.datetimeField v⟩

structure DependencyOf (σ : Type) where
  systemUri : Option σ
  taskId : σ
  challengeUrl : Option σ
  evaluations : List (DependencyEvaluationOf σ)

def DependencyOf.dump (d : DependencyOf σ) : JsonValue := record
  [("system_uri", opt literal d.systemUri), ("task_id", literal d.taskId),
   ("challenge_url", opt literal d.challengeUrl),
   ("evaluations", list DependencyEvaluationOf.dump d.evaluations)]

def DependencyOf.validate (lib : Library) (v : JsonValue) : Option (DependencyOf σ) := do
  return ⟨← optional "system_uri" (nullable asText) none v, ← required "task_id" asText v,
    ← optional "challenge_url" (nullable asText) none v,
    ← optional "evaluations" (asList (DependencyEvaluationOf.validate lib)) [] v⟩

structure CryptographyOf (σ : Type) where
  algorithm : σ
  invocationHash : σ
  outcomeHash : σ
  dependenciesHash : Option σ

def CryptographyOf.dump (c : CryptographyOf σ) : JsonValue := record
  [("algorithm", literal c.algorithm), ("invocation_hash", literal c.invocationHash),
   ("outcome_hash", literal c.outcomeHash), ("dependencies_hash", opt literal c.dependenciesHash)]

def CryptographyOf.validate (v : JsonValue) : Option (CryptographyOf σ) := do
  return ⟨← optional "algorithm" asText (PyString.ofText "SHA-256".toList) v,
    ← required "invocation_hash" asText v, ← required "outcome_hash" asText v,
    ← optional "dependencies_hash" (nullable asText) none v⟩

structure ProofSketchOf (σ : Type) where
  atpMetadata : ATPMetadataOf σ
  dependencies : List (DependencyOf σ)
  cryptography : CryptographyOf σ
  timestamp : DateTime

def ProofSketchOf.dump (s : ProofSketchOf σ) : JsonValue := record
  [("atp_metadata", s.atpMetadata.dump), ("dependencies", list DependencyOf.dump s.dependencies),
   ("cryptography", s.cryptography.dump), ("timestamp", date s.timestamp)]

def ProofSketchOf.validate (lib : Library) (v : JsonValue) : Option (ProofSketchOf σ) := do
  return ⟨← required "atp_metadata" ATPMetadataOf.validate v,
    ← optional "dependencies" (asList (DependencyOf.validate lib)) [] v,
    ← required "cryptography" CryptographyOf.validate v,
    ← required "timestamp" lib.datetimeField v⟩

abbrev DependencyEvaluation := DependencyEvaluationOf Text

abbrev Dependency := DependencyOf Text

abbrev ProofSketch := ProofSketchOf Text

end Sketches

section Proofs

variable {σ : Type} [PyString σ]

inductive ATPTrustLevel where
  | trusted
  | verified
  | untrusted
  | unverified

def ATPTrustLevel.value : ATPTrustLevel → String
  | .trusted => "Trusted"
  | .verified => "Verified"
  | .untrusted => "Untrusted"
  | .unverified => "Unverified"

def ATPTrustLevel.validate : JsonValue → Option ATPTrustLevel
  | .str s =>
    if s = lit "Trusted" then some .trusted
    else if s = lit "Verified" then some .verified
    else if s = lit "Untrusted" then some .untrusted
    else if s = lit "Unverified" then some .unverified
    else none
  | _ => none

structure ProofDataTaskOf (σ : Type) where
  systemUri : σ
  systemType : σ
  taskId : σ
  invocation : Content
  invocationHash : σ
  outcome : Content
  outcomeHash : σ
  timestamp : DateTime
  trustLevel : ATPTrustLevel

def ProofDataTaskOf.dump (t : ProofDataTaskOf σ) : JsonValue := record
  [("system_uri", literal t.systemUri), ("system_type", literal t.systemType),
   ("task_id", literal t.taskId), ("invocation", .obj t.invocation),
   ("invocation_hash", literal t.invocationHash), ("outcome", .obj t.outcome),
   ("outcome_hash", literal t.outcomeHash), ("timestamp", date t.timestamp),
   ("trust_level", .str (lit t.trustLevel.value))]

def ProofDataTaskOf.validate (lib : Library) (v : JsonValue) : Option (ProofDataTaskOf σ) := do
  return ⟨← required "system_uri" asText v,
    ← optional "system_type" asText (PyString.ofText "agent".toList) v,
    ← required "task_id" asText v, ← required "invocation" asContent v,
    ← required "invocation_hash" asText v, ← required "outcome" asContent v,
    ← required "outcome_hash" asText v, ← required "timestamp" lib.datetimeField v,
    ← optional "trust_level" ATPTrustLevel.validate .unverified v⟩

structure ProofDataOf (σ : Type) where
  task : ProofDataTaskOf σ
  dependencies : List (DependencyOf σ)

def ProofDataOf.dump (p : ProofDataOf σ) : JsonValue := record
  [("task", p.task.dump), ("dependencies", list DependencyOf.dump p.dependencies)]

def ProofDataOf.validate (lib : Library) (v : JsonValue) : Option (ProofDataOf σ) := do
  return ⟨← required "task" (ProofDataTaskOf.validate lib) v,
    ← optional "dependencies" (asList (DependencyOf.validate lib)) [] v⟩

structure StoredProofOf (σ : Type) where
  proofData : ProofDataOf σ
  createdAt : DateTime
  expiresAt : DateTime

def StoredProofOf.dump (p : StoredProofOf σ) : JsonValue := record
  [("proof_data", p.proofData.dump), ("created_at", date p.createdAt),
   ("expires_at", date p.expiresAt)]

def StoredProofOf.validate (lib : Library) (v : JsonValue) : Option (StoredProofOf σ) := do
  return ⟨← required "proof_data" (ProofDataOf.validate lib) v,
    ← required "created_at" lib.datetimeField v, ← required "expires_at" lib.datetimeField v⟩

abbrev ProofData := ProofDataOf Text

abbrev StoredProof := StoredProofOf Text

end Proofs

section Python

variable {σ : Type} [PyString σ]

/-! A model as the program holds it, whatever kind its strings are of. -/

def OntologyOf.python (o : OntologyOf σ) : OntologyOf PyStr where
  ontologyVersion := o.ontologyVersion.map PyString.py
  ontologyUri := PyString.py o.ontologyUri
  occupation := o.occupation.map PyString.py
  workActivities := o.workActivities.map PyString.py
  capabilities := o.capabilities.map PyString.py

def CapabilityOf.python (c : CapabilityOf σ) : CapabilityOf PyStr where
  description := c.description.map PyString.py
  ontology := c.ontology.python

def ATPMetadataOf.python (m : ATPMetadataOf σ) : ATPMetadataOf PyStr where
  specVersion := PyString.py m.specVersion
  specUri := m.specUri.map PyString.py
  systemUri := PyString.py m.systemUri
  systemType := PyString.py m.systemType
  taskId := PyString.py m.taskId
  classification := m.classification.map CapabilityOf.python

def DependencyEvaluationOf.python (e : DependencyEvaluationOf σ) :
    DependencyEvaluationOf PyStr where
  evaluationType := PyString.py e.evaluationType
  evaluationPolicy := e.evaluationPolicy.map PyString.py
  evaluationResult := PyString.py e.evaluationResult
  evaluatedAt := e.evaluatedAt

def DependencyOf.python (d : DependencyOf σ) : DependencyOf PyStr where
  systemUri := d.systemUri.map PyString.py
  taskId := PyString.py d.taskId
  challengeUrl := d.challengeUrl.map PyString.py
  evaluations := d.evaluations.map DependencyEvaluationOf.python

def CryptographyOf.python (c : CryptographyOf σ) : CryptographyOf PyStr where
  algorithm := PyString.py c.algorithm
  invocationHash := PyString.py c.invocationHash
  outcomeHash := PyString.py c.outcomeHash
  dependenciesHash := c.dependenciesHash.map PyString.py

def ProofSketchOf.python (s : ProofSketchOf σ) : ProofSketchOf PyStr where
  atpMetadata := s.atpMetadata.python
  dependencies := s.dependencies.map DependencyOf.python
  cryptography := s.cryptography.python
  timestamp := s.timestamp

def ProofDataTaskOf.python (t : ProofDataTaskOf σ) : ProofDataTaskOf PyStr where
  systemUri := PyString.py t.systemUri
  systemType := PyString.py t.systemType
  taskId := PyString.py t.taskId
  invocation := t.invocation
  invocationHash := PyString.py t.invocationHash
  outcome := t.outcome
  outcomeHash := PyString.py t.outcomeHash
  timestamp := t.timestamp
  trustLevel := t.trustLevel

def ProofDataOf.python (p : ProofDataOf σ) : ProofDataOf PyStr where
  task := p.task.python
  dependencies := p.dependencies.map DependencyOf.python

def StoredProofOf.python (p : StoredProofOf σ) : StoredProofOf PyStr where
  proofData := p.proofData.python
  createdAt := p.createdAt
  expiresAt := p.expiresAt

theorem opt_map {α β : Type} (f : β → JsonValue) (g : α → β) (x : Option α) :
    opt f (x.map g) = opt (fun a => f (g a)) x := by
  cases x <;> rfl

theorem list_map {α β : Type} (f : β → JsonValue) (g : α → β) (xs : List α) :
    list f (xs.map g) = list (fun a => f (g a)) xs := by
  simp [list]

theorem OntologyOf.dump_python (o : OntologyOf σ) : o.python.dump = o.dump := by
  simp only [dump, python, opt_map, list_map]
  rfl

theorem CapabilityOf.dump_python (c : CapabilityOf σ) : c.python.dump = c.dump := by
  simp only [dump, python, opt_map, OntologyOf.dump_python]
  rfl

theorem ATPMetadataOf.dump_python (m : ATPMetadataOf σ) : m.python.dump = m.dump := by
  simp only [dump, python, opt_map, CapabilityOf.dump_python]
  rfl

theorem DependencyEvaluationOf.dump_python (e : DependencyEvaluationOf σ) :
    e.python.dump = e.dump := by
  simp only [dump, python, opt_map]
  rfl

theorem DependencyOf.dump_python (d : DependencyOf σ) : d.python.dump = d.dump := by
  simp only [dump, python, opt_map, list_map, DependencyEvaluationOf.dump_python]
  rfl

theorem CryptographyOf.dump_python (c : CryptographyOf σ) : c.python.dump = c.dump := by
  simp only [dump, python, opt_map]
  rfl

theorem ProofSketchOf.dump_python (s : ProofSketchOf σ) : s.python.dump = s.dump := by
  simp only [dump, python, list_map, ATPMetadataOf.dump_python, DependencyOf.dump_python,
    CryptographyOf.dump_python]

theorem ProofDataTaskOf.dump_python (t : ProofDataTaskOf σ) : t.python.dump = t.dump := rfl

theorem StoredProofOf.dump_python (p : StoredProofOf σ) : p.python.dump = p.dump := by
  simp only [dump, python, ProofDataOf.dump, ProofDataOf.python, list_map,
    ProofDataTaskOf.dump_python, DependencyOf.dump_python]

end Python

section RoundTrip

def Reads (lib : Library) (d : DateTime) : Prop := lib.datetimeField (date d) = some d

variable {lib : Library} {σ : Type}

def DependencyOf.Readable (lib : Library) (d : DependencyOf σ) : Prop :=
  ∀ e ∈ d.evaluations, Reads lib e.evaluatedAt

structure ProofSketchOf.Readable (lib : Library) (s : ProofSketchOf σ) : Prop where
  dependencies : ∀ d ∈ s.dependencies, d.Readable lib
  timestamp : Reads lib s.timestamp

structure StoredProofOf.Readable (lib : Library) (p : StoredProofOf σ) : Prop where
  dependencies : ∀ d ∈ p.proofData.dependencies, d.Readable lib
  timestamp : Reads lib p.proofData.task.timestamp
  createdAt : Reads lib p.createdAt
  expiresAt : Reads lib p.expiresAt

variable [PyString σ]

@[simp] theorem asContent_obj (c : Content) : asContent (.obj c) = some c := rfl

@[simp] theorem OntologyOf.validate_dump (o : OntologyOf σ) : validate o.dump = some o := by
  simp [validate, dump, required, optional]

@[simp] theorem CapabilityOf.validate_dump (c : CapabilityOf σ) : validate c.dump = some c := by
  simp [validate, dump, required, optional]

@[simp] theorem nullable_capability (x : Option (CapabilityOf σ)) :
    nullable CapabilityOf.validate (opt CapabilityOf.dump x) = some x :=
  nullable_opt (fun _ => by simp [CapabilityOf.dump, record]) fun c _ => c.validate_dump

@[simp] theorem ATPMetadataOf.validate_dump (m : ATPMetadataOf σ) : validate m.dump = some m := by
  simp [validate, dump, required, optional]

theorem DependencyEvaluationOf.validate_dump {e : DependencyEvaluationOf σ}
    (h : Reads lib e.evaluatedAt) : validate lib e.dump = some e := by
  unfold Reads at h
  simp [validate, dump, required, optional, h]

theorem DependencyOf.validate_dump {d : DependencyOf σ} (h : d.Readable lib) :
    validate lib d.dump = some d := by
  have evaluations : asList (DependencyEvaluationOf.validate lib)
      (list DependencyEvaluationOf.dump d.evaluations) = some d.evaluations :=
    asList_list fun e he => DependencyEvaluationOf.validate_dump (h e he)
  simp [validate, dump, required, optional, evaluations]

theorem asList_dependencies {ds : List (DependencyOf σ)} (h : ∀ d ∈ ds, d.Readable lib) :
    asList (DependencyOf.validate lib) (list DependencyOf.dump ds) = some ds :=
  asList_list fun d hd => DependencyOf.validate_dump (h d hd)

@[simp] theorem CryptographyOf.validate_dump (c : CryptographyOf σ) :
    validate c.dump = some c := by
  simp [validate, dump, required, optional]

theorem ProofSketchOf.validate_dump {s : ProofSketchOf σ} (h : s.Readable lib) :
    validate lib s.dump = some s := by
  have timestamp : lib.datetimeField (date s.timestamp) = some s.timestamp := h.timestamp
  simp [validate, dump, required, optional, asList_dependencies h.dependencies, timestamp]

@[simp] theorem ATPTrustLevel.validate_value (t : ATPTrustLevel) :
    validate (.str (lit t.value)) = some t := by
  cases t <;> simp [validate, value, lit_inj]

theorem ProofDataTaskOf.validate_dump {t : ProofDataTaskOf σ} (timestamp : Reads lib t.timestamp) :
    validate lib t.dump = some t := by
  unfold Reads at timestamp
  simp [validate, dump, required, optional, timestamp]

theorem StoredProofOf.validate_dump {p : StoredProofOf σ} (h : p.Readable lib) :
    validate lib p.dump = some p := by
  have task := ProofDataTaskOf.validate_dump h.timestamp
  have created : lib.datetimeField (date p.createdAt) = some p.createdAt := h.createdAt
  have expires : lib.datetimeField (date p.expiresAt) = some p.expiresAt := h.expiresAt
  simp [validate, ProofDataOf.validate, dump, ProofDataOf.dump, required, optional, task,
    asList_dependencies h.dependencies, created, expires]

theorem DependencyOf.Readable.python {d : DependencyOf σ} (h : d.Readable lib) :
    d.python.Readable lib := by
  intro e he
  obtain ⟨f, hf, rfl⟩ := List.mem_map.mp he
  exact h f hf

theorem readable_python {ds : List (DependencyOf σ)} (h : ∀ d ∈ ds, d.Readable lib) :
    ∀ d ∈ ds.map DependencyOf.python, d.Readable lib := by
  intro d hd
  obtain ⟨e, he, rfl⟩ := List.mem_map.mp hd
  exact (h e he).python

theorem StoredProofOf.validate_python {p : StoredProofOf σ} (h : p.Readable lib) :
    validate lib p.dump = some p.python := by
  rw [← dump_python]
  exact validate_dump ⟨readable_python h.dependencies, h.timestamp, h.createdAt, h.expiresAt⟩

theorem ProofSketchOf.validate_python {s : ProofSketchOf σ} (h : s.Readable lib) :
    validate lib s.dump = some s.python := by
  rw [← dump_python]
  exact validate_dump ⟨readable_python h.dependencies, h.timestamp⟩

end RoundTrip

section Decoding

variable {lib : Library} {σ : Type}

/-- A naive datetime, or one whose zone has no seconds. -/
def MinuteZone (d : DateTime) : Prop := ∀ o ∈ d.offset, o.val % 60000000 = 0

instance (d : DateTime) : Decidable (MinuteZone d) :=
  inferInstanceAs (Decidable (∀ o ∈ d.offset, o.val % 60000000 = 0))

theorem minuteZone_utcAt (w : Wall) : MinuteZone (utcAt w) := by
  intro o given
  obtain rfl := Option.some.inj given
  rfl

/-- A datetime field reads a dumped datetime back, but for a zone with seconds. -/
structure ReadsIso (lib : Library) : Prop where
  reads : ∀ d, MinuteZone d → Reads lib d
  rejects : ∀ d, ¬ MinuteZone d → lib.datetimeField (date d) = none

def DependencyOf.MinuteZones (d : DependencyOf σ) : Prop :=
  ∀ e ∈ d.evaluations, MinuteZone e.evaluatedAt

instance (d : DependencyOf σ) : Decidable d.MinuteZones :=
  inferInstanceAs (Decidable (∀ e ∈ d.evaluations, MinuteZone e.evaluatedAt))

def ProofSketchOf.MinuteZones (s : ProofSketchOf σ) : Prop :=
  (∀ d ∈ s.dependencies, d.MinuteZones) ∧ MinuteZone s.timestamp

instance (s : ProofSketchOf σ) : Decidable s.MinuteZones :=
  inferInstanceAs (Decidable ((∀ d ∈ s.dependencies, d.MinuteZones) ∧ MinuteZone s.timestamp))

def StoredProofOf.MinuteZones (p : StoredProofOf σ) : Prop :=
  (∀ d ∈ p.proofData.dependencies, d.MinuteZones) ∧
    ∀ d ∈ [p.proofData.task.timestamp, p.createdAt, p.expiresAt], MinuteZone d

instance (p : StoredProofOf σ) : Decidable p.MinuteZones :=
  inferInstanceAs (Decidable ((∀ d ∈ p.proofData.dependencies, d.MinuteZones) ∧
    ∀ d ∈ [p.proofData.task.timestamp, p.createdAt, p.expiresAt], MinuteZone d))

theorem ProofSketchOf.readable_of_minuteZones (reads : ∀ d, MinuteZone d → Reads lib d)
    {s : ProofSketchOf σ} (whole : s.MinuteZones) : s.Readable lib where
  dependencies := fun d hd e he => reads _ (whole.1 d hd e he)
  timestamp := reads _ whole.2

theorem StoredProofOf.readable_of_minuteZones (reads : ∀ d, MinuteZone d → Reads lib d)
    {p : StoredProofOf σ} (whole : p.MinuteZones) : p.Readable lib where
  dependencies := fun d hd e he => reads _ (whole.1 d hd e he)
  timestamp := reads _ (whole.2 _ (by simp))
  createdAt := reads _ (whole.2 _ (by simp))
  expiresAt := reads _ (whole.2 _ (by simp))

theorem readBack_of_minuteZone {d : DateTime} (whole : MinuteZone d) : readBack d = d := by
  obtain ⟨wall, offset⟩ := d
  cases offset with
  | none => rfl
  | some o =>
    have multiple : o.val % 60000000 = 0 := whole o rfl
    have same : readOffset o = o := by
      unfold readOffset
      split
      · next small => exact Subtype.ext (show (0 : Int) = o.val by omega)
      · rfl
    rw [readBack, Option.map_some, same]

def january (hour : Nat) : Wall :=
  ⟨⟨2024, 1, 31, by decide, by decide, by decide⟩, Time.ofMicros (hour * 3600000000)⟩

def noon : DateTime := utcAt (january 12)

def isoLibrary : Library where
  reprContainer := fun v => raw (dumps v)
  equal := fun v w => dumps v = dumps w
  loads := fun _ => .error .malformed
  datetimeField := fun v => match v with
    | .str s => fromisoformat s
    | _ => none
  dumpable := scalarStrings
  dumpJson := fun _ => none
  parseJson := fun _ => none
  nesting := 200
  decimal := fun _ => none

theorem reads_isoLibrary {d : DateTime} (whole : MinuteZone d) : Reads isoLibrary d :=
  (fromisoformat_isoformat d).trans (congrArg some (readBack_of_minuteZone whole))

theorem sketch_isoLibrary {s : ProofSketchOf σ} (whole : s.MinuteZones) : s.Readable isoLibrary :=
  ProofSketchOf.readable_of_minuteZones (fun _ => reads_isoLibrary) whole

theorem storedProof_isoLibrary {p : StoredProofOf σ} (whole : p.MinuteZones) :
    p.Readable isoLibrary :=
  StoredProofOf.readable_of_minuteZones (fun _ => reads_isoLibrary) whole

def minuteLibrary : Library :=
  { isoLibrary with
    datetimeField := fun v => match v with
      | .str s => (fromisoformat s).filter fun d => MinuteZone d ∧ raw (isoformat d) = s
      | _ => none }

theorem datetimeField_minuteLibrary (d : DateTime) : minuteLibrary.datetimeField (date d) =
    (some (readBack d)).filter fun e => MinuteZone e ∧ raw (isoformat e) = raw (isoformat d) := by
  rw [← fromisoformat_isoformat d]
  rfl

theorem readsIso_minuteLibrary : ReadsIso minuteLibrary where
  reads := fun d whole => by
    rw [Reads, datetimeField_minuteLibrary, readBack_of_minuteZone whole]
    simp [Option.filter, whole]
  rejects := fun d seconds => by
    have other : ¬ (MinuteZone (readBack d) ∧
        raw (isoformat (readBack d)) = raw (isoformat d)) := by
      rintro ⟨whole, same⟩
      exact seconds (isoformat_injective (raw_injective same) ▸ whole)
    rw [datetimeField_minuteLibrary, Option.filter_some, if_neg (by simpa using other)]

variable [PyString σ]

theorem asList_filtered {α β : Type} {f : α → JsonValue} {g : α → β}
    {read : JsonValue → Option β} {P : α → Prop} [DecidablePred P]
    (exact_ : ∀ a, read (f a) = if P a then some (g a) else none) (xs : List α) :
    asList read (list f xs) = if ∀ a ∈ xs, P a then some (xs.map g) else none := by
  unfold asList list
  dsimp only
  induction xs with
  | nil => rfl
  | cons a xs ih =>
    rw [List.map_cons, List.mapM_cons, exact_ a, ih]
    simp only [List.forall_mem_cons]
    by_cases head : P a
    · by_cases tail : ∀ b ∈ xs, P b
      · simp only [if_pos head, if_pos tail, if_pos (And.intro head tail)]
        rfl
      · simp only [if_pos head, if_neg tail, if_neg fun both : P a ∧ _ => tail both.2]
        rfl
    · simp only [if_neg head, if_neg fun both : P a ∧ _ => head both.1]
      rfl

theorem DependencyEvaluationOf.validate_exact (iso : ReadsIso lib)
    (e : DependencyEvaluationOf σ) : validate lib e.dump =
      if MinuteZone e.evaluatedAt then some e.python else none := by
  by_cases whole : MinuteZone e.evaluatedAt
  · rw [if_pos whole, ← dump_python]
    exact validate_dump (iso.reads _ whole)
  · simp [validate, dump, required, optional, iso.rejects _ whole, whole]

theorem DependencyOf.validate_exact (iso : ReadsIso lib) (d : DependencyOf σ) :
    validate lib d.dump = if d.MinuteZones then some d.python else none := by
  have evaluations := asList_filtered (DependencyEvaluationOf.validate_exact iso) d.evaluations
  by_cases whole : d.MinuteZones
  · rw [if_pos whole, ← dump_python]
    exact validate_dump (Readable.python fun e he => iso.reads _ (whole e he))
  · rw [if_neg (show ¬ ∀ e ∈ d.evaluations, MinuteZone e.evaluatedAt from whole)] at evaluations
    simp [validate, dump, required, optional, evaluations, whole]

theorem ProofSketchOf.validate_exact (iso : ReadsIso lib) (s : ProofSketchOf σ) :
    validate lib s.dump = if s.MinuteZones then some s.python else none := by
  have dependencies := asList_filtered (DependencyOf.validate_exact iso) s.dependencies
  by_cases whole : s.MinuteZones
  · rw [if_pos whole, validate_python (readable_of_minuteZones iso.reads whole)]
  · rw [if_neg whole]
    by_cases inner : ∀ d ∈ s.dependencies, d.MinuteZones
    · have outer : ¬ MinuteZone s.timestamp := fun h => whole ⟨inner, h⟩
      simp [validate, dump, required, optional, iso.rejects _ outer]
    · rw [if_neg inner] at dependencies
      simp [validate, dump, required, optional, dependencies]

end Decoding

end AgentTrust.Models
