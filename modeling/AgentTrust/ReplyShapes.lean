import AgentTrust.ExchangeQueries
import AgentTrust.Registration

/-! What the decoders of the client make of a reply: each reads its members in order, and
what it raises is translated by its method, except where a member that it reaches has a
wrong type. -/

namespace AgentTrust.ReplyShapes

open JsonTree JsonTree.Json JsonText PyText PyJson Gregorian PyDateTime IsoFormat OrderedDict
  PyValue Models Hashing Effects Exchange Client ExchangeQueries Registration

section Members

def IsATPError (e : Exc) : Prop := e.isAny [.registrationError, .commitError, .queryError,
  .networkError, .authError, .verificationError, .storageError, .proofNotFoundError,
  .proofExpiredError]

/-- The exceptions that are errors of the package or translated into one. -/
def Handled (e : Exc) : Prop := IsATPError e ∨ e.isAny [.requestError, .keyError, .valueError]

/-- A member that a decoder reads: its default where it is read by `get`, the values that
raise no `TypeError` or `AttributeError`, and those that are read without any exception. -/
structure Member where
  key : String
  default : Option JsonValue
  typed : JsonValue → Prop
  reads : JsonValue → Prop

def Member.value (m : Member) (data : JsonValue) : Option JsonValue :=
  (field m.key data).or m.default

/-- Each member has its type, as far as the decoder gets: up to one that is missing or not
read. -/
def WellTyped (data : JsonValue) (members : List Member) : Prop :=
  InOrder (fun m => ∀ v ∈ m.value data, m.typed v) (fun m => ∃ v ∈ m.value data, m.reads v) members

def member (k : String) : Member := ⟨k, none, fun _ => True, fun _ => True⟩

def uuidMember (lib : Library) (k : String) : Member :=
  ⟨k, none, fun _ => True, fun v => ∃ u, uuidOf lib v = .ok u⟩

def uuidOrNone (lib : Library) (k : String) : Member :=
  ⟨k, some .null, fun v => truthy v → isStr v, fun v => ∃ u, optionalUuid lib v = .ok u⟩

def isoMember (k : String) : Member := ⟨k, none, fun v => isStr v, fun v => ∃ d, isoField v = .ok d⟩

def isoOrNone (k : String) : Member :=
  ⟨k, some .null, fun v => truthy v → isStr v, fun v => ∃ d, optionalIso v = .ok d⟩

def validMember {α : Type} (k : String) (read : JsonValue → Option α) : Member :=
  ⟨k, none, fun _ => True, fun v => ∃ a, read v = some a⟩

variable {α β : Type} {data : JsonValue} {ms : List Member}

theorem handled_key (m : Message) : Handled ⟨.keyError, m⟩ := .inr rfl

theorem handled_value (m : Message) : Handled ⟨.valueError, m⟩ := .inr rfl

theorem handled_query (m : Message) : Handled ⟨.queryError, m⟩ := .inl rfl

theorem not_handled_type : ¬ Handled (foreign .typeError) := by
  simp [Handled, IsATPError, foreign, Exc.isAny]

theorem not_handled_recursion : ¬ Handled (foreign .recursionError) := by
  simp [Handled, IsATPError, foreign, Exc.isAny]

theorem not_handled_attribute : ¬ Handled (foreign .attributeError) := by
  simp [Handled, IsATPError, foreign, Exc.isAny]

theorem valid_handled (x : Option α) : RaisesOnly Handled (valid x) :=
  valid_raises (handled_value _) x

theorem getItem_handled (record : isRecord data) (k : String) :
    RaisesOnly Handled (getItem k data) :=
  getItem_raises handled_key (fun other => by simp [record] at other) k

theorem item_step (record : isRecord data) {m : Member} (subscripted : m.default = none)
    {step : JsonValue → Except Exc α} {f : JsonValue → α → Except Exc β}
    (typed : ∀ v, RaisesOnly Handled (step v) ↔ m.typed v)
    (reads : ∀ v, (∃ a, step v = .ok a) ↔ m.reads v)
    (rest : ∀ v a, field m.key data = some v → step v = .ok a →
      (RaisesOnly Handled (f v a) ↔ WellTyped data ms)) :
    RaisesOnly Handled (getItem m.key data >>= fun v => step v >>= f v) ↔
      WellTyped data (m :: ms) := by
  have value : m.value data = field m.key data := by
    rw [Member.value, subscripted]
    exact Option.or_none
  rw [raisesOnly_bind, and_iff_right (getItem_handled record m.key), WellTyped, InOrder, value]
  simp only [getItem_eq_ok, ← typed, ← reads]
  cases found : field m.key data with
  | none => simp
  | some v =>
    simp only [Option.some.injEq, forall_eq', Option.mem_some_iff, exists_eq_left']
    rw [raisesOnly_bind, exists_imp]
    exact and_congr_right fun _ => forall₂_congr fun a read => rest v a found read

theorem get_step (record : isRecord data) {m : Member} {d : JsonValue}
    (default : m.default = some d)
    {step : JsonValue → Except Exc α} {f : JsonValue → α → Except Exc β}
    (typed : ∀ v, RaisesOnly Handled (step v) ↔ m.typed v)
    (reads : ∀ v, (∃ a, step v = .ok a) ↔ m.reads v)
    (rest : ∀ v a, RaisesOnly Handled (f v a) ↔ WellTyped data ms) :
    RaisesOnly Handled (getOr m.key d data >>= fun v => step v >>= f v) ↔
      WellTyped data (m :: ms) := by
  have value : m.value data = some ((field m.key data).getD d) := by
    rw [Member.value, default]
    cases field m.key data <;> rfl
  rw [getOr_record record, bind_ok, raisesOnly_bind, WellTyped, InOrder, value]
  simp only [Option.mem_some_iff, forall_eq', exists_eq_left', ← typed, ← reads, exists_imp]
  exact and_congr_right fun _ => forall₂_congr fun a _ => rest _ a

theorem plain_item (record : isRecord data) {k : String} {f : JsonValue → Except Exc β}
    (rest : ∀ v, RaisesOnly Handled (f v) ↔ WellTyped data ms) :
    RaisesOnly Handled (getItem k data >>= f) ↔ WellTyped data (member k :: ms) := by
  have value : (member k).value data = field k data := Option.or_none
  rw [raisesOnly_bind, and_iff_right (getItem_handled record k), WellTyped, InOrder, value]
  simp only [getItem_eq_ok, member, implies_true, true_and]
  cases field k data with
  | none => simp
  | some v =>
    simp only [Option.some.injEq, forall_eq', Option.mem_some_iff, and_true, exists_eq']
    exact (rest v).trans (forall_const True).symm

theorem plain_get (record : isRecord data) {k : String} {d : JsonValue}
    {f : JsonValue → Except Exc β} (rest : ∀ v, RaisesOnly Handled (f v) ↔ WellTyped data ms) :
    RaisesOnly Handled (getOr k d data >>= f) ↔ WellTyped data ms := by
  rw [getOr_record record, bind_ok]
  exact rest _

theorem valid_step {x : Option α} {f : α → Except Exc β} :
    RaisesOnly Handled (valid x >>= f) ↔ ∀ a, x = some a → RaisesOnly Handled (f a) := by
  rw [raisesOnly_bind, and_iff_right (valid_handled x)]
  simp only [valid_eq_ok]

theorem isoField_handled (v : JsonValue) : RaisesOnly Handled (isoField v) ↔ isStr v := by
  cases v with
  | str s => exact iff_of_true (valid_handled _) rfl
  | _ => simp [isoField, not_handled_type, isStr]

theorem optionalIso_handled (v : JsonValue) :
    RaisesOnly Handled (optionalIso v) ↔ (truthy v → isStr v) := by
  by_cases given : truthy v
  · simp [optionalIso, given, raisesOnly_map, isoField_handled]
  · simp [optionalIso, given]

theorem optionalUuid_handled (lib : Library) (v : JsonValue) :
    RaisesOnly Handled (optionalUuid lib v) ↔ (truthy v → isStr v) := by
  by_cases given : truthy v
  · cases v with
    | str s => simp [optionalUuid, given, raisesOnly_map, valid_handled, isStr]
    | _ => simp [optionalUuid, given, not_handled_attribute, isStr]
  · simp [optionalUuid, given]

theorem uuidOf_handled (lib : Library) (v : JsonValue) : RaisesOnly Handled (uuidOf lib v) := by
  cases v with
  | str s => exact raisesOnly_map.mpr (valid_handled _)
  | _ => exact raisesOnly_ok _

section Steps

variable {lib : Library} (record : isRecord data) {k : String}

include record

theorem uuid_step {f : JsonValue → Option Uuid → Except Exc β}
    (rest : ∀ v u, RaisesOnly Handled (f v u) ↔ WellTyped data ms) :
    RaisesOnly Handled (getItem k data >>= fun v => uuidOf lib v >>= f v) ↔
      WellTyped data (uuidMember lib k :: ms) :=
  item_step record (m := uuidMember lib k) rfl
    (fun v => iff_of_true (uuidOf_handled lib v) trivial) (fun _ => Iff.rfl)
    fun v u _ _ => rest v u

theorem uuidOrNone_step {f : JsonValue → Option Uuid → Except Exc β}
    (rest : ∀ v u, RaisesOnly Handled (f v u) ↔ WellTyped data ms) :
    RaisesOnly Handled (getOr k .null data >>= fun v => optionalUuid lib v >>= f v) ↔
      WellTyped data (uuidOrNone lib k :: ms) :=
  get_step record (m := uuidOrNone lib k) rfl (optionalUuid_handled lib) (fun _ => Iff.rfl) rest

theorem iso_step {f : JsonValue → DateTime → Except Exc β}
    (rest : ∀ v d, RaisesOnly Handled (f v d) ↔ WellTyped data ms) :
    RaisesOnly Handled (getItem k data >>= fun v => isoField v >>= f v) ↔
      WellTyped data (isoMember k :: ms) :=
  item_step record (m := isoMember k) rfl isoField_handled (fun _ => Iff.rfl)
    fun v d _ _ => rest v d

theorem isoOrNone_step {f : JsonValue → Option DateTime → Except Exc β}
    (rest : ∀ v d, RaisesOnly Handled (f v d) ↔ WellTyped data ms) :
    RaisesOnly Handled (getOr k .null data >>= fun v => optionalIso v >>= f v) ↔
      WellTyped data (isoOrNone k :: ms) :=
  get_step record (m := isoOrNone k) rfl optionalIso_handled (fun _ => Iff.rfl) rest

theorem validItem_step {read : JsonValue → Option α} {f : JsonValue → α → Except Exc β}
    (rest : ∀ v a, RaisesOnly Handled (f v a) ↔ WellTyped data ms) :
    RaisesOnly Handled (getItem k data >>= fun v => valid (read v) >>= f v) ↔
      WellTyped data (validMember k read :: ms) :=
  item_step record (m := validMember k read) rfl
    (fun v => iff_of_true (valid_handled _) trivial) (fun v => by simp [validMember, valid_eq_ok])
    fun v a _ _ => rest v a

end Steps

end Members

section Decoders

variable {lib : Library} {data : JsonValue}

def commitResponseMembers : List Member :=
  [member "commit_id", member "system_id", member "task_id", member "status",
   isoOrNone "cataloged_at", isoMember "created_at", member "message"]

theorem commitResponse_handled (record : isRecord data) :
    RaisesOnly Handled (CommitResponse.ofData data) ↔ WellTyped data commitResponseMembers := by
  unfold CommitResponse.ofData commitResponseMembers
  refine plain_item record fun _ => ?_
  refine plain_item record fun _ => ?_
  refine plain_item record fun _ => ?_
  refine plain_item record fun _ => ?_
  refine plain_get record fun _ => ?_
  refine isoOrNone_step record fun _ _ => ?_
  refine iso_step record fun _ _ => ?_
  refine plain_item record fun _ => ?_
  refine iff_of_true ?_ trivial
  simp only [valid_step]
  intros
  exact raisesOnly_ok _

def registrationMembers : List Member :=
  [member "system_uri", member "system_id", isoMember "registered_at", member "status",
   member "capabilities_registered"]

theorem registration_handled (lax : Lax) (record : isRecord data) :
    RaisesOnly Handled (SystemRegistration.ofData lax data) ↔
      WellTyped data registrationMembers := by
  unfold SystemRegistration.ofData registrationMembers
  refine plain_item record fun _ => ?_
  refine plain_item record fun _ => ?_
  refine iso_step record fun _ _ => ?_
  refine plain_item record fun _ => ?_
  refine plain_item record fun _ => ?_
  refine plain_get record fun _ => ?_
  refine plain_get record fun _ => ?_
  refine plain_get record fun _ => ?_
  refine iff_of_true ?_ trivial
  simp only [valid_step]
  intros
  exact raisesOnly_ok _

/-- A string that `json.loads` does not give up on for its nesting. -/
def NotTooDeep (lib : Library) (v : JsonValue) : Prop :=
  ∀ s, v = .str s → lib.loads s ≠ .error .tooDeep

/-- The sketch of a commit as it is found, decoded if it is a string, and then as a sketch. -/
def sketchMember (lib : Library) : Member :=
  ⟨"proof_sketch", none, NotTooDeep lib, fun v => ∃ sketch, embeddedSketch lib v = .ok sketch⟩

def validSketch (lib : Library) : Member :=
  ⟨"proof_sketch", none, fun _ => True, fun v => ∀ sketch, embeddedSketch lib v = .ok sketch →
    ∃ s, (ProofSketchOf.validate lib sketch : Option (ProofSketchOf PyStr)) = some s⟩

def commitMembers (lib : Library) : List Member :=
  [sketchMember lib, uuidMember lib "id", member "system_id", uuidOrNone lib "organization_id",
   uuidMember lib "task_id", validSketch lib, validMember "status" CommitStatus.ofValue,
   isoOrNone "cataloged_at", isoMember "created_at", isoOrNone "blockchain_confirmed_at"]

theorem embeddedSketch_handled (v : JsonValue) :
    RaisesOnly Handled (embeddedSketch lib v) ↔ NotTooDeep lib v := by
  cases v with
  | str s =>
    simp only [embeddedSketch, NotTooDeep, Json.str.injEq, forall_eq']
    cases lib.loads s with
    | ok data => exact iff_of_true (raisesOnly_ok data) (by simp)
    | error unread =>
      cases unread with
      | malformed => exact iff_of_true ((raisesOnly_error _).mpr (handled_value _)) (by simp)
      | tooDeep => exact iff_of_false (mt (raisesOnly_error _).mp not_handled_recursion) (by simp)
  | _ => exact iff_of_true (raisesOnly_ok _) fun s same => nomatch same

theorem commit_handled (record : isRecord data) :
    RaisesOnly Handled (Commit.fromApiResponse lib data) ↔
      WellTyped data (commitMembers lib) := by
  unfold Commit.fromApiResponse commitMembers
  refine item_step record (m := sketchMember lib) rfl embeddedSketch_handled (fun _ => Iff.rfl)
    fun v sketch found decoded => ?_
  refine uuid_step record fun _ _ => ?_
  refine plain_item record fun _ => ?_
  refine uuidOrNone_step record fun _ _ => ?_
  refine uuid_step record fun _ _ => ?_
  have validated : ∀ ms, WellTyped data (validSketch lib :: ms) ↔
      ∀ s, (ProofSketchOf.validate lib sketch : Option (ProofSketchOf PyStr)) = some s →
        WellTyped data ms := by
    intro ms
    have value : (validSketch lib).value data = some v := by
      rw [Member.value, show (validSketch lib).key = (sketchMember lib).key from rfl, found]
      rfl
    rw [WellTyped, InOrder, value]
    simp [validSketch, decoded, WellTyped]
  rw [valid_step, validated]
  refine forall₂_congr fun _ _ => ?_
  refine validItem_step record fun _ _ => ?_
  refine plain_get record fun _ => ?_
  refine isoOrNone_step record fun _ _ => ?_
  refine iso_step record fun _ _ => ?_
  refine plain_get record fun _ => ?_
  refine isoOrNone_step record fun _ _ => ?_
  refine iff_of_true ?_ trivial
  simp only [getOr_record record, bind_ok, valid_step]
  intros
  exact raisesOnly_ok _

theorem not_handled_item {α : Type} (other : isRecord data = false) (k : String)
    (f : JsonValue → Except Exc α) : ¬ RaisesOnly Handled (getItem k data >>= f) := by
  rw [(rigid_of_not_record other).item, bind_error, raisesOnly_error]
  exact not_handled_type

theorem not_handled_get {α : Type} (other : isRecord data = false) (k : String) (d : JsonValue)
    (f : JsonValue → Except Exc α) : ¬ RaisesOnly Handled (getOr k d data >>= f) := by
  rw [(rigid_of_not_record other).member, bind_error, raisesOnly_error]
  exact not_handled_attribute

def Shaped (members : List Member) (data : JsonValue) : Prop :=
  isRecord data ∧ WellTyped data members

theorem shaped_iff {α : Type} {x : Except Exc α} {members : List Member}
    (other : isRecord data = false → ¬ RaisesOnly Handled x)
    (record : isRecord data → (RaisesOnly Handled x ↔ WellTyped data members)) :
    RaisesOnly Handled x ↔ Shaped members data := by
  cases shape : isRecord data with
  | false => exact iff_of_false (other shape) fun shaped => by simp [shaped.1] at shape
  | true => exact (record shape).trans (and_iff_right shape).symm

theorem commit_shaped : RaisesOnly Handled (Commit.fromApiResponse lib data) ↔
    Shaped (commitMembers lib) data :=
  shaped_iff (fun other => not_handled_item other _ _) commit_handled

def iterable : JsonValue → Bool
  | .arr _ => true
  | .obj _ => true
  | .str _ => true
  | _ => false

/-- A list of items, of which each is as `shape` says, up to one that is not decoded. -/
def ListOf {α : Type} (shape : JsonValue → Prop) (decode : JsonValue → Except Exc α)
    (v : JsonValue) : Prop :=
  ∃ items, iterate v = .ok items ∧ InOrder shape (fun x => ∃ a, decode x = .ok a) items

theorem iterate_cases (v : JsonValue) :
    iterate v = .error (foreign .typeError) ∨ ∃ items, iterate v = .ok items := by
  cases v with
  | arr xs => exact .inr ⟨_, rfl⟩
  | obj fields => exact .inr ⟨_, rfl⟩
  | str s => exact .inr ⟨_, rfl⟩
  | _ => exact .inl rfl

theorem list_handled {α : Type} {shape : JsonValue → Prop} {decode : JsonValue → Except Exc α}
    (item : ∀ x, RaisesOnly Handled (decode x) ↔ shape x) (v : JsonValue) :
    RaisesOnly Handled (iterate v >>= fun items => items.mapM decode) ↔ ListOf shape decode v := by
  unfold ListOf
  rcases iterate_cases v with refused | ⟨items, found⟩
  · simp [refused, not_handled_type]
  · simp only [found, bind_ok, raisesOnly_mapM, Except.ok.injEq, exists_eq_left']
    exact inOrder_congr fun x _ => item x

theorem commitList_handled (v : JsonValue) : RaisesOnly Handled (commitList lib v) ↔
    ListOf (Shaped (commitMembers lib)) (Commit.fromApiResponse lib) v :=
  list_handled (fun _ => commit_shaped) v

def assessmentMembers : List Member :=
  [member "assessment_id", member "assessor_system_id", member "assessed_system_id",
   member "assessed_task_id", validMember "dimension" AssessmentDimension.ofValue,
   member "assessment", isoMember "assessed_at", isoMember "created_at"]

theorem assessment_handled (record : isRecord data) :
    RaisesOnly Handled (AssessmentRecord.fromApiResponse lib data) ↔
      WellTyped data assessmentMembers := by
  unfold AssessmentRecord.fromApiResponse assessmentMembers
  refine plain_item record fun _ => ?_
  refine plain_item record fun _ => ?_
  refine plain_get record fun _ => ?_
  refine plain_item record fun _ => ?_
  refine plain_item record fun _ => ?_
  refine validItem_step record fun _ _ => ?_
  refine plain_item record fun _ => ?_
  refine iso_step record fun _ _ => ?_
  refine iso_step record fun _ _ => ?_
  refine iff_of_true ?_ trivial
  simp only [valid_step]
  intros
  exact raisesOnly_ok _

theorem assessment_shaped : RaisesOnly Handled (AssessmentRecord.fromApiResponse lib data) ↔
    Shaped assessmentMembers data :=
  shaped_iff (fun other => not_handled_item other _ _) assessment_handled

def assessmentsMember (lib : Library) : Member :=
  ⟨"assessments", some (.arr []),
    ListOf (Shaped assessmentMembers) (AssessmentRecord.fromApiResponse lib),
    fun v => ∃ records, assessmentList lib v = .ok records⟩

theorem assessmentList_handled (v : JsonValue) : RaisesOnly Handled (assessmentList lib v) ↔
    ListOf (Shaped assessmentMembers) (AssessmentRecord.fromApiResponse lib) v :=
  list_handled (fun _ => assessment_shaped) v

def assessmentsMembers (lib : Library) : List Member :=
  [member "system_id", member "task_id", assessmentsMember lib]

theorem assessments_handled (record : isRecord data) :
    RaisesOnly Handled (AssessmentsResponse.fromApiResponse lib data) ↔
      WellTyped data (assessmentsMembers lib) := by
  unfold AssessmentsResponse.fromApiResponse assessmentsMembers
  refine plain_item record fun _ => ?_
  refine plain_item record fun _ => ?_
  refine get_step record (m := assessmentsMember lib) rfl assessmentList_handled
    (fun _ => Iff.rfl) fun _ _ => ?_
  refine iff_of_true ?_ trivial
  simp only [valid_step]
  intros
  exact raisesOnly_ok _

/-- `data.get("system_id") or data.get("id")` names a system. -/
def named (data : JsonValue) : Bool :=
  truthy (orElse ((field "system_id" data).getD .null) ((field "id" data).getD .null))

def capabilitiesMember : Member :=
  ⟨"capabilities", some (.arr []), fun v => iterable v, fun v => ∃ cs, capabilityList v = .ok cs⟩

def systemMembers : List Member :=
  [member "type", member "name", capabilitiesMember, isoMember "created_at"]

theorem capabilityList_handled (v : JsonValue) :
    RaisesOnly Handled (capabilityList v) ↔ iterable v := by
  have each : ∀ x, RaisesOnly Handled
      (valid (CapabilityOf.validate x : Option (CapabilityOf PyStr))) ↔ True :=
    fun x => iff_of_true (valid_handled _) trivial
  rw [capabilityList, list_handled each]
  cases v <;> simp [ListOf, iterate, iterable, inOrder_of_forall]

theorem system_handled (record : isRecord data) :
    RaisesOnly Handled (System.fromApiResponse data) ↔
      (named data → WellTyped data systemMembers) := by
  unfold System.fromApiResponse systemMembers
  rw [getOr_record record, bind_ok, getOr_record record, bind_ok]
  dsimp only
  rw [show truthy (orElse ((field "system_id" data).getD .null) ((field "id" data).getD .null)) =
    named data from rfl]
  cases named data with
  | false => simp [handled_value]
  | true =>
    simp only [Bool.not_true, Bool.false_eq_true, if_false, forall_const]
    refine plain_item record fun _ => ?_
    refine plain_item record fun _ => ?_
    refine get_step record (m := capabilitiesMember) rfl capabilityList_handled
      (fun _ => Iff.rfl) fun _ _ => ?_
    refine plain_get record fun _ => ?_
    refine plain_get record fun _ => ?_
    refine iso_step record fun _ _ => ?_
    refine iff_of_true ?_ trivial
    simp only [valid_step]
    intros
    exact raisesOnly_ok _

end Decoders

end AgentTrust.ReplyShapes
