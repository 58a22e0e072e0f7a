import AgentTrust.Hashing
import AgentTrust.Effects

/-! What goes over the wire to the Exchange and to a challenged agent, and the
models built from the Exchange's answers. A body is its text and the decoded value, or why
it is not decoded. A `send` is a call of the HTTP client: the world answers it with a response
or an exception, as it does where the client cannot encode the request. -/

namespace AgentTrust.Exchange

open JsonTree JsonTree.Json PyText PyJson Gregorian PyDateTime IsoFormat OrderedDict PyValue
  Sha256 Models Effects

section Transport

inductive Method where
  | get
  | post
  deriving DecidableEq

inductive Party where
  | exchange
  | agent
  deriving DecidableEq

structure Request where
  party : Party
  method : Method
  url : PyStr
  json : Option JsonValue

structure Response where
  statusCode : Nat
  text : PyStr
  body : Except Unread JsonValue

inductive Event where
  | send (r : Request)
  | save (p : StoredProof)
  | clock

/-- Every answer of the surroundings, given all that happened before. -/
structure World where
  reply : List Event → Request → Except Exc Response
  save : List Event → StoredProof → Except Exc Unit
  now : List Event → Wall

abbrev Run := Effects.Run World Exc Event

def send (r : Request) : Run Response := .perform (.send r) fun w h => w.reply h r

def saveProof (p : StoredProof) : Run Unit := .perform (.save p) fun w h => w.save h p

def utcNow : Run Wall := .perform .clock fun w h => .ok (w.now h)

def Response.json (r : Response) : Except Exc JsonValue := r.body.mapError Unread.exc

theorem Response.json_ok {r : Response} {data : JsonValue} (body : r.body = .ok data) :
    r.json = .ok data := by
  rw [Response.json, body]
  rfl

theorem Response.json_error {r : Response} {unread : Unread} (body : r.body = .error unread) :
    r.json = .error unread.exc := by
  rw [Response.json, body]
  rfl

/-- `response.json().get("error", response.text) if response.text else "Unknown error"`. -/
def Response.errorDetail (r : Response) : Except Exc JsonValue :=
  if r.text ≠ [] then do
    let v ← r.json
    getOr "error" (.str r.text) v
  else .ok (.str (lit "Unknown error"))

end Transport

section Identifiers

structure Uuid where
  hex : Text
  length_hex : hex.length = 32
  hex_digits : hex.all fun c => hexChars.contains c

def Uuid.str (u : Uuid) : Text :=
  u.hex.take 8 ++ '-' :: ((u.hex.drop 8).take 4 ++ '-' :: ((u.hex.drop 12).take 4 ++ '-' ::
    ((u.hex.drop 16).take 4 ++ '-' :: u.hex.drop 20)))

/-- `s.replace(pattern, "")`, with the length of `s` as fuel. -/
def removeText {α : Type} [DecidableEq α] (pattern : List α) : Nat → List α → List α
  | 0, s => s
  | _ + 1, [] => []
  | fuel + 1, c :: s =>
    if pattern.isPrefixOf (c :: s) then removeText pattern fuel ((c :: s).drop pattern.length)
    else c :: removeText pattern fuel s

theorem removeText_absent {α : Type} [DecidableEq α] {c : α} {pattern s : List α}
    (absent : c ∉ s) (fuel : Nat) : removeText (c :: pattern) fuel s = s := by
  induction fuel generalizing s with
  | zero => rfl
  | succ fuel ih =>
    cases s with
    | nil => rfl
    | cons d s =>
      have head : c ≠ d := fun same => absent (by simp [same])
      have tail : c ∉ s := fun h => absent (List.mem_cons_of_mem _ h)
      simp [removeText, head, ih tail]

def brace (c : CodePoint) : Bool := c = ofChar '{' || c = ofChar '}'

def wideBlank (c : CodePoint) : Bool :=
  [0x85, 0xA0, 0x1680, 0x2028, 0x2029, 0x202F, 0x205F, 0x3000].contains c.val ||
    (0x2000 ≤ c.val && c.val ≤ 0x200A)

/-- A character as `int` reads it: what is neither ASCII nor a blank nor a digit is no digit. -/
def narrowed (decimal : CodePoint → Option (Fin 10)) (c : CodePoint) : Char :=
  if c.val < 127 then Char.ofNat c.val
  else if wideBlank c then ' '
  else ((decimal c).map fun d => d.val.digitChar).getD '?'

def blank (c : Char) : Bool := [' ', '\t', '\n', '\x0b', '\x0c', '\r'].contains c

def hexDigit (c : Char) : Bool := hexChars.contains c.toLower

/-- Hexadecimal digits, with single underscores between them. -/
def hexDigits : Text → Option Text
  | [] => none
  | c :: '_' :: s => if hexDigit c then (hexDigits s).map (c :: ·) else none
  | [c] => if hexDigit c then some [c] else none
  | c :: s => if hexDigit c then (hexDigits s).map (c :: ·) else none

/-- Drop `0x`, which one underscore may follow. -/
def dropRadix : Text → Text
  | '0' :: x :: '_' :: s => if x = 'x' ∨ x = 'X' then s else '0' :: x :: '_' :: s
  | '0' :: x :: s => if x = 'x' ∨ x = 'X' then s else '0' :: x :: s
  | s => s

/-- `int(s, 16)`: whether the text has a minus sign, and its digits. -/
def readHex (s : Text) : Option (Bool × Text) :=
  match (s.dropWhile blank).rdropWhile blank with
  | '-' :: s => (hexDigits (dropRadix s)).map fun digits => (true, digits)
  | '+' :: s => (hexDigits (dropRadix s)).map fun digits => (false, digits)
  | s => (hexDigits (dropRadix s)).map fun digits => (false, digits)

/-- The UUID of a number below `2 ** 128`, given by its digits. -/
def Uuid.ofDigits (digits : Text) : Option Uuid :=
  let hex := List.replicate (32 - digits.length) '0' ++ digits.map Char.toLower
  if h : hex.length = 32 ∧ hex.all fun c => hexChars.contains c then some ⟨hex, h.1, h.2⟩ else none

/-- `UUID(s)`. -/
def Uuid.parse (decimal : CodePoint → Option (Fin 10)) (s : PyStr) : Option Uuid := do
  let s := removeText (lit "urn:") s.length s
  let s := removeText (lit "uuid:") s.length s
  let s := ((s.dropWhile brace).rdropWhile brace).filter (· ≠ ofChar '-')
  if s.length ≠ 32 then none
  let (negative, digits) ← readHex (s.map (narrowed decimal))
  if negative ∧ digits.any (· ≠ '0') then none
  Uuid.ofDigits digits

def uuidChar (c : Char) : Bool := hexChars.contains c || c = '-'

theorem Uuid.mem_hex (u : Uuid) : ∀ c ∈ u.hex, c ∈ hexChars := by
  intro c hc
  simpa using List.all_eq_true.mp u.hex_digits c hc

theorem Uuid.mem_part (u : Uuid) {n m : Nat} {c : Char} (h : c ∈ (u.hex.drop n).take m) :
    c ∈ hexChars := u.mem_hex c (List.mem_of_mem_drop (List.mem_of_mem_take h))

theorem Uuid.str_chars (u : Uuid) : ∀ c ∈ u.str, uuidChar c := by
  intro c hc
  simp only [uuidChar, Bool.or_eq_true, List.contains_iff_mem, decide_eq_true_eq]
  simp only [str, List.mem_append, List.mem_cons] at hc
  rcases hc with h | h | h | h | h | h | h | h | h
  · exact .inl (u.mem_hex c (List.mem_of_mem_take h))
  · exact .inr h
  · exact .inl (u.mem_part h)
  · exact .inr h
  · exact .inl (u.mem_part h)
  · exact .inr h
  · exact .inl (u.mem_part h)
  · exact .inr h
  · exact .inl (u.mem_hex c (List.mem_of_mem_drop h))

@[simp] theorem Uuid.str_length (u : Uuid) : u.str.length = 36 := by
  have len := u.length_hex
  simp [str, len]

theorem Uuid.filter_str (u : Uuid) : u.str.filter (· ≠ '-') = u.hex := by
  have keep : ∀ {l : Text}, (∀ c ∈ l, c ∈ hexChars) →
      l.filter (fun c => decide (c ≠ '-')) = l := by
    intro l digits
    refine List.filter_eq_self.mpr fun c hc => decide_eq_true ?_
    rintro rfl
    exact absurd (digits _ hc) (by decide)
  have dash : ∀ l : Text, ('-' :: l).filter (fun c => decide (c ≠ '-')) =
      l.filter fun c => decide (c ≠ '-') := fun l => by simp
  have joined : ∀ n m, (u.hex.drop n).take m ++ u.hex.drop (n + m) = u.hex.drop n := by
    intro n m
    rw [← List.drop_drop, List.take_append_drop]
  simp only [str, List.filter_append, dash]
  rw [keep fun c h => u.mem_hex c (List.mem_of_mem_take h), keep fun c h => u.mem_part h,
    keep fun c h => u.mem_part h, keep fun c h => u.mem_part h,
    keep fun c h => u.mem_hex c (List.mem_of_mem_drop h), joined 16 4, joined 12 4, joined 8 4,
    List.take_append_drop]

theorem narrowed_hex (decimal : CodePoint → Option (Fin 10)) {c : Char} (digit : c ∈ hexChars) :
    narrowed decimal (ofChar c) = c := by
  have each : ∀ c ∈ hexChars, (ofChar c).val < 127 ∧ Char.ofNat (ofChar c).val = c :=
    List.all_iff_forall_prop.mp (by decide)
  rw [narrowed, if_pos (each c digit).1, (each c digit).2]

theorem hexDigits_plain {s : Text} (nonempty : s ≠ []) (digits : ∀ c ∈ s, c ∈ hexChars) :
    hexDigits s = some s := by
  have each : ∀ c ∈ hexChars, hexDigit c := List.all_iff_forall_prop.mp (by decide)
  induction s with
  | nil => exact absurd rfl nonempty
  | cons c s ih =>
    have head : hexDigit c := each c (digits c (by simp))
    cases s with
    | nil => simp [hexDigits, head]
    | cons d s =>
      have joined : d ≠ '_' := by
        rintro rfl
        exact absurd (digits '_' (by simp)) (by decide)
      have tail := ih (by simp) fun e he => digits e (List.mem_cons_of_mem _ he)
      rw [hexDigits.eq_4 c (d :: s) (fun t same => joined (List.cons.inj same).1) (by simp),
        if_pos head, tail]
      rfl

theorem readHex_plain {s : Text} (nonempty : s ≠ []) (digits : ∀ c ∈ s, c ∈ hexChars) :
    readHex s = some (false, s) := by
  have absent : ∀ c ∉ hexChars, c ∉ s := fun c other h => other (digits c h)
  have plain : ∀ c ∈ hexChars, blank c = false := List.all_iff_forall_prop.mp (by decide)
  have front : s.dropWhile blank = s := by
    cases s with
    | nil => rfl
    | cons c s => simp [plain c (digits c (by simp))]
  have back : s.rdropWhile blank = s :=
    List.rdropWhile_eq_self_iff.mpr fun h => by
      simp [plain _ (digits _ (List.getLast_mem h))]
  have radix : dropRadix s = s := by
    unfold dropRadix
    split
    · next x t =>
      have noX := absent 'x' (by decide)
      have noLarge := absent 'X' (by decide)
      rw [if_neg]
      rintro (rfl | rfl)
      · simp at noX
      · simp at noLarge
    · next x t _ =>
      have noX := absent 'x' (by decide)
      have noLarge := absent 'X' (by decide)
      rw [if_neg]
      rintro (rfl | rfl)
      · simp at noX
      · simp at noLarge
    · rfl
  rw [readHex, front, back]
  split
  · exact absurd (by simp) (absent '-' (by decide))
  · exact absurd (by simp) (absent '+' (by decide))
  · rw [radix, hexDigits_plain nonempty digits]
    rfl

theorem Uuid.parse_str (decimal : CodePoint → Option (Fin 10)) (u : Uuid) :
    Uuid.parse decimal (raw u.str) = some u := by
  have absent : ∀ c, uuidChar c = false → ofChar c ∉ raw u.str := by
    intro c hc h
    obtain ⟨d, hd, same⟩ := List.mem_map.mp h
    simp [← ofChar_injective same, u.str_chars d hd] at hc
  have plain : ∀ c ∈ raw u.str, brace c = false := by
    intro c hc
    simp only [brace, Bool.or_eq_false_iff, decide_eq_false_iff_not]
    exact ⟨fun same => absent '{' (by decide) (same ▸ hc),
      fun same => absent '}' (by decide) (same ▸ hc)⟩
  have front : (raw u.str).dropWhile brace = raw u.str := by
    cases str : raw u.str with
    | nil => rfl
    | cons c t => simp [plain c (by simp [str])]
  have back : (raw u.str).rdropWhile brace = raw u.str :=
    List.rdropWhile_eq_self_iff.mpr fun h => by simp [plain _ (List.getLast_mem h)]
  have urn : removeText (lit "urn:") (raw u.str).length (raw u.str) = raw u.str :=
    removeText_absent (absent 'u' (by decide)) _
  have uuid : removeText (lit "uuid:") (raw u.str).length (raw u.str) = raw u.str :=
    removeText_absent (absent 'u' (by decide)) _
  have undashed : (raw u.str).filter (fun c => decide (c ≠ ofChar '-')) = raw u.hex := by
    rw [← u.filter_str, raw, raw, List.filter_map]
    refine congrArg _ (List.filter_congr fun c _ => ?_)
    simp [ofChar_injective.eq_iff]
  have narrow : (raw u.hex).map (narrowed decimal) = u.hex := by
    rw [raw, List.map_map]
    exact (List.map_congr_left fun c hc => narrowed_hex decimal (u.mem_hex c hc)).trans
      (List.map_id _)
  have lower : u.hex.map Char.toLower = u.hex := by
    have each : ∀ c ∈ hexChars, c.toLower = c := List.all_iff_forall_prop.mp (by decide)
    exact (List.map_congr_left fun c hc => each c (u.mem_hex c hc)).trans (List.map_id _)
  have nonempty : u.hex ≠ [] := fun empty => by simpa [empty] using u.length_hex
  have length : (raw u.hex).length = 32 := by rw [raw, List.length_map, u.length_hex]
  have built : Uuid.ofDigits u.hex = some u := by
    rw [Uuid.ofDigits]
    simp only [u.length_hex, lower, Nat.sub_self, List.replicate_zero, List.nil_append]
    exact dif_pos ⟨trivial, u.hex_digits⟩
  rw [parse]
  simp only [urn, uuid, front, back, undashed, narrow, readHex_plain nonempty u.mem_hex, built,
    if_neg (not_not.mpr length), Option.bind_eq_bind, Option.bind_some, Bool.false_eq_true,
    false_and, if_false, ne_eq]

def sampleId : Uuid := ⟨"550e8400e29b41d4a716446655440000".toList, by decide, by decide⟩

def sampleTask : Uuid := ⟨"6ba7b8109dad11d180b400c04fd430c8".toList, by decide, by decide⟩

end Identifiers

section Commits

inductive CommitStatus where
  | confirmed
  | failed
  deriving DecidableEq

def CommitStatus.value : CommitStatus → String
  | .confirmed => "confirmed"
  | .failed => "failed"

def CommitStatus.ofValue : JsonValue → Option CommitStatus
  | .str s =>
    if s = lit "confirmed" then some .confirmed
    else if s = lit "failed" then some .failed
    else none
  | _ => none

structure Commit where
  id : Uuid
  systemId : PyStr
  organizationId : Option Uuid
  taskId : Uuid
  proofSketch : ProofSketchOf PyStr
  status : CommitStatus
  signature : Option PyStr
  catalogedAt : Option DateTime
  createdAt : DateTime
  blockchainSignature : Option PyStr
  blockchainConfirmedAt : Option DateTime
  blockchainProvider : Option PyStr
  blockchainCatalogUrl : Option PyStr
  classificationOccupation : Option PyStr
  classificationCapabilities : Option (List PyStr)
  classificationWorkActivities : Option (List PyStr)
  classificationDescription : Option PyStr

/-- A value or the `ValueError` of failed validation. -/
def valid {α : Type} (x : Option α) : Except Exc α :=
  match x with
  | some a => .ok a
  | none => .error (foreign .valueError)

/-- `UUID(v) if isinstance(v, str) else v`. No other JSON value is one that a `UUID` field
takes, which is found when the model is built. -/
def uuidOf (lib : Library) : JsonValue → Except Exc (Option Uuid)
  | .str s => (valid (Uuid.parse lib.decimal s)).map some
  | _ => .ok none

/-- `UUID(v) if v else None`. -/
def optionalUuid (lib : Library) (v : JsonValue) : Except Exc (Option Uuid) :=
  if truthy v then
    match v with
    | .str s => (valid (Uuid.parse lib.decimal s)).map some
    | _ => .error (foreign .attributeError)
  else .ok none

/-- `datetime.fromisoformat(v)`. -/
def isoField : JsonValue → Except Exc DateTime
  | .str s => valid (fromisoformat s)
  | _ => .error (foreign .typeError)

/-- `datetime.fromisoformat(v) if v else None`. -/
def optionalIso (v : JsonValue) : Except Exc (Option DateTime) :=
  if truthy v then (isoField v).map some else .ok none

/-- `proof_sketch` of a reply; a string is decoded once more. -/
def embeddedSketch (lib : Library) : JsonValue → Except Exc JsonValue
  | .str s => (lib.loads s).mapError Unread.exc
  | v => .ok v

def Commit.fromApiResponse (lib : Library) (data : JsonValue) : Except Exc Commit := do
  let sketch ← getItem "proof_sketch" data
  let sketch ← embeddedSketch lib sketch
  let id ← getItem "id" data
  let id ← uuidOf lib id
  let systemId ← getItem "system_id" data
  let organizationId ← getOr "organization_id" .null data
  let organizationId ← optionalUuid lib organizationId
  let taskId ← getItem "task_id" data
  let taskId ← uuidOf lib taskId
  let proofSketch ← valid (ProofSketchOf.validate lib sketch)
  let status ← getItem "status" data
  let status ← valid (CommitStatus.ofValue status)
  let signature ← getOr "signature" .null data
  let catalogedAt ← getOr "cataloged_at" .null data
  let catalogedAt ← optionalIso catalogedAt
  let createdAt ← getItem "created_at" data
  let createdAt ← isoField createdAt
  let blockchainSignature ← getOr "blockchain_signature" .null data
  let blockchainConfirmedAt ← getOr "blockchain_confirmed_at" .null data
  let blockchainConfirmedAt ← optionalIso blockchainConfirmedAt
  let blockchainProvider ← getOr "blockchain_provider" .null data
  let blockchainCatalogUrl ← getOr "blockchain_catalog_url" .null data
  let occupation ← getOr "classification_occupation" .null data
  let capabilities ← getOr "classification_capabilities" .null data
  let workActivities ← getOr "classification_work_activities" .null data
  let description ← getOr "classification_description" .null data
  return {
    organizationId, proofSketch, status, catalogedAt, createdAt, blockchainConfirmedAt
    id := ← valid id
    taskId := ← valid taskId
    systemId := ← valid (asText systemId)
    signature := ← valid (nullable asText signature)
    blockchainSignature := ← valid (nullable asText blockchainSignature)
    blockchainProvider := ← valid (nullable asText blockchainProvider)
    blockchainCatalogUrl := ← valid (nullable asText blockchainCatalogUrl)
    classificationOccupation := ← valid (nullable asText occupation)
    classificationCapabilities := ← valid (nullable (asList asText) capabilities)
    classificationWorkActivities := ← valid (nullable (asList asText) workActivities)
    classificationDescription := ← valid (nullable asText description) }

theorem valid_eq_ok {α : Type} {x : Option α} {a : α} : valid x = .ok a ↔ x = some a := by
  cases x <;> simp [valid]

theorem valid_raises {α : Type} {P : Exc → Prop} (invalid : P (foreign .valueError))
    (x : Option α) : RaisesOnly P (valid x) := by
  cases x with
  | none => exact (raisesOnly_error _).mpr invalid
  | some a => exact raisesOnly_ok a

theorem getItem_raises {P : Exc → Prop} {v : JsonValue} (missing : ∀ m, P ⟨.keyError, m⟩)
    (other : isRecord v = false → P (foreign .typeError)) (k : String) :
    RaisesOnly P (getItem k v) := by
  cases v with
  | obj fields =>
    rw [getItem]
    cases lookup (lit k) fields with
    | some x => exact raisesOnly_ok x
    | none => exact (raisesOnly_error _).mpr (missing _)
  | _ => exact (raisesOnly_error _).mpr (other rfl)

structure Decoded (lib : Library) (data : JsonValue) (commit : Commit) : Prop where
  id : ∃ v, getItem "id" data = .ok v ∧ uuidOf lib v = .ok (some commit.id)
  systemId : ∃ v, getItem "system_id" data = .ok v ∧ asText v = some commit.systemId
  taskId : ∃ v, getItem "task_id" data = .ok v ∧ uuidOf lib v = .ok (some commit.taskId)
  proofSketch : ∃ v w, getItem "proof_sketch" data = .ok v ∧ embeddedSketch lib v = .ok w ∧
    ProofSketchOf.validate lib w = some commit.proofSketch
  status : ∃ v, getItem "status" data = .ok v ∧ CommitStatus.ofValue v = some commit.status
  signature : ∃ v, getOr "signature" .null data = .ok v ∧
    nullable asText v = some commit.signature
  catalogedAt : ∃ v, getOr "cataloged_at" .null data = .ok v ∧
    optionalIso v = .ok commit.catalogedAt

theorem decoded_of_fromApiResponse {lib : Library} {data : JsonValue} {commit : Commit}
    (h : Commit.fromApiResponse lib data = .ok commit) : Decoded lib data commit := by
  unfold Commit.fromApiResponse at h
  simp only [bind_eq_ok, valid_eq_ok] at h
  obtain ⟨sketch, hsketch, embedded, hembedded, id, hid, uuid, huuid, system, hsystem, _, _, _, _,
    task, htask, taskUuid, htaskUuid, proof, hproof, status, hstatus, state, hstate, sig, hsig,
    cat, hcat, time, htime, rest⟩ := h
  -- The remaining reads do not reach the fields above.
  obtain ⟨_, _, _, _, _, _, _, _, _, _, _, _, _, _, _, _, _, _, _, _, _, _, given, hgiven,
    givenTask, hgivenTask, systemId, hsystemId, signature, hsignature, _, _, _, _, _, _, _, _, _, _,
    _, _, _, _, result⟩ := rest
  obtain rfl := hgiven
  obtain rfl := hgivenTask
  rw [← Except.ok.inj result]
  exact ⟨⟨id, hid, huuid⟩, ⟨system, hsystem, hsystemId⟩, ⟨task, htask, htaskUuid⟩,
    ⟨sketch, embedded, hsketch, hembedded, hproof⟩, ⟨status, hstatus, hstate⟩,
    ⟨sig, hsig, hsignature⟩, ⟨cat, hcat, htime⟩⟩

end Commits

section Replies

variable {lib : Library} {data : JsonValue} {sketch : ProofSketch} {status : CommitStatus}

/-- A commit reply of the Exchange: the sketch as its dump, the status, identifiers,
and optional fields that are null, absent, or of their type. -/
structure CommitReply (data : JsonValue) (sketch : ProofSketch) (status : CommitStatus) :
    Prop where
  proofSketch : getItem "proof_sketch" data = .ok sketch.dump
  id : ∃ u : Uuid, getItem "id" data = .ok (text u.str)
  systemId : ∃ t, getItem "system_id" data = .ok (text t)
  organizationId : ∃ u : Option Uuid,
    getOr "organization_id" .null data = .ok (opt (fun u => text u.str) u)
  taskId : ∃ u : Uuid, getItem "task_id" data = .ok (text u.str)
  status : getItem "status" data = .ok (.str (lit status.value))
  catalogedAt : ∃ d, getOr "cataloged_at" .null data = .ok (opt date d)
  createdAt : ∃ d, getItem "created_at" data = .ok (date d)
  confirmedAt : ∃ d, getOr "blockchain_confirmed_at" .null data = .ok (opt date d)
  texts : ∀ k ∈ ["signature", "blockchain_signature", "blockchain_provider",
    "blockchain_catalog_url", "classification_occupation", "classification_description"],
    ∃ t, getOr k .null data = .ok (opt text t)
  lists : ∀ k ∈ ["classification_capabilities", "classification_work_activities"],
    ∃ ts, getOr k .null data = .ok (opt (list text) ts)

theorem uuidOf_str (u : Uuid) : uuidOf lib (text u.str) = .ok (some u) := by
  rw [text, uuidOf, Uuid.parse_str]
  rfl

theorem truthy_text {t : Text} (nonempty : t ≠ []) : truthy (text t) = true := by
  simp [truthy, text, raw, nonempty]

theorem optionalUuid_str (u : Option Uuid) :
    optionalUuid lib (opt (fun u => text u.str) u) = .ok u := by
  cases u with
  | none => rfl
  | some u =>
    have nonempty : u.str ≠ [] := by
      intro empty
      simpa [empty] using u.str_length
    change (if truthy (text u.str) then
      (valid (Uuid.parse lib.decimal (raw u.str))).map some else .ok none) = _
    rw [if_pos (truthy_text nonempty), Uuid.parse_str]
    rfl

theorem isoField_date (d : DateTime) : isoField (date d) = .ok (readBack d) := by
  rw [date, text, isoField, fromisoformat_isoformat]
  rfl

theorem optionalIso_date (d : Option DateTime) :
    optionalIso (opt date d) = .ok (d.map readBack) := by
  cases d with
  | none => rfl
  | some d =>
    have nonempty : isoformat d ≠ [] := by
      intro empty
      have length := congrArg List.length empty
      simp [isoformat] at length
    rw [opt, optionalIso, date, if_pos (truthy_text nonempty), ← date, isoField_date]
    rfl

theorem status_ofValue (status : CommitStatus) :
    CommitStatus.ofValue (.str (lit status.value)) = some status := by
  cases status <;> simp [CommitStatus.ofValue, CommitStatus.value, lit_inj]

theorem embeddedSketch_dump (sketch : ProofSketch) :
    embeddedSketch lib sketch.dump = .ok sketch.dump := rfl

theorem nullable_python (x : Option Text) :
    nullable asText (opt text x) = some (x.map raw) := by
  cases x <;> rfl

theorem nullable_list (x : Option (List Text)) :
    nullable (asList asText) (opt (list text) x) = some (x.map fun ts => ts.map raw) := by
  rw [show opt (list text) x = opt (list literal) (x.map fun ts => ts.map raw) by
    cases x <;> simp [opt, list, text]]
  exact nullable_opt (fun _ => by simp [list]) fun _ _ => asList_literal _

theorem CommitReply.decodes_of_valid {s : ProofSketchOf PyStr}
    (reply : CommitReply data sketch status)
    (valid_ : ProofSketchOf.validate lib sketch.dump = some s) :
    ∃ commit, Commit.fromApiResponse lib data = .ok commit ∧ commit.proofSketch = s ∧
      commit.status = status := by
  obtain ⟨id, hid⟩ := reply.id
  obtain ⟨systemId, hsystem⟩ := reply.systemId
  obtain ⟨organization, horganization⟩ := reply.organizationId
  obtain ⟨task, htask⟩ := reply.taskId
  obtain ⟨cataloged, hcataloged⟩ := reply.catalogedAt
  obtain ⟨created, hcreated⟩ := reply.createdAt
  obtain ⟨confirmed, hconfirmed⟩ := reply.confirmedAt
  obtain ⟨signature, hsignature⟩ := reply.texts "signature" (by simp)
  obtain ⟨chain, hchain⟩ := reply.texts "blockchain_signature" (by simp)
  obtain ⟨provider, hprovider⟩ := reply.texts "blockchain_provider" (by simp)
  obtain ⟨catalog, hcatalog⟩ := reply.texts "blockchain_catalog_url" (by simp)
  obtain ⟨occupation, hoccupation⟩ := reply.texts "classification_occupation" (by simp)
  obtain ⟨description, hdescription⟩ := reply.texts "classification_description" (by simp)
  obtain ⟨capabilities, hcapabilities⟩ := reply.lists "classification_capabilities" (by simp)
  obtain ⟨activities, hactivities⟩ := reply.lists "classification_work_activities" (by simp)
  have some_ok : ∀ {α : Type} (a : α), valid (some a) = .ok a := fun _ => rfl
  unfold Commit.fromApiResponse
  simp only [reply.proofSketch, reply.status, hid, hsystem, horganization, htask, hcataloged,
    hcreated, hconfirmed, hsignature, hchain, hprovider, hcatalog, hoccupation, hdescription,
    hcapabilities, hactivities, bind_ok, embeddedSketch_dump, uuidOf_str,
    optionalUuid_str, isoField_date, optionalIso_date, status_ofValue,
    valid_, some_ok, asText_raw, nullable_python, nullable_list]
  exact ⟨_, rfl, rfl, rfl⟩

theorem CommitReply.decodes (reply : CommitReply data sketch status)
    (readable : sketch.Readable lib) :
    ∃ commit, Commit.fromApiResponse lib data = .ok commit ∧
      commit.proofSketch = sketch.python ∧ commit.status = status :=
  reply.decodes_of_valid (ProofSketchOf.validate_python readable)

end Replies

section Answers

structure CommitResponse where
  commitId : PyStr
  systemId : PyStr
  taskId : PyStr
  status : PyStr
  signature : Option PyStr
  catalogedAt : Option DateTime
  createdAt : DateTime
  message : PyStr

def CommitResponse.ofData (data : JsonValue) : Except Exc CommitResponse := do
  let commitId ← getItem "commit_id" data
  let systemId ← getItem "system_id" data
  let taskId ← getItem "task_id" data
  let status ← getItem "status" data
  let signature ← getOr "signature" .null data
  let catalogedAt ← getOr "cataloged_at" .null data
  let catalogedAt ← optionalIso catalogedAt
  let createdAt ← getItem "created_at" data
  let createdAt ← isoField createdAt
  let message ← getItem "message" data
  return {
    catalogedAt, createdAt
    commitId := ← valid (asText commitId)
    systemId := ← valid (asText systemId)
    taskId := ← valid (asText taskId)
    status := ← valid (asText status)
    signature := ← valid (nullable asText signature)
    message := ← valid (asText message) }

structure System where
  systemId : PyStr
  type : PyStr
  name : PyStr
  capabilities : List (CapabilityOf PyStr)
  extensions : Content
  createdAt : DateTime

/-- `[Capability.model_validate(c) for c in v]`. -/
def capabilityList (v : JsonValue) : Except Exc (List (CapabilityOf PyStr)) := do
  let items ← Hashing.iterate v
  items.mapM fun c => valid (CapabilityOf.validate c)

def orElse (a b : JsonValue) : JsonValue := if truthy a then a else b

def System.fromApiResponse (data : JsonValue) : Except Exc System := do
  let systemId ← getOr "system_id" .null data
  let id ← getOr "id" .null data
  let systemId := orElse systemId id
  if !truthy systemId then .error ⟨.valueError, msg "Response missing system_id/id field"⟩
  let type ← getItem "type" data
  let name ← getItem "name" data
  let capabilities ← getOr "capabilities" (.arr []) data
  let capabilities ← capabilityList capabilities
  let extensions ← getOr "extensions" .null data
  let identity ← getOr "identity_ext" .null data
  let createdAt ← getItem "created_at" data
  let createdAt ← isoField createdAt
  return {
    capabilities, createdAt
    systemId := ← valid (asText systemId)
    type := ← valid (asText type)
    name := ← valid (asText name)
    extensions := ← valid (asContent (orElse extensions (orElse identity (.obj [])))) }

end Answers

end AgentTrust.Exchange
