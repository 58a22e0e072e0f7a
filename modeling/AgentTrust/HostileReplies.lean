import AgentTrust.RawDisclosure
import AgentTrust.HonestAgent

/-! Replies of a challenged agent that are no replies. Each of the two verifiers handles the
exceptions that it expects; which JSON values make it raise another one is stated on the
reply. -/

namespace AgentTrust.HostileReplies

open JsonTree JsonTree.Json PyText PyJson OrderedDict PyValue Models Hashing Effects Exchange Client
  Tasks Verifier Disclosure HonestAgent
open Effects.Run hiding pure bind

section Envelope

variable {lib : Library}

def QueryOrNetwork (e : Exc) : Prop := e.cls = .queryError ∨ e.cls = .networkError

/-- A body that `challenge` can look through: an object whose error is an object or nothing,
or a text or list without the two words. -/
def Orderly (data : JsonValue) : Prop :=
  match data with
  | .obj fields => ∀ error ∈ lookup (lit "error") fields, truthy error → isRecord error
  | _ => contains "error" data = .ok false ∧ contains "result" data = .ok false

/-- The body of a reply of success is nested no deeper than it is read, and can be looked
through if it is JSON. -/
def Readable (r : Response) : Prop :=
  r.statusCode = 200 → r.body ≠ .error .tooDeep ∧ ∀ data, r.body = .ok data → Orderly data

def proofMember (lib : Library) (data : JsonValue) : Except Exc (StoredProofOf PyStr) := do
  let present ← contains "result" data
  if !present then
    .error ⟨.queryError, msg "Invalid JSON-RPC response: missing 'result' field"⟩
  match getItem "result" data >>= fun v => valid (StoredProofOf.validate lib v) with
  | .ok p => .ok p
  | .error e =>
    let _ ← getOr "result" .null data
    .error ⟨.queryError, msg "Invalid proof structure from agent: " ++ e.text⟩

def lookThrough (lib : Library) (data : JsonValue) : Except Exc (StoredProofOf PyStr) := do
  let flagged ← contains "error" data
  let error ← if flagged then getOr "error" .null data else .ok .null
  if truthy error then
    rpcError error
  else
    proofMember lib data

theorem decodeDisclosure_ok {r : Response} (ok : r.statusCode = 200) {data : JsonValue}
    (body : r.body = .ok data) : decodeDisclosure lib r = lookThrough lib data := by
  rw [decodeDisclosure, ok, Response.json_ok body]
  rfl

/-- The exceptions that the handlers of `challenge` turn into these. -/
def Carried (e : Exc) : Prop := QueryOrNetwork (challengeError e)

theorem carried_query (m : Message) : Carried ⟨.queryError, m⟩ := .inl rfl

theorem carried_value : Carried (foreign .valueError) := .inl rfl

theorem not_carried_type : ¬ Carried (foreign .typeError) := by
  simp [Carried, QueryOrNetwork, challengeError, foreign, Exc.isAny]

theorem not_carried_recursion : ¬ Carried (foreign .recursionError) := by
  simp [Carried, QueryOrNetwork, challengeError, foreign, Exc.isAny]

theorem not_carried_attribute : ¬ Carried (foreign .attributeError) := by
  simp [Carried, QueryOrNetwork, challengeError, foreign, Exc.isAny]

theorem orderly_of_not_record {data : JsonValue} (other : isRecord data = false) :
    Orderly data ↔ contains "error" data = .ok false ∧ contains "result" data = .ok false := by
  cases data with
  | obj fields => simp [isRecord] at other
  | _ => rfl

theorem rpcError_carried {error : JsonValue} :
    RaisesOnly Carried (rpcError error) ↔ isRecord error := by
  cases shape : isRecord error with
  | false => simp [rpcError, (rigid_of_not_record shape).member, not_carried_attribute]
  | true =>
    obtain ⟨fields, rfl⟩ := obj_of_isRecord shape
    refine iff_of_true ?_ rfl
    simp only [rpcError, getOr, bind_ok]
    generalize (lookup (lit "data") fields).getD .null = detail
    cases detail <;> simp [isRecord, carried_query]

theorem getOr_obj (k : String) (default : JsonValue) (fields : Content) :
    getOr k default (.obj fields) = .ok ((lookup (lit k) fields).getD default) := rfl

theorem proofMember_carried (fields : Content) :
    RaisesOnly Carried (proofMember lib (.obj fields)) := by
  rw [proofMember, contains, bind_ok]
  cases (lookup (lit "result") fields).isSome with
  | false => simp [carried_query]
  | true =>
    rw [Bool.not_true]
    simp only [Bool.false_eq_true, if_false]
    split
    · simp
    · simp [getOr_obj, carried_query]

theorem lookThrough_other {data : JsonValue} (other : isRecord data = false) :
    RaisesOnly Carried (lookThrough lib data) ↔ Orderly data := by
  have rigid := rigid_of_not_record other
  rw [orderly_of_not_record other, lookThrough]
  rcases rigid.contained "error" with refused | ⟨flagged, found⟩
  · simp [refused, not_carried_type]
  · cases flagged with
    | true => simp [found, rigid.member, not_carried_attribute]
    | false =>
      rcases rigid.contained "result" with refused | ⟨present, found'⟩
      · simp [proofMember, found, refused, truthy, not_carried_type]
      · cases present with
        | true =>
          simp [proofMember, found, found', truthy, rigid.item, rigid.member,
            not_carried_attribute]
        | false => simp [proofMember, found, found', truthy, carried_query]

theorem lookThrough_object (fields : Content) :
    RaisesOnly Carried (lookThrough lib (.obj fields)) ↔ Orderly (.obj fields) := by
  have after : RaisesOnly Carried (proofMember lib (.obj fields)) := proofMember_carried fields
  rw [Orderly, lookThrough]
  cases member : lookup (lit "error") fields with
  | none =>
    refine iff_of_true ?_ (by simp)
    simpa [contains, member, truthy] using after
  | some error =>
    have flagged : contains "error" (.obj fields) = .ok true := by
      rw [contains, member]
      rfl
    have found : getOr "error" .null (.obj fields) = .ok error := by
      rw [getOr_obj, member]
      rfl
    simp only [flagged, bind_ok, if_true, found, Option.mem_some_iff, forall_eq']
    by_cases raised : truthy error
    · simp only [raised, if_true, forall_const]
      exact rpcError_carried
    · simp only [raised, if_false, false_imp_iff, iff_true, Bool.false_eq_true]
      exact after

theorem decodeDisclosure_carried {r : Response} : RaisesOnly Carried (decodeDisclosure lib r) ↔
    Readable r := by
  unfold Readable
  by_cases ok : r.statusCode = 200
  · cases body : r.body with
    | error unread =>
      cases unread with
      | malformed =>
        simp [decodeDisclosure, ok, Response.json_error body, Unread.exc, carried_value]
      | tooDeep =>
        simp [decodeDisclosure, ok, Response.json_error body, Unread.exc, not_carried_recursion]
    | ok data =>
      rw [decodeDisclosure_ok ok body]
      simp only [ok, ne_eq, reduceCtorEq, not_false_eq_true, Except.ok.injEq, forall_eq', true_and,
        forall_const]
      cases shape : isRecord data with
      | false => exact lookThrough_other shape
      | true =>
        obtain ⟨fields, rfl⟩ := obj_of_isRecord shape
        exact lookThrough_object fields
  · simp [decodeDisclosure, ok, carried_query]

end Envelope

section Members

structure Members where
  systemUri : JsonValue
  taskId : JsonValue
  invocation : JsonValue
  invocationHash : JsonValue
  outcome : JsonValue
  outcomeHash : JsonValue

def membersOf (storedProof : JsonValue) : Option Members := do
  let proofData ← field "proof_data" storedProof
  let task ← field "task" proofData
  let systemUri ← field "system_uri" task
  let taskId ← field "task_id" task
  let invocation ← field "invocation" task
  let invocationHash ← field "invocation_hash" task
  let outcome ← field "outcome" task
  let outcomeHash ← field "outcome_hash" task
  return { systemUri, taskId, invocation, invocationHash, outcome, outcomeHash }

/-- A string that is hashed must be Unicode text; anything else can be hashed. -/
def hashable : JsonValue → Bool
  | .str s => scalarText s
  | _ => true

/-- The URI is a string, and what is hashed can be: the outcome is only hashed when the
invocation has the declared hash. -/
def Members.Sound (m : Members) : Prop :=
  isStr m.systemUri ∧ hashable m.invocation ∧
    ∀ hash, hashWithPrefix m.invocation = .ok hash → isText (raw hash) m.invocationHash →
      hashable m.outcome

def Structural (e : Exc) : Prop := e.isAny [.keyError, .typeError]

theorem structural_bind {α : Type} {k : String} {v : JsonValue} {f : JsonValue → Except Exc α}
    (rest : ∀ x, field k v = some x → RaisesOnly Structural (f x)) :
    RaisesOnly Structural (getItem k v >>= f) := by
  have item : RaisesOnly Structural (getItem k v) :=
    getItem_raises (by exact fun _ => rfl) (by exact fun _ => rfl) k
  exact raisesOnly_bind.mpr ⟨item, fun x found => rest x (getItem_eq_ok.mp found)⟩

theorem readTask_incomplete {v : JsonValue} (incomplete : membersOf v = none) :
    ∃ e, readTask v = .error e ∧ Structural e := by
  cases read : readTask v with
  | ok task =>
    simp only [readTask, bind_eq_ok, getItem_eq_ok] at read
    obtain ⟨_, h1, _, h2, _, h3, _, h4, _, h5, _, h6, _, h7, _, h8, _⟩ := read
    simp [membersOf, h1, h2, h3, h4, h5, h6, h7, h8] at incomplete
  | error e =>
    have raises : RaisesOnly Structural (readTask v) := by
      refine structural_bind fun _ h1 => ?_
      refine structural_bind fun _ h2 => ?_
      refine structural_bind fun _ h3 => ?_
      refine structural_bind fun _ h4 => ?_
      refine structural_bind fun _ h5 => ?_
      refine structural_bind fun _ h6 => ?_
      refine structural_bind fun _ h7 => ?_
      refine structural_bind fun _ h8 => ?_
      -- Only the URI is left to read, but then no member was missing.
      simp [membersOf, h1, h2, h3, h4, h5, h6, h7, h8] at incomplete
    exact ⟨e, rfl, raises e read⟩

theorem readTask_complete {v : JsonValue} {m : Members} (complete : membersOf v = some m) :
    readTask v = (trailingId m.systemUri).map fun systemId =>
      ⟨m.taskId, m.invocation, m.invocationHash, m.outcome, m.outcomeHash, systemId⟩ := by
  simp only [membersOf, Option.bind_eq_bind, Option.bind_eq_some_iff, ← getItem_eq_ok] at complete
  obtain ⟨_, proofData, _, task, uri, hasUri, id, hasId, inv, hasInv, invHash, hasInvHash, out,
    hasOut, outHash, hasOutHash, same⟩ := complete
  obtain rfl := Option.some.inj same
  simp only [readTask, proofData, task, hasUri, hasId, hasInv, hasInvHash, hasOut, hasOutHash,
    bind_ok]
  cases trailingId uri <;> rfl

theorem hashWithPrefix_hashable {v : JsonValue} :
    (∃ hash, hashWithPrefix v = .ok hash) ↔ hashable v := by
  have scalar : ∀ t : PyStr, (∃ hash, (computeSha256 t).map (fun h => hashPrefix ++ h) = .ok hash) ↔
      scalarText t := by
    intro t
    rw [computeSha256]
    cases encoded : encode t with
    | some u => simp [Except.map, ← raw_of_encode encoded]
    | none =>
      refine iff_of_false (by simp [Except.map]) fun text => ?_
      obtain ⟨u, found, _⟩ := encode_eq_some text
      rw [encoded] at found
      simp at found
  rw [hashWithPrefix, computeDataHash, scalar]
  cases v <;> simp [hashedString, hashable]

variable {s : Setting} {lib : Library} {w : World} {h : List Event}

theorem rawFinding_isSome (lib : Library) (m : Members) (systemId : PyStr) :
    (∃ f, rawFinding lib w h
      ⟨m.taskId, m.invocation, m.invocationHash, m.outcome, m.outcomeHash, systemId⟩ = some f) ↔
      hashable m.invocation ∧ ∀ hash, hashWithPrefix m.invocation = .ok hash →
        isText (raw hash) m.invocationHash → hashable m.outcome := by
  rw [← hashWithPrefix_hashable, ← hashWithPrefix_hashable, rawFinding]
  dsimp only
  cases hashWithPrefix m.invocation with
  | error e => simp
  | ok invocation =>
    dsimp only
    by_cases declared : isText (raw invocation) m.invocationHash
    · rw [if_pos declared]
      cases hashWithPrefix m.outcome with
      | error e => simp [declared]
      | ok outcome => simp
    · simp [declared]

end Members

section Containment

variable {s : Setting}

def disclosure (r : Response) : Option JsonValue :=
  if 200 ≤ r.statusCode ∧ r.statusCode < 300 then
    r.body.toOption.bind fun data =>
      if truthy ((field "error" data).getD .null) then none else field "result" data
  else none

def Examinable (r : Response) : Prop := ∀ v ∈ disclosure r, ∀ m ∈ membersOf v, m.Sound

theorem decodeReply_eq_ok {r : Response} {v : JsonValue} :
    decodeReply r = .ok (.ok v) ↔ disclosure r = some v := by
  unfold decodeReply disclosure
  by_cases success : 200 ≤ r.statusCode ∧ r.statusCode < 300
  · cases body : r.body with
    | error unread => simp [success, Response.json_error body, Except.toOption]
    | ok data =>
      cases shape : isRecord data with
      | false =>
        have nothing : field "result" data = none := by
          cases data <;> first | rfl | simp [isRecord] at shape
        simp [success, Response.json_ok body, (rigid_of_not_record shape).member, nothing,
          Except.toOption]
      | true =>
        obtain ⟨fields, rfl⟩ := obj_of_isRecord shape
        have error : getOr "error" .null (.obj fields) =
            .ok ((field "error" (.obj fields)).getD .null) := rfl
        simp only [success, Response.json_ok body, error, bind_ok, not_true, and_self, if_false,
          if_true, Except.toOption, Option.bind_some]
        by_cases raised : truthy ((field "error" (.obj fields)).getD .null)
        · simp [raised, pure, Except.pure]
        · simp only [raised, if_false, Bool.false_eq_true, ← getItem_eq_ok]
          cases getItem "result" (.obj fields) <;> simp
  · simp [success]

theorem rawReply_eq_ok {v : JsonValue} :
    s.rawReply = .ok v ↔ ∃ r, s.reply s.verifier = .ok r ∧ disclosure r = some v := by
  unfold Setting.rawReply
  simp only [← decodeReply_eq_ok]
  cases s.reply s.verifier with
  | error e => simp
  | ok r =>
    rw [bind_ok]
    cases decoded : decodeReply r <;> simp [decoded]

theorem challenge_contained_iff (registered : s.client.firstSystem = some s.first)
    (sent : RaisesOnly (fun e => e.cls = .requestError) (s.reply s.challenger)) (verifying : Bool)
    (assessorTaskId : Option PyStr) :
    RaisesOnly QueryOrNetwork (s.challenge verifying assessorTaskId).result ↔
      ∀ r, s.reply s.challenger = .ok r → Readable r := by
  have disclosed : RaisesOnly Carried s.disclosed ↔
      ∀ r, s.reply s.challenger = .ok r → Readable r := by
    rw [Setting.disclosed, raisesOnly_bind]
    simp only [decodeDisclosure_carried]
    refine and_iff_right fun e failed => ?_
    simp [Carried, challengeError, QueryOrNetwork, sent e failed]
  rw [← disclosed]
  cases result : s.disclosed with
  | error e =>
    rw [challenge_error registered result, raisesOnly_error, raisesOnly_error]
    rfl
  | ok p =>
    refine iff_of_true ?_ (raisesOnly_ok p)
    cases verifying with
    | false =>
      rw [challenge_skipped registered result]
      exact raisesOnly_ok _
    | true =>
      obtain ⟨m, log, now, run, _⟩ := challenge_judged registered result assessorTaskId
      rw [run]
      exact raisesOnly_ok _

theorem challengeAndVerify_returns_iff {id : Text} (registered : s.registeredId = some id)
    (expectedInvocation expectedOutcome : Option JsonValue) :
    (∃ verdict, (s.challengeAndVerify expectedInvocation expectedOutcome).result = .ok verdict) ↔
      ∀ r, s.reply s.verifier = .ok r → Examinable r := by
  obtain ⟨first, rfl⟩ := registered_of_id registered
  rw [challengeAndVerify_run registered]
  cases replied : s.rawReply with
  | error message =>
    refine iff_of_true ⟨_, rfl⟩ fun r answered v disclosed => ?_
    have other := rawReply_eq_ok.mpr ⟨r, answered, disclosed⟩
    rw [replied] at other
    simp at other
  | ok v =>
    obtain ⟨r, answered, disclosed⟩ := rawReply_eq_ok.mp replied
    have examined : (∀ r, s.reply s.verifier = .ok r → Examinable r) ↔
        ∀ m ∈ membersOf v, m.Sound := by
      rw [answered]
      simp [Examinable, disclosed]
    rw [examined]
    dsimp only
    cases read : membersOf v with
    | none =>
      obtain ⟨e, failed, structural⟩ := readTask_incomplete read
      rw [failed]
      dsimp only
      rw [if_pos (show e.isAny [.keyError, .typeError] from structural)]
      exact iff_of_true ⟨_, rfl⟩ (by simp)
    | some m =>
      rw [readTask_complete read]
      simp only [Option.mem_some_iff, forall_eq', Members.Sound]
      cases uri : m.systemUri with
      | str t =>
        simp only [trailingId, Except.map, isStr, true_and]
        have run := examine_run (w := s.world) (h := s.history s.verifier) s.lib v
          ⟨m.taskId, m.invocation, m.invocationHash, m.outcome, m.outcomeHash, systemIdOf t⟩
          expectedInvocation expectedOutcome first
        rw [← rawFinding_isSome s.lib m (systemIdOf t) (w := s.world) (h := s.history s.verifier)]
        split at run
        · next none_ =>
          obtain ⟨e, failed⟩ := run
          simp [none_, failed]
        · next f found =>
          obtain ⟨message, log, now, ended, _⟩ := run
          exact iff_of_true ⟨_, by rw [ended]⟩ ⟨f, found⟩
      | _ => simp [trailingId, Except.map, isStr, Exc.isAny, foreign]

/-- Whatever an agent answers, `challenge` ends as documented exactly if the body of a reply of
success can be looked through, and `challenge_and_verify` returns exactly if what is disclosed
can be examined. -/
theorem replies_contained_iff (s : Setting) {id : Text} (registered : s.registeredId = some id)
    (sent : RaisesOnly (fun e => e.cls = .requestError) (s.reply s.challenger)) :
    (∀ verifying assessorTaskId,
      RaisesOnly QueryOrNetwork (s.challenge verifying assessorTaskId).result ↔
        ∀ r, s.reply s.challenger = .ok r → Readable r) ∧
    ∀ expectedInvocation expectedOutcome,
      (∃ verdict, (s.challengeAndVerify expectedInvocation expectedOutcome).result = .ok verdict) ↔
        ∀ r, s.reply s.verifier = .ok r → Examinable r :=
  ⟨challenge_contained_iff (registered_of_id registered).1 sent,
    challengeAndVerify_returns_iff registered⟩

end Containment

section Sample

def hostile (body : JsonValue) : Setting where
  lib := isoLibrary
  client := sampleClient
  world := { reply := fun _ _ => .ok (answer 200 body), save := fun _ _ => .ok ()
             now := fun _ => noon.wall }
  agentUrl := lit "https://agent"
  taskId := lit "t"

theorem emptyReply_contained :
    RaisesOnly QueryOrNetwork ((hostile (.obj [])).challenge true none).result ∧
      ∃ verdict, ((hostile (.obj [])).challengeAndVerify none none).result = .ok verdict := by
  have registered : (hostile (.obj [])).registeredId = some "v".toList := by decide
  obtain ⟨challenge, verify⟩ := replies_contained_iff (hostile (.obj [])) registered
    (raisesOnly_ok _)
  refine ⟨(challenge true none).mpr ?_, (verify none none).mpr ?_⟩
  · rintro r replied -
    obtain rfl := Except.ok.inj replied
    refine ⟨by simp [answer], fun data body => ?_⟩
    obtain rfl := Except.ok.inj body
    simp [Orderly]
  · intro r replied v disclosed
    obtain rfl := Except.ok.inj replied
    simp [disclosure, answer, Except.toOption, field, truthy] at disclosed

def numberedTask : JsonValue := record [("result", record [("proof_data", record [("task",
  record [("system_uri", .int 5), ("task_id", .int 5), ("invocation", .null),
    ("invocation_hash", .null), ("outcome", .null), ("outcome_hash", .null)])])])]

theorem hostile_escapes :
    ((hostile (.int 5)).challenge true none).result = .error (foreign .typeError) ∧
      ((hostile numberedTask).challengeAndVerify none none).result =
        .error (foreign .attributeError) := by
  constructor
  · rfl
  · rfl

end Sample

end AgentTrust.HostileReplies
