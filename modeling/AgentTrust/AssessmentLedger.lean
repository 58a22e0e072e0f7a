import AgentTrust.Runs
import AgentTrust.HonestAgent
import AgentTrust.ExchangeQueries
import AgentTrust.CommitAddresses

/-! The assessments of a task, reported by any number of clients and queried by any of them.
The Exchange, which is not this program's, files a report or refuses it, and lists what it
filed under the ids that a path can name. What a query returns is then the records that the
reports returned. -/

namespace AgentTrust.AssessmentLedger

open JsonTree JsonTree.Json PyText PyJson Gregorian PyDateTime OrderedDict PyValue Models Hashing
  Effects Exchange Client ExchangeQueries Verifier Disclosure CommitAddresses HonestAgent
  IsoFormat Runs
open Exchange (Run)

section Reports

structure Report where
  systemId : Text
  taskId : Text
  dimension : AssessmentDimension
  assessment : Text
  assessedAt : DateTime
  assessorTaskId : Option Text

def Report.payload (r : Report) (assessor : Text) : JsonValue :=
  assessPayload assessor (raw r.systemId) (text r.taskId) r.dimension (raw r.assessment)
    r.assessedAt (r.assessorTaskId.map raw)

def Report.submit (r : Report) (c : ATPClient) : Run (Option AssessmentRecord) :=
  reportAssessment c (raw r.systemId) (text r.taskId) r.dimension (raw r.assessment) r.assessedAt
    (r.assessorTaskId.map raw)

def Report.record (r : Report) (assessor assessmentId : Text) (recordedAt : DateTime) :
    AssessmentRecord where
  assessmentId := raw assessmentId
  assessorSystemId := raw assessor
  assessorTaskId := r.assessorTaskId.map raw
  assessedSystemId := raw r.systemId
  assessedTaskId := raw r.taskId
  dimension := r.dimension
  assessment := raw r.assessment
  assessedAt := r.assessedAt
  createdAt := readBack recordedAt

/-- A record with the time of its assessment as that is read from its text. -/
def reread (record : AssessmentRecord) : AssessmentRecord :=
  { record with assessedAt := readBack record.assessedAt }

end Reports

section Exchange

structure Filing where
  payload : JsonValue
  assessmentId : Text
  recordedAt : DateTime

/-- What the Exchange gives a report after a history: an id and a time, if it files it. -/
abbrev Filer := List Event → JsonValue → Option (Text × DateTime)

variable (filer : Filer)

def filed (h : List Event) : Event → List Filing
  | .send ⟨.exchange, .post, url, some payload⟩ =>
    if url = lit "/api/v1/assess" then
      (filer h payload).toList.map fun (assessmentId, recordedAt) =>
        ⟨payload, assessmentId, recordedAt⟩
    else []
  | _ => []

def filings (h : List Event) : List Filing := emitted (fun h e => h ++ [e]) (filed filer) [] h

def Filing.about (systemId taskId : PyStr) (f : Filing) : Bool :=
  (field "assessed_system_id" f.payload).any (isText systemId) &&
    (field "assessed_task_id" f.payload).any (isText taskId)

/-- A row of a listing has the members of the report, its id and its time. -/
structure Filing.Lists (f : Filing) (row : JsonValue) : Prop where
  assessmentId : field "assessment_id" row = some (text f.assessmentId)
  createdAt : field "created_at" row = some (date f.recordedAt)
  members : ∀ k ∈ ["assessor_system_id", "assessor_task_id", "assessed_system_id",
    "assessed_task_id", "dimension", "assessment", "assessed_at"],
      (field k row).getD .null = (field k f.payload).getD .null

/-- An id that is one segment of a path and sent as it is. -/
def Segment (id : Text) : Prop :=
  id ≠ [] ∧ (raw id).all unreserved ∧ raw id ≠ lit "." ∧ raw id ≠ lit ".."

instance : DecidablePred Segment := fun id => by
  unfold Segment
  infer_instance

/-- An Exchange that files reports so, answers the others as duplicates or with an error, if
at all, and lists its filings on a task whose ids are segments of the path. -/
structure Files (w : World) : Prop where
  taken : ∀ h payload assessmentId recordedAt,
    filer h payload = some (assessmentId, recordedAt) →
      ∃ r data, w.reply h (postRequest "/api/v1/assess" payload) = .ok r ∧
        (r.statusCode = 200 ∨ r.statusCode = 201) ∧ r.body = .ok data ∧
        field "assessment_id" data = some (text assessmentId) ∧
        field "recorded_at" data = some (date recordedAt)
  refused : ∀ h payload, filer h payload = none →
    ∀ r, w.reply h (postRequest "/api/v1/assess" payload) = .ok r →
      r.statusCode ≠ 200 ∧ r.statusCode ≠ 201
  listed : ∀ h systemId taskId, Segment systemId → Segment taskId →
    ∃ r data row, w.reply h (assessmentsRequest (raw systemId) (raw taskId)) = .ok r ∧
      r.statusCode = 200 ∧ r.body = .ok data ∧
      field "system_id" data = some (text systemId) ∧ field "task_id" data = some (text taskId) ∧
      field "assessments" data =
        some (.arr (((filings filer h).filter
          (Filing.about (raw systemId) (raw taskId))).map row)) ∧
      ∀ f : Filing, f.Lists (row f)

end Exchange

section Runs

inductive Call where
  | report (c : ATPClient) (r : Report)
  | query (systemId taskId : PyStr)

variable (lib : Library) (w : World)

def logAfter (h : List Event) : Call → List Event
  | .report c r => ((r.submit c).run w h).log
  | .query systemId taskId => ((getAssessments lib systemId taskId).run w h).log

def returns (h : List Event) : Call → List AssessmentRecord
  | .report c r =>
    match ((r.submit c).run w h).result with
    | .ok (some record) => [record]
    | _ => []
  | .query _ _ => []

def history (calls : List Call) : List Event := calls.foldl (logAfter lib w) []

def returned (calls : List Call) : List AssessmentRecord :=
  emitted (logAfter lib w) (returns w) [] calls

def onTask (systemId taskId : PyStr) (record : AssessmentRecord) : Bool :=
  record.assessedSystemId = systemId && record.assessedTaskId = taskId

end Runs

section Records

variable {f : Filing} {r : Report} {row : JsonValue} {lib : Library}

theorem field_of_getD {k : String} {v x : JsonValue} (found : (field k v).getD .null = x)
    (present : x ≠ .null) : field k v = some x := by
  cases member : field k v with
  | none => exact absurd (by rw [← found, member]; rfl) present
  | some y => rw [member] at found; exact congrArg some found

theorem getOr_of_field {k k' : String} {v x : JsonValue} (found : field k' v = some x)
    (default : JsonValue) : getOr k default v = .ok ((field k v).getD default) := by
  cases v with
  | obj fields => rfl
  | _ => simp [field] at found

theorem ofValue_value (d : AssessmentDimension) :
    AssessmentDimension.ofValue (.str (lit d.value)) = some d := by
  cases d <;> rfl

theorem payload_members (r : Report) (assessor : Text) :
    field "assessor_system_id" (r.payload assessor) = some (text assessor) ∧
    (field "assessor_task_id" (r.payload assessor)).getD .null = opt text r.assessorTaskId ∧
    field "assessed_system_id" (r.payload assessor) = some (text r.systemId) ∧
    field "assessed_task_id" (r.payload assessor) = some (text r.taskId) ∧
    field "dimension" (r.payload assessor) = some (.str (lit r.dimension.value)) ∧
    field "assessment" (r.payload assessor) = some (text r.assessment) ∧
    field "assessed_at" (r.payload assessor) = some (date r.assessedAt) := by
  unfold Report.payload assessPayload
  cases r.assessorTaskId with
  | none =>
    simp [text, opt]
    rfl
  | some t => simp [text, opt]

theorem fromApiResponse_lists (lists : f.Lists row) {assessor : Text}
    (payload : f.payload = r.payload assessor) : AssessmentRecord.fromApiResponse lib row =
      .ok (reread (r.record assessor f.assessmentId f.recordedAt)) := by
  obtain ⟨assessorId, assessorTask, system, task, dimension, assessment, assessedAt⟩ :=
    payload_members r assessor
  have member : ∀ k ∈ ["assessor_system_id", "assessor_task_id", "assessed_system_id",
      "assessed_task_id", "dimension", "assessment", "assessed_at"], ∀ x, x ≠ .null →
        field k (r.payload assessor) = some x → getItem k row = .ok x := by
    intro k listed x present posted
    refine getItem_eq_ok.mpr (field_of_getD ?_ present)
    rw [lists.members k listed, payload, posted]
    rfl
  unfold AssessmentRecord.fromApiResponse
  rw [getItem_eq_ok.mpr lists.assessmentId, getItem_eq_ok.mpr lists.createdAt,
    getOr_of_field lists.createdAt, lists.members _ (by simp), payload, assessorTask,
    member _ (by simp) _ (by simp [text]) assessorId, member _ (by simp) _ (by simp [text]) system,
    member _ (by simp) _ (by simp [text]) task, member _ (by simp) _ (by simp) dimension,
    member _ (by simp) _ (by simp [text]) assessment,
    member _ (by simp) _ (by simp [date, text]) assessedAt]
  simp only [bind_ok, ofValue_value, valid, isoField_date, asText_raw, nullable_python]
  rfl

end Records

section Submissions

variable {filer : Filer} {w : World} {h : List Event} {c : ATPClient} {first : Text × Text}
  {r : Report} {lib : Library}

theorem submit_log (registered : c.firstSystem = some first) :
    ((r.submit c).run w h).log =
      h ++ [.send (postRequest "/api/v1/assess" (r.payload first.2))] :=
  reportAssessment_log registered _ _ _ _ _ _

def Report.decode (r : Report) (assessor : Text) (reply : Response) :
    Except Exc (Option AssessmentRecord) :=
  decodeAssessment assessor (raw r.systemId) (text r.taskId) r.dimension (raw r.assessment)
    r.assessedAt (r.assessorTaskId.map raw) reply

theorem submit_result (registered : c.firstSystem = some first)
    (result : Option AssessmentRecord) : ((r.submit c).run w h).result = .ok result ↔
      ∃ reply, w.reply h (postRequest "/api/v1/assess" (r.payload first.2)) = .ok reply ∧
        r.decode first.2 reply = .ok result := by
  have posted : ((do
      let reply ← send (postRequest "/api/v1/assess" (r.payload first.2))
      .lift (r.decode first.2 reply) : Run (Option AssessmentRecord)).run w h).result =
        w.reply h (postRequest "/api/v1/assess" (r.payload first.2)) >>= r.decode first.2 := by
    rw [Effects.Run.run_bind, send, Effects.Run.run_perform]
    cases w.reply h (postRequest "/api/v1/assess" (r.payload first.2)) with
    | error e => rfl
    | ok reply => rfl
  rw [← bind_eq_ok, ← posted, Report.submit, reportAssessment, registered]
  dsimp only
  rw [Effects.Run.run_attempt]
  split
  · exact Iff.rfl
  · next e failed =>
    refine iff_of_false ?_ fun succeeded => ?_
    · split <;> simp
    · exact absurd (failed.symm.trans succeeded) (by simp)

theorem decode_filed {assessor assessmentId : Text} {recordedAt : DateTime} {reply : Response}
    {data : JsonValue} (status : reply.statusCode = 200 ∨ reply.statusCode = 201)
    (body : reply.body = .ok data) (hasId : field "assessment_id" data = some (text assessmentId))
    (hasTime : field "recorded_at" data = some (date recordedAt)) :
    r.decode assessor reply = .ok (some (r.record assessor assessmentId recordedAt)) := by
  have accepted : acceptedBody reply .queryError "Assessment submission failed with status " =
      .ok data := by
    unfold acceptedBody
    rcases status with status | status <;> simp [status, Response.json_ok body]
  have fresh : reply.statusCode ≠ 409 := by
    rcases status with status | status <;> simp [status]
  rw [Report.decode, decodeAssessment, if_neg fresh, accepted]
  simp only [bind_ok, assessmentOf, getItem_eq_ok.mpr hasId, getItem_eq_ok.mpr hasTime,
    isoField_date, valid, asText_raw]
  rfl

theorem decode_refused {assessor : Text} {reply : Response} {record : AssessmentRecord}
    (status : reply.statusCode ≠ 200 ∧ reply.statusCode ≠ 201) :
    r.decode assessor reply ≠ .ok (some record) := by
  unfold Report.decode decodeAssessment
  by_cases duplicate : reply.statusCode = 409
  · rw [if_pos duplicate]
    exact nofun
  · rw [if_neg duplicate]
    intro read
    obtain ⟨data, accepted, _⟩ := bind_eq_ok.mp read
    unfold acceptedBody at accepted
    by_cases refused : reply.statusCode = 401
    · simp [refused] at accepted
    · rw [if_neg refused, if_pos status] at accepted
      obtain ⟨detail, _, failed⟩ := bind_eq_ok.mp accepted
      simp at failed

theorem submit_returns_iff (files : Files filer w) (registered : c.firstSystem = some first)
    (record : AssessmentRecord) : ((r.submit c).run w h).result = .ok (some record) ↔
      ∃ assessmentId recordedAt, filer h (r.payload first.2) = some (assessmentId, recordedAt) ∧
        record = r.record first.2 assessmentId recordedAt := by
  rw [submit_result registered]
  cases stamp : filer h (r.payload first.2) with
  | none =>
    refine iff_of_false ?_ (by simp)
    rintro ⟨reply, replied, read⟩
    exact decode_refused (files.refused h _ stamp reply replied) read
  | some stamp' =>
    obtain ⟨assessmentId, recordedAt⟩ := stamp'
    obtain ⟨reply, data, replied, status, body, hasId, hasTime⟩ := files.taken h _ _ _ stamp
    simp [replied, decode_filed status body hasId hasTime, eq_comm]

theorem submit_unregistered (absent : c.firstSystem = none) :
    ∃ e, (r.submit c).run w h = ⟨.error e, h⟩ := by
  rw [Report.submit, reportAssessment, absent]
  exact ⟨_, rfl⟩

end Submissions

section Histories

variable {filer : Filer} {w : World} {h : List Event} {lib : Library}

theorem foldl_append_singleton (h l : List Event) :
    l.foldl (fun h e => h ++ [e]) h = h ++ l := by
  induction l generalizing h with
  | nil => exact (List.append_nil h).symm
  | cons e l ih => rw [List.foldl_cons, ih, List.append_assoc]; rfl

theorem filings_append (h : List Event) (e : Event) :
    filings filer (h ++ [e]) = filings filer h ++ filed filer h e := by
  rw [filings, emitted_append, foldl_append_singleton]
  exact congrArg (filings filer h ++ ·) (List.append_nil _)

theorem filed_report (h : List Event) (payload : JsonValue) :
    filed filer h (.send (postRequest "/api/v1/assess" payload)) =
      (filer h payload).toList.map fun (assessmentId, recordedAt) =>
        ⟨payload, assessmentId, recordedAt⟩ := by
  change (if lit "/api/v1/assess" = lit "/api/v1/assess" then _ else []) = _
  exact if_pos rfl

theorem query_log (systemId taskId : PyStr) : ((getAssessments lib systemId taskId).run w h).log =
    h ++ [.send (assessmentsRequest systemId taskId)] := by
  rw [getAssessments, translated_log, Effects.Run.log_bind]
  · rfl
  · intro r l
    rfl

theorem returns_filed {c : ATPClient} {r : Report} {record : AssessmentRecord}
    (result : ((r.submit c).run w h).result = .ok (some record)) :
    returns w h (.report c r) = [record] := by
  rw [returns, result]

theorem returns_refused {c : ATPClient} {r : Report}
    (result : ∀ record, ((r.submit c).run w h).result ≠ .ok (some record)) :
    returns w h (.report c r) = [] := by
  rw [returns]
  split
  · next record found => exact absurd found (result record)
  · rfl

def Filing.Recorded (f : Filing) (record : AssessmentRecord) : Prop :=
  ∃ (r : Report) (assessor : Text), f.payload = r.payload assessor ∧
    record = r.record assessor f.assessmentId f.recordedAt

theorem filings_call (files : Files filer w) {records : List AssessmentRecord}
    (recorded : List.Forall₂ Filing.Recorded (filings filer h) records) (call : Call) :
    List.Forall₂ Filing.Recorded (filings filer (logAfter lib w h call))
      (records ++ returns w h call) := by
  cases call with
  | query systemId taskId =>
    rw [logAfter, query_log, filings_append, returns]
    simpa [filed, assessmentsRequest] using recorded
  | report c r =>
    cases registered : c.firstSystem with
    | none =>
      obtain ⟨e, run⟩ := submit_unregistered (w := w) (h := h) (r := r) registered
      simpa [logAfter, returns, run] using recorded
    | some first =>
      rw [logAfter, submit_log registered, filings_append, filed_report]
      cases stamp : filer h (r.payload first.2) with
      | none =>
        have nothing : returns w h (.report c r) = [] :=
          returns_refused fun record => by simp [submit_returns_iff files registered, stamp]
        simpa [nothing] using recorded
      | some stamp' =>
        have filing : returns w h (.report c r) = [r.record first.2 stamp'.1 stamp'.2] :=
          returns_filed ((submit_returns_iff files registered _).mpr ⟨_, _, stamp, rfl⟩)
        rw [filing]
        exact List.rel_append recorded (.cons ⟨r, first.2, rfl, rfl⟩ .nil)

theorem filings_calls (files : Files filer w) (calls : List Call)
    {records : List AssessmentRecord}
    (recorded : List.Forall₂ Filing.Recorded (filings filer h) records) :
    List.Forall₂ Filing.Recorded (filings filer (calls.foldl (logAfter lib w) h))
      (records ++ emitted (logAfter lib w) (returns w) h calls) := by
  induction calls generalizing h records with
  | nil => simpa [emitted] using recorded
  | cons call calls ih =>
    rw [List.foldl_cons, emitted, ← List.append_assoc]
    exact ih (filings_call files recorded call)

theorem filings_history (files : Files filer w) (calls : List Call) :
    List.Forall₂ Filing.Recorded (filings filer (history lib w calls)) (returned lib w calls) := by
  have start : List.Forall₂ Filing.Recorded (filings filer []) [] := .nil
  simpa [history, returned] using filings_calls files calls start

end Histories

section Listings

variable {filer : Filer} {w : World} {h : List Event} {lib : Library}

theorem about_recorded {f : Filing} {record : AssessmentRecord} (recorded : f.Recorded record)
    (systemId taskId : PyStr) : f.about systemId taskId = onTask systemId taskId record := by
  obtain ⟨r, assessor, payload, rfl⟩ := recorded
  obtain ⟨_, _, system, task, _⟩ := payload_members r assessor
  have same : ∀ (a : Text) (b : PyStr), isText b (text a) = decide (raw a = b) :=
    fun a b => decide_eq_decide.mpr eq_comm
  rw [Filing.about, payload, system, task]
  exact congrArg₂ (· && ·) (same _ _) (same _ _)

theorem assessmentList_listed {row : Filing → JsonValue} (lists : ∀ f : Filing, f.Lists (row f))
    {filings : List Filing} {records : List AssessmentRecord}
    (recorded : List.Forall₂ Filing.Recorded filings records) (systemId taskId : PyStr) :
    assessmentList lib (.arr ((filings.filter (Filing.about systemId taskId)).map row)) =
      .ok ((records.filter (onTask systemId taskId)).map reread) := by
  change ((filings.filter (Filing.about systemId taskId)).map row).mapM
    (AssessmentRecord.fromApiResponse lib) = _
  induction recorded with
  | nil => rfl
  | @cons f record filings records first rest ih =>
    rw [List.filter_cons, List.filter_cons, about_recorded first]
    split
    · obtain ⟨r, assessor, payload, rfl⟩ := first
      rw [List.map_cons, List.mapM_cons, fromApiResponse_lists (lists f) payload, ih]
      rfl
    · exact ih

def listing (systemId taskId : PyStr) (records : List AssessmentRecord) : AssessmentsResponse :=
  ⟨systemId, taskId, (records.filter (onTask systemId taskId)).map reread⟩

theorem query_result (files : Files filer w) (calls : List Call) {systemId taskId : Text}
    (system : Segment systemId) (task : Segment taskId) :
    ((getAssessments lib (raw systemId) (raw taskId)).run w (history lib w calls)).result =
      .ok (listing (raw systemId) (raw taskId) (returned lib w calls)) := by
  obtain ⟨r, data, row, replied, status, body, system, task, rows, lists⟩ :=
    files.listed (history lib w calls) systemId taskId system task
  have decoded : decodeAssessments lib r =
      .ok (listing (raw systemId) (raw taskId) (returned lib w calls)) := by
    have told : listedBody r "Assessment query failed with status " = .ok data := by
      simp [listedBody, status, Response.json_ok body]
    rw [decodeAssessments, told, bind_ok, AssessmentsResponse.fromApiResponse,
      getItem_eq_ok.mpr system, getItem_eq_ok.mpr task, getOr_of_field system, rows]
    simp only [bind_ok, Option.getD_some,
      assessmentList_listed lists (filings_history files calls) (raw systemId) (raw taskId)]
    rfl
  have answered : (do
      let r ← send (assessmentsRequest (raw systemId) (raw taskId))
      .lift (decodeAssessments lib r) : Run AssessmentsResponse).run w (history lib w calls) =
        ⟨.ok (listing (raw systemId) (raw taskId) (returned lib w calls)),
          history lib w calls ++ [.send (assessmentsRequest (raw systemId) (raw taskId))]⟩ := by
    rw [Effects.Run.run_bind, send, Effects.Run.run_perform, replied, Effects.Run.next_ok,
      Effects.Run.run_lift, decoded]
  rw [getAssessments, translated, Effects.Run.run_attempt_ok w _ answered]

/-- However reports by any number of clients and queries follow one another: a report of a
registered client returns a record exactly if it is filed, its own with the id and the time of
the filing; and a query with ids that are segments of its path returns exactly the records on
the task that the reports have returned so far, in order. -/
theorem listed_returned (files : Files filer w) (calls : List Call) :
    (∀ (c : ATPClient) (first : Text × Text) (r : Report), c.firstSystem = some first →
      ∀ record, ((r.submit c).run w (history lib w calls)).result = .ok (some record) ↔
        ∃ assessmentId recordedAt,
          filer (history lib w calls) (r.payload first.2) = some (assessmentId, recordedAt) ∧
            record = r.record first.2 assessmentId recordedAt) ∧
    ∀ systemId taskId : Text, Segment systemId → Segment taskId →
      ((getAssessments lib (raw systemId) (raw taskId)).run w (history lib w calls)).result =
        .ok (listing (raw systemId) (raw taskId) (returned lib w calls)) :=
  ⟨fun _ _ _ registered record => submit_returns_iff files registered record,
    fun _ _ system task => query_result files calls system task⟩

end Listings

section Sample

def firstOnly : Filer := fun h _ => if h.isEmpty then some ("a-1".toList, onePm) else none

def Filing.row (f : Filing) : JsonValue :=
  match f.payload with
  | .obj fields => .obj ((lit "assessment_id", text f.assessmentId) ::
      (lit "created_at", date f.recordedAt) :: fields)
  | _ => record [("assessment_id", text f.assessmentId), ("created_at", date f.recordedAt)]

theorem Segment.other {id : Text} (segment : Segment id) {d : CodePoint}
    (reserved : unreserved d = false) : d ∉ raw id := by
  intro member
  have kept := List.all_eq_true.mp segment.2.1 d member
  exact absurd (kept.symm.trans reserved) (by decide)

theorem Segment.plain {id : Text} (segment : Segment id) : Plain (raw id) := by
  intro c member
  rw [endsPath, Bool.or_eq_false_iff, decide_eq_false_iff_not, decide_eq_false_iff_not]
  constructor
  · rintro rfl
    exact segment.other (by decide) member
  · rintro rfl
    exact segment.other (by decide) member

def queried (path : PyStr) : PyStr × PyStr :=
  let rest := path.drop (lit "/api/v1/systems/").length
  let systemId := rest.takeWhile (· ≠ ofChar '/')
  let tail := rest.drop (systemId.length + (lit "/tasks/").length)
  (systemId, tail.take (tail.length - (lit "/assessments").length))

def filingWorld : World where
  reply := fun h r =>
    match r with
    | ⟨_, .post, _, payload⟩ =>
      match firstOnly h (payload.getD .null) with
      | some (assessmentId, recordedAt) => .ok (answer 201 (record
          [("assessment_id", text assessmentId), ("recorded_at", date recordedAt)]))
      | none => .ok (answer 409 (record []))
    | ⟨_, _, url, _⟩ =>
      let (systemId, taskId) := queried (urlPath url)
      let listed := (filings firstOnly h).filter (Filing.about systemId taskId)
      .ok (answer 200 (record [("system_id", .str systemId), ("task_id", .str taskId),
        ("assessments", .arr (listed.map Filing.row))]))
  save := fun _ _ => .ok ()
  now := fun _ => noon.wall

theorem queried_url {systemId taskId : Text} (system : Segment systemId) (task : Segment taskId) :
    queried (urlPath (assessmentsRequest (raw systemId) (raw taskId)).url) =
      (raw systemId, raw taskId) := by
  have inside : ∀ c ∈ raw systemId, decide (c ≠ ofChar '/') = true := by
    intro c member
    refine decide_eq_true ?_
    rintro rfl
    exact system.other (by decide) member
  have path : urlPath (assessmentsRequest (raw systemId) (raw taskId)).url =
      lit "/api/v1/systems/" ++
        (raw systemId ++ (lit "/tasks/" ++ (raw taskId ++ lit "/assessments"))) := by
    simp only [assessmentsRequest, List.append_assoc]
    rw [urlPath_append_plain (by decide), urlPath_append_plain system.plain,
      urlPath_append_plain (by decide), urlPath_append_plain task.plain, urlPath_plain (by decide)]
  have rest : (urlPath (assessmentsRequest (raw systemId) (raw taskId)).url).drop
      (lit "/api/v1/systems/").length =
        raw systemId ++ (lit "/tasks/" ++ (raw taskId ++ lit "/assessments")) := by
    rw [path, List.drop_left]
  have first : (raw systemId ++ (lit "/tasks/" ++ (raw taskId ++ lit "/assessments"))).takeWhile
      (· ≠ ofChar '/') = raw systemId := by
    rw [List.takeWhile_append_of_pos inside]
    exact List.append_nil _
  simp only [queried, rest, first]
  rw [← List.append_assoc, ← List.length_append, List.drop_left, List.length_append,
    Nat.add_sub_cancel, List.take_left]

theorem lists_row (f : Filing) : f.Lists f.row := by
  have other : ∀ k ∈ ["assessor_system_id", "assessor_task_id", "assessed_system_id",
      "assessed_task_id", "dimension", "assessment", "assessed_at"],
        lit "assessment_id" ≠ lit k ∧ lit "created_at" ≠ lit k := by
    intro k listed
    simp only [List.mem_cons, List.not_mem_nil, or_false] at listed
    rcases listed with rfl | rfl | rfl | rfl | rfl | rfl | rfl <;> simp [lit_inj]
  obtain ⟨payload, assessmentId, recordedAt⟩ := f
  cases payload with
  | obj fields =>
    refine ⟨by simp [Filing.row, field], by simp [Filing.row, field, lit_inj], fun k listed => ?_⟩
    simp [Filing.row, field, other k listed]
  | _ =>
    refine ⟨by simp [Filing.row], by simp [Filing.row], fun k listed => ?_⟩
    simp [Filing.row, field, record, other k listed]

theorem files_filingWorld : Files firstOnly filingWorld where
  taken := by
    intro h payload assessmentId recordedAt taken
    refine ⟨answer 201 (record [("assessment_id", text assessmentId),
      ("recorded_at", date recordedAt)]), _, ?_, .inr rfl, rfl, by simp, by simp⟩
    simp [filingWorld, postRequest, taken]
  refused := by
    intro h payload known r replied
    obtain rfl : answer 409 (record []) = r := by
      simpa [filingWorld, postRequest, known] using replied
    exact ⟨by decide, by decide⟩
  listed := by
    intro h systemId taskId system task
    refine ⟨answer 200 (record [("system_id", text systemId), ("task_id", text taskId),
      ("assessments", .arr (((filings firstOnly h).filter
        (Filing.about (raw systemId) (raw taskId))).map Filing.row))]), _, Filing.row, ?_, rfl, rfl,
      by simp, by simp, by simp, lists_row⟩
    have routed := queried_url system task
    simp only [assessmentsRequest, List.append_assoc] at routed
    simp [filingWorld, assessmentsRequest, routed, text]

def sampleReport : Report where
  systemId := "s".toList
  taskId := sampleTask.str
  dimension := .quality
  assessment := "passed".toList
  assessedAt := onePm
  assessorTaskId := none

theorem repeated_listed : ((getAssessments isoLibrary (raw "s".toList) (raw sampleTask.str)).run
    filingWorld (history isoLibrary filingWorld
      [.report sampleClient sampleReport, .report sampleClient sampleReport])).result =
        .ok ⟨lit "s", raw sampleTask.str, [sampleReport.record "v".toList "a-1".toList onePm]⟩ := by
  have registered : sampleClient.firstSystem = some ("me".toList, "v".toList) := rfl
  have first : returns filingWorld [] (.report sampleClient sampleReport) =
      [sampleReport.record "v".toList "a-1".toList onePm] :=
    returns_filed ((submit_returns_iff files_filingWorld registered _).mpr ⟨_, _, rfl, rfl⟩)
  have second : ∀ e, returns filingWorld [e] (.report sampleClient sampleReport) = [] := fun e =>
    returns_refused fun record => by
      simp [submit_returns_iff files_filingWorld registered, firstOnly]
  have records : returned isoLibrary filingWorld
      [.report sampleClient sampleReport, .report sampleClient sampleReport] =
        [sampleReport.record "v".toList "a-1".toList onePm] := by
    simp only [returned, emitted, first, logAfter, submit_log registered, List.nil_append, second,
      List.append_nil]
  rw [(listed_returned files_filingWorld _).2 _ _ (by decide) (by decide), records]
  rfl

end Sample

end AgentTrust.AssessmentLedger
