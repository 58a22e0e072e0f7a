import AgentTrust.ReplyShapes

/-! Replies of the Exchange that are not what a method expects. A method translates failed
requests, missing members and invalid values into its own errors; what it lets through is a
member of a wrong type, where its decoder reaches it. -/

namespace AgentTrust.ExchangeReplies

open JsonTree JsonTree.Json PyText PyJson Gregorian PyDateTime OrderedDict PyValue Models Hashing
  Effects Exchange Client ExchangeQueries HonestAgent Registration ReplyShapes
open Effects.Run hiding pure bind

section Bodies

variable {α : Type} {r : Response} {f : JsonValue → Except Exc α} {P : JsonValue → Prop}

/-- A body is read as a value with `P`, or, where `none_` allows it, is no JSON. -/
def Carries (none_ : Prop) (P : JsonValue → Prop) : Except Unread JsonValue → Prop
  | .ok data => P data
  | .error .malformed => none_
  | .error .tooDeep => False

/-- The body of an error reply is empty, or no JSON, or an object. -/
def Explains (r : Response) : Prop := r.text = [] ∨ Carries True (fun v => isRecord v) r.body

/-- A reply with a status in `ok` has a body with `P`, if it has a JSON body; one with a status
that is not in `own` either explains its error. -/
def Fits (own ok : List Nat) (P : JsonValue → Prop) (r : Response) : Prop :=
  r.statusCode ∉ own → if r.statusCode ∈ ok then Carries True P r.body else Explains r

theorem carries_congr {none_ none' : Prop} {P' : JsonValue → Prop} {body : Except Unread JsonValue}
    (malformed : none_ ↔ none') (same : ∀ v, P v ↔ P' v) :
    Carries none_ P body ↔ Carries none' P' body := by
  cases body with
  | ok data => exact same data
  | error unread =>
    cases unread with
    | malformed => exact malformed
    | tooDeep => exact Iff.rfl

theorem json_raises {Q : Exc → Prop} (deep : ¬ Q (foreign .recursionError))
    (f : JsonValue → Except Exc α) : RaisesOnly Q (r.json >>= f) ↔
      Carries (Q (foreign .valueError)) (fun data => RaisesOnly Q (f data)) r.body := by
  cases body : r.body with
  | ok data =>
    rw [Response.json_ok body, bind_ok]
    rfl
  | error unread =>
    rw [Response.json_error body, bind_error, raisesOnly_error]
    cases unread with
    | malformed => rfl
    | tooDeep => exact iff_of_false deep id

theorem errorDetail_raises {Q : Exc → Prop} {cls : ExcClass} {m : JsonValue → Message}
    (own : ∀ m, Q ⟨cls, m⟩) (noMember : ¬ Q (foreign .attributeError))
    (deep : ¬ Q (foreign .recursionError)) :
    RaisesOnly Q (r.errorDetail >>= fun detail => (.error ⟨cls, m detail⟩ : Except Exc α)) ↔
      r.text = [] ∨ Carries (Q (foreign .valueError)) (fun v => isRecord v) r.body := by
  rw [raisesOnly_bind, and_iff_left fun _ _ => (raisesOnly_error _).mpr (own _)]
  unfold Response.errorDetail
  by_cases empty : r.text = []
  · simp [empty]
  · rw [if_pos empty, json_raises deep, or_iff_right empty]
    refine carries_congr Iff.rfl fun v => ?_
    cases shape : isRecord v with
    | true =>
      obtain ⟨fields, rfl⟩ := obj_of_isRecord shape
      exact iff_of_true (raisesOnly_ok _) rfl
    | false => simp [(rigid_of_not_record shape).member, noMember]

theorem json_handled (f : JsonValue → Except Exc α) : RaisesOnly Handled (r.json >>= f) ↔
    Carries True (fun data => RaisesOnly Handled (f data)) r.body :=
  (json_raises not_handled_recursion f).trans
    (carries_congr (iff_true_intro (handled_value _)) fun _ => Iff.rfl)

theorem errorDetail_handled {cls : ExcClass} {m : JsonValue → Message}
    (own : ∀ m, Handled ⟨cls, m⟩) :
    RaisesOnly Handled (r.errorDetail >>= fun detail => (.error ⟨cls, m detail⟩ : Except Exc α)) ↔
      Explains r :=
  (errorDetail_raises own not_handled_attribute not_handled_recursion).trans
    (or_congr_right (carries_congr (iff_true_intro (handled_value _)) fun _ => Iff.rfl))

/-- How a method treats the statuses: those in `own` raise an error of its own, those in `ok`
give the body, and the others are explained by the reply. -/
structure Checks (own ok : List Nat) (r : Response) (body : Except Exc JsonValue) : Prop where
  refused : r.statusCode ∈ own → ∃ e, body = .error e ∧ Handled e
  accepted : r.statusCode ∉ own → r.statusCode ∈ ok → body = r.json
  failed : r.statusCode ∉ own → r.statusCode ∉ ok → ∃ (cls : ExcClass) (m : JsonValue → Message),
    (∀ m, Handled ⟨cls, m⟩) ∧ body = r.errorDetail >>= fun detail => .error ⟨cls, m detail⟩

theorem Checks.fits {own ok : List Nat} {body : Except Exc JsonValue}
    (checks : Checks own ok r body) (decode : ∀ v, RaisesOnly Handled (f v) ↔ P v) :
    RaisesOnly Handled (body >>= f) ↔ Fits own ok P r := by
  unfold Fits
  by_cases special : r.statusCode ∈ own
  · obtain ⟨e, raised, handled⟩ := checks.refused special
    simp [raised, special, handled]
  · by_cases good : r.statusCode ∈ ok
    · rw [checks.accepted special good, json_handled]
      simp [special, good, decode]
    · obtain ⟨cls, m, own, refused⟩ := checks.failed special good
      rw [refused, bind_assoc]
      simp only [bind_error, errorDetail_handled own]
      simp [special, good]

theorem handled_auth : Handled invalidApiKey := .inl rfl

theorem acceptedBody_checks {cls : ExcClass} (own : ∀ m, Handled ⟨cls, m⟩) (label : String) :
    Checks [401] [200, 201] r (acceptedBody r cls label) where
  refused := fun h => ⟨invalidApiKey, by simp_all [acceptedBody], handled_auth⟩
  accepted := fun _ h => by
    rcases List.mem_pair.mp h with ok | ok <;> simp [acceptedBody, ok]
  failed := fun h h' => ⟨cls, fun detail => msg label ++ statusText r detail, own, by
    simp_all [acceptedBody]⟩

theorem queryBody_checks (notFound : Message) :
    Checks [401, 404] [200] r (queryBody r notFound) where
  refused := fun h => by
    rcases List.mem_pair.mp h with status | status
    · exact ⟨invalidApiKey, by simp [queryBody, status], handled_auth⟩
    · exact ⟨⟨.queryError, notFound⟩, by simp [queryBody, status], handled_query _⟩
  accepted := fun _ h => by simp_all [queryBody]
  failed := fun h h' => ⟨.queryError, fun detail =>
    msg "Query failed with status " ++ statusText r detail, handled_query, by
    simp_all [queryBody]⟩

theorem listedBody_checks (label : String) : Checks [401] [200] r (listedBody r label) where
  refused := fun h => ⟨invalidApiKey, by simp_all [listedBody], handled_auth⟩
  accepted := fun _ h => by simp_all [listedBody]
  failed := fun h h' => ⟨.queryError, fun detail => msg label ++ statusText r detail,
    handled_query, by simp_all [listedBody]⟩

theorem decodeRegistration_fits (lax : Lax) : RaisesOnly Handled (decodeRegistration lax r) ↔
    Fits [401] [200, 201] (Shaped registrationMembers) r :=
  (acceptedBody_checks (by exact fun _ => .inl rfl) _).fits fun _ =>
    shaped_iff (fun other => not_handled_item other _ _) (registration_handled lax)

theorem created_fits (label : String) :
    RaisesOnly Handled (acceptedBody r .commitError label >>= CommitResponse.ofData) ↔
      Fits [401] [200, 201] (Shaped commitResponseMembers) r :=
  (acceptedBody_checks (by exact fun _ => .inl rfl) label).fits fun _ =>
    shaped_iff (fun other => not_handled_item other _ _) commitResponse_handled

theorem decodeSystem_fits (notFound : Message) :
    RaisesOnly Handled (queryBody r notFound >>= System.fromApiResponse) ↔
      Fits [401, 404] [200] (fun data => isRecord data ∧
        (named data → WellTyped data systemMembers)) r := by
  refine (queryBody_checks notFound).fits fun v => ?_
  cases shape : isRecord v with
  | false => exact iff_of_false (not_handled_get shape _ _ _) (by simp)
  | true => exact (system_handled shape).trans (and_iff_right rfl).symm

theorem decodePublicKey_fits {lib : Library} : RaisesOnly Handled (decodePublicKey lib r) ↔
    Fits [] [200] (Shaped [member "public_key"]) r := by
  have decode : ∀ v, RaisesOnly Handled (getItem "public_key" v >>= fun key =>
      (.ok (pyStr lib.reprContainer key) : Except Exc PyStr)) ↔ Shaped [member "public_key"] v :=
    fun v => shaped_iff (fun other => not_handled_item other _ _) fun record =>
      plain_item record fun _ => iff_of_true (raisesOnly_ok _) trivial
  unfold Fits
  by_cases ok : r.statusCode = 200
  · have body : decodePublicKey lib r = r.json >>= fun data => getItem "public_key" data >>=
        fun key => .ok (pyStr lib.reprContainer key) := by
      rw [decodePublicKey, if_neg (by simp [ok])]
      rfl
    rw [body, json_handled]
    simp [ok, decode]
  · have refused : decodePublicKey lib r = r.errorDetail >>= fun detail => .error ⟨.queryError,
        msg "Failed to fetch public key with status " ++ statusText r detail⟩ := by
      simp [decodePublicKey, ok]
    rw [refused, errorDetail_handled handled_query]
    simp [ok]

end Bodies

section Operations

variable {w : World} {h : List Event} {α : Type}

inductive Operation where
  | registerSystem (a : Application) (now : Wall)
  | createCommit (systemId taskId : Text) (sketch : ProofSketch)
  | getCommit (commitId : PyStr)
  | getSystemCommits (systemId : PyStr) (status : Option CommitStatus) (limit offset : Int)
  | getCommitBySystemAndTask (systemId : PyStr) (taskId : JsonValue)
  | getSystem (systemId : PyStr)
  | reportAssessment (assessedSystemId : PyStr) (assessedTaskId : JsonValue)
      (dimension : AssessmentDimension) (assessment : PyStr) (assessedAt : DateTime)
      (assessorTaskId : Option PyStr)
  | getAssessments (systemId taskId : PyStr)
  | getExchangePublicKey

def Operation.ends (lib : Library) (lax : Lax) (c : ATPClient) (w : World) (h : List Event) :
    Operation → Except Exc Unit
  | .registerSystem a now =>
    ((Registration.registerSystem lax c a now).run w h).result.map fun _ => ()
  | .createCommit systemId taskId sketch =>
    ((Client.createCommit c systemId taskId sketch).run w h).result.map fun _ => ()
  | .getCommit commitId => ((Client.getCommit lib commitId).run w h).result.map fun _ => ()
  | .getSystemCommits systemId status limit offset =>
    ((ExchangeQueries.getSystemCommits lib systemId status limit offset).run w h).result.map
      fun _ => ()
  | .getCommitBySystemAndTask systemId taskId =>
    ((Client.getCommitBySystemAndTask lib systemId taskId).run w h).result.map fun _ => ()
  | .getSystem systemId => ((Client.getSystem systemId).run w h).result.map fun _ => ()
  | .reportAssessment systemId taskId dimension assessment assessedAt assessorTaskId =>
    ((Client.reportAssessment c systemId taskId dimension assessment assessedAt
      assessorTaskId).run w h).result.map fun _ => ()
  | .getAssessments systemId taskId =>
    ((ExchangeQueries.getAssessments lib systemId taskId).run w h).result.map fun _ => ()
  | .getExchangePublicKey =>
    ((ExchangeQueries.getExchangePublicKey lib).run w h).result.map fun _ => ()

/-- The name is not cached, or a system is registered, where the method depends on it. -/
def Operation.Applies (c : ATPClient) : Operation → Prop
  | .registerSystem a _ => c.registeredSystems.get a.name = none
  | .reportAssessment .. => c.firstSystem.isSome
  | _ => True

def Recorded (data : JsonValue) : Prop :=
  (∃ id, field "assessment_id" data = some (.str id)) ∧
    ∃ v d, field "recorded_at" data = some v ∧ isoField v = .ok d

/-- The replies on which an operation ends as it should. `report_assessment` translates
nothing, so its reply has to be as it expects in every way. -/
def Operation.Fits (lib : Library) : Operation → Response → Prop
  | .registerSystem _ _ => ExchangeReplies.Fits [401] [200, 201] (Shaped registrationMembers)
  | .createCommit _ _ _ => ExchangeReplies.Fits [401] [200, 201] (Shaped commitResponseMembers)
  | .getCommit _ => ExchangeReplies.Fits [401, 404] [200] (Shaped (commitMembers lib))
  | .getSystemCommits _ _ _ _ => ExchangeReplies.Fits [401] [200]
      (ListOf (Shaped (commitMembers lib)) (Commit.fromApiResponse lib))
  | .getCommitBySystemAndTask _ _ =>
    ExchangeReplies.Fits [401, 404] [200] (Shaped (commitMembers lib))
  | .getSystem _ => ExchangeReplies.Fits [401, 404] [200] fun data =>
      isRecord data ∧ (named data → WellTyped data systemMembers)
  | .reportAssessment _ taskId _ _ _ _ => fun r =>
    r.statusCode ∉ [401, 409] →
      if r.statusCode ∈ [200, 201] then Carries False (fun v => Recorded v ∧ isStr taskId) r.body
      else r.text = [] ∨ Carries False (fun v => isRecord v) r.body
  | .getAssessments _ _ => ExchangeReplies.Fits [401] [200] (Shaped (assessmentsMembers lib))
  | .getExchangePublicKey => ExchangeReplies.Fits [] [200] (Shaped [member "public_key"])

def exchange (outcome : Except Exc Response) (w : World) : World :=
  { w with reply := fun _ _ => outcome }

theorem translated_contained {network : String} {invalid : ExcClass} {x : Run α}
    (own : ∀ m, IsATPError ⟨invalid, m⟩) :
    RaisesOnly IsATPError ((translated network invalid x).run w h).result ↔
      RaisesOnly Handled (x.run w h).result := by
  rw [translated, raisesOnly_attempt]
  refine forall₂_congr fun e _ => ?_
  by_cases sent : e.cls = .requestError
  · rw [if_pos sent]
    refine iff_of_true ((raisesOnly_error _).mpr rfl) (.inr ?_)
    simp [Exc.isAny, sent]
  · rw [if_neg sent]
    by_cases expected : e.isAny [.keyError, .valueError]
    · rw [if_pos expected]
      refine iff_of_true ((raisesOnly_error _).mpr (own _)) (.inr ?_)
      simp only [Exc.isAny, List.contains_cons, Bool.or_eq_true] at expected ⊢
      exact .inr expected
    · rw [if_neg expected]
      have other : ¬ e.isAny [.requestError, .keyError, .valueError] := by
        simp only [Exc.isAny, List.contains_cons, Bool.or_eq_true, not_or] at expected ⊢
        exact ⟨by simpa using sent, expected⟩
      exact (raisesOnly_error e).trans (or_iff_left other).symm

theorem asked_contained {outcome : Except Exc Response}
    (sent : RaisesOnly (fun e => e.cls = .requestError) outcome) {req : Request}
    {k : Response → Run α} {P : Response → Prop}
    (decode : ∀ r l, RaisesOnly Handled ((k r).run (exchange outcome w) l).result ↔ P r) :
    RaisesOnly Handled ((do
      let r ← send req
      k r : Run α).run (exchange outcome w) h).result ↔ ∀ r, outcome = .ok r → P r := by
  cases outcome with
  | error e =>
    refine iff_of_true ((raisesOnly_error e).mpr (.inr ?_)) (by simp)
    simp [Exc.isAny, (raisesOnly_error e).mp sent]
  | ok r =>
    have replied : (send req).run (exchange (.ok r) w) h = ⟨.ok r, h ++ [.send req]⟩ := rfl
    rw [run_bind, replied, next_ok]
    simpa using decode r _

theorem query_contained {outcome : Except Exc Response}
    (sent : RaisesOnly (fun e => e.cls = .requestError) outcome) {network : String}
    {invalid : ExcClass} (own : ∀ m, IsATPError ⟨invalid, m⟩) {req : Request}
    {k : Response → Run α} {P : Response → Prop}
    (decode : ∀ r l, RaisesOnly Handled ((k r).run (exchange outcome w) l).result ↔ P r) :
    RaisesOnly IsATPError ((((translated network invalid do
      let r ← send req
      k r).run (exchange outcome w) h).result).map fun _ => ()) ↔ ∀ r, outcome = .ok r → P r := by
  rw [raisesOnly_map, translated_contained own]
  exact asked_contained sent decode

def Surfaced (e : Exc) : Prop := IsATPError e ∨ e.cls = .requestError

def Unexpected (e : Exc) : Prop := e.isAny [.keyError, .valueError, .typeError, .attributeError]

theorem not_surfaced {e : Exc} (unexpected : Unexpected e) : ¬ Surfaced e := by
  obtain ⟨cls, text⟩ := e
  cases cls <;> simp_all [Unexpected, Surfaced, IsATPError, Exc.isAny]

theorem valid_unexpected {β : Type} (x : Option β) : RaisesOnly Unexpected (valid x) :=
  valid_raises (by rfl) x

theorem getItem_unexpected (k : String) (data : JsonValue) :
    RaisesOnly Unexpected (getItem k data) :=
  getItem_raises (by exact fun _ => rfl) (by exact fun _ => rfl) k

theorem isoField_unexpected (v : JsonValue) : RaisesOnly Unexpected (isoField v) := by
  cases v with
  | str s => exact valid_unexpected _
  | _ => exact (raisesOnly_error _).mpr rfl

theorem surfaced_iff_ok {β : Type} {x : Except Exc β} (unexpected : RaisesOnly Unexpected x) :
    RaisesOnly Surfaced x ↔ ∃ a, x = .ok a := by
  cases x with
  | ok a => simp
  | error e => simp [not_surfaced ((raisesOnly_error e).mp unexpected)]

theorem not_surfaced_value : ¬ Surfaced (foreign .valueError) := not_surfaced rfl

theorem not_surfaced_recursion : ¬ Surfaced (foreign .recursionError) := by
  simp [Surfaced, IsATPError, foreign, Exc.isAny]

theorem asText_eq_some {v : JsonValue} {s : PyStr} : asText v = some s ↔ v = .str s := by
  cases v with
  | str t =>
    rw [Json.str.injEq]
    exact Option.some_inj
  | _ => simp [asText]

theorem decodeAssessment_eq (assessor : Text) (systemId : PyStr) (taskId : JsonValue)
    (dimension : AssessmentDimension) (assessment : PyStr) (assessedAt : DateTime)
    (assessorTaskId : Option PyStr) (r : Response) :
    decodeAssessment assessor systemId taskId dimension assessment assessedAt assessorTaskId r =
      if r.statusCode = 409 then .ok none
      else acceptedBody r .queryError "Assessment submission failed with status " >>= fun data =>
        (assessmentOf assessor systemId taskId dimension assessment assessedAt assessorTaskId
          data).map some := by
  have given : ∀ x : Except Exc AssessmentRecord, (do
      let record ← x
      return some record : Except Exc (Option AssessmentRecord)) = x.map some := by
    rintro (e | record) <;> rfl
  rw [decodeAssessment]
  split
  · rfl
  · simp only [given]

theorem assessmentOf_surfaced (assessor : Text) (systemId : PyStr) (taskId : JsonValue)
    (dimension : AssessmentDimension) (assessment : PyStr) (assessedAt : DateTime)
    (assessorTaskId : Option PyStr) (data : JsonValue) :
    RaisesOnly Surfaced (assessmentOf assessor systemId taskId dimension assessment assessedAt
        assessorTaskId data) ↔ Recorded data ∧ isStr taskId := by
  have unexpected : RaisesOnly Unexpected (assessmentOf assessor systemId taskId dimension
      assessment assessedAt assessorTaskId data) := by
    unfold assessmentOf
    simp only [raisesOnly_bind, getItem_unexpected, isoField_unexpected, valid_unexpected,
      true_and]
    intros
    exact raisesOnly_ok _
  rw [surfaced_iff_ok unexpected]
  have string : isStr taskId ↔ ∃ s, taskId = .str s := by
    cases taskId <;> simp [isStr]
  unfold assessmentOf Recorded
  simp only [bind_eq_ok, getItem_eq_ok, valid_eq_ok, asText_eq_some, string]
  constructor
  · rintro ⟨_, id, hasId, v, hasTime, d, time, s, rfl, t, task, _⟩
    exact ⟨⟨⟨s, hasId⟩, v, d, hasTime, time⟩, t, task⟩
  · rintro ⟨⟨⟨s, hasId⟩, v, d, hasTime, time⟩, t, task⟩
    exact ⟨_, _, hasId, v, hasTime, d, time, s, rfl, t, task, rfl⟩

theorem decodeAssessment_surfaced (assessor : Text) (systemId : PyStr) (taskId : JsonValue)
    (dimension : AssessmentDimension) (assessment : PyStr) (assessedAt : DateTime)
    (assessorTaskId : Option PyStr) (lib : Library) (r : Response) :
    RaisesOnly Surfaced (decodeAssessment assessor systemId taskId dimension assessment assessedAt
        assessorTaskId r) ↔
      (Operation.reportAssessment systemId taskId dimension assessment assessedAt
        assessorTaskId).Fits lib r := by
  rw [decodeAssessment_eq]
  unfold Operation.Fits
  by_cases duplicate : r.statusCode = 409
  · simp [duplicate]
  · rw [if_neg duplicate]
    by_cases refused : r.statusCode = 401
    · have unauthorised : Surfaced invalidApiKey := .inl rfl
      simp [acceptedBody, refused, unauthorised]
    · have special : r.statusCode ∉ [401, 409] := by simp [refused, duplicate]
      by_cases accepted : r.statusCode ∈ [200, 201]
      · have body := (acceptedBody_checks handled_query
          "Assessment submission failed with status ").accepted (by simpa using refused) accepted
        rw [body, json_raises not_surfaced_recursion]
        simp only [special, accepted, not_false_eq_true, if_true, forall_const]
        refine carries_congr (iff_false_intro not_surfaced_value) fun v => ?_
        exact raisesOnly_map.trans (assessmentOf_surfaced ..)
      · have body : acceptedBody r .queryError "Assessment submission failed with status " =
            r.errorDetail >>= fun detail => .error ⟨.queryError,
              msg "Assessment submission failed with status " ++ statusText r detail⟩ := by
          simp_all [acceptedBody]
        rw [body, bind_assoc]
        simp only [bind_error]
        rw [errorDetail_raises (by exact fun _ => .inl rfl) (not_surfaced rfl)
          not_surfaced_recursion]
        simp only [special, accepted, not_false_eq_true, if_false, forall_const]
        exact or_congr_right (carries_congr (iff_false_intro not_surfaced_value) fun _ => Iff.rfl)

theorem reportAssessment_contained {outcome : Except Exc Response}
    (sent : RaisesOnly (fun e => e.cls = .requestError) outcome) {c : ATPClient}
    (registered : c.firstSystem.isSome) (systemId : PyStr) (taskId : JsonValue)
    (dimension : AssessmentDimension) (assessment : PyStr) (assessedAt : DateTime)
    (assessorTaskId : Option PyStr) (lib : Library) :
    RaisesOnly IsATPError ((reportAssessment c systemId taskId dimension assessment assessedAt
        assessorTaskId).run (exchange outcome w) h).result ↔
      ∀ r, outcome = .ok r → (Operation.reportAssessment systemId taskId dimension assessment
        assessedAt assessorTaskId).Fits lib r := by
  obtain ⟨⟨name, assessor⟩, first⟩ := Option.isSome_iff_exists.mp registered
  have handler : ∀ {β : Type} (e : Exc) (l : List Event), RaisesOnly IsATPError
      ((if e.cls = .requestError then
        (.raise ⟨.networkError, msg "Network error reporting assessment: " ++ e.text⟩ : Run β)
        else .raise e).run (exchange outcome w) l).result ↔ Surfaced e := by
    intro β e l
    by_cases failed : e.cls = .requestError
    · rw [if_pos failed]
      exact iff_of_true ((raisesOnly_error _).mpr rfl) (.inr failed)
    · rw [if_neg failed]
      exact (raisesOnly_error e).trans (or_iff_left failed).symm
  rw [reportAssessment, first]
  dsimp only
  rw [raisesOnly_attempt]
  simp only [handler]
  cases outcome with
  | error e =>
    refine iff_of_true ((raisesOnly_error e).mpr (.inr ?_)) (by simp)
    exact (raisesOnly_error e).mp sent
  | ok r =>
    simp only [Except.ok.injEq, forall_eq']
    exact decodeAssessment_surfaced _ _ _ _ _ _ _ lib r

/-- Whatever the Exchange answers, an operation returns or raises an error of the package,
exactly if the reply fits it. -/
theorem replies_surface_iff (lib : Library) (lax : Lax) (c : ATPClient) (w : World)
    (h : List Event) {op : Operation} (applies : op.Applies c) {outcome : Except Exc Response}
    (sent : RaisesOnly (fun e => e.cls = .requestError) outcome) :
    RaisesOnly IsATPError (op.ends lib lax c (exchange outcome w) h) ↔
      ∀ r, outcome = .ok r → op.Fits lib r := by
  cases op with
  | registerSystem a now =>
    have fresh : c.registeredSystems.get a.name = none := applies
    rw [Operation.ends, registerSystem, fresh]
    refine query_contained sent (by exact fun _ => rfl) fun r l => ?_
    rw [run_lift_pure]
    exact raisesOnly_map.trans (decodeRegistration_fits lax)
  | createCommit systemId taskId sketch =>
    obtain ⟨proofHash, _, posted⟩ := createCommit_posts c systemId taskId sketch
      (exchange outcome w) h
    rw [Operation.ends, posted]
    refine query_contained sent (by exact fun _ => rfl) fun r l => ?_
    rw [run_lift_lift]
    exact created_fits _
  | getCommit commitId =>
    refine query_contained sent (by exact fun _ => rfl) fun r l => ?_
    exact (queryBody_checks _).fits fun v => commit_shaped
  | getSystemCommits systemId status limit offset =>
    refine query_contained sent (by exact fun _ => rfl) fun r l => ?_
    exact (listedBody_checks _).fits commitList_handled
  | getCommitBySystemAndTask systemId taskId =>
    refine query_contained sent (by exact fun _ => rfl) fun r l => ?_
    exact (queryBody_checks _).fits fun v => commit_shaped
  | getSystem systemId =>
    refine query_contained sent (by exact fun _ => rfl) fun r l => ?_
    rw [run_lift_lift]
    exact decodeSystem_fits _
  | reportAssessment systemId taskId dimension assessment assessedAt assessorTaskId =>
    rw [Operation.ends, raisesOnly_map]
    exact reportAssessment_contained sent applies _ _ _ _ _ _ lib
  | getAssessments systemId taskId =>
    refine query_contained sent (by exact fun _ => rfl) fun r l => ?_
    exact (listedBody_checks _).fits fun v =>
      shaped_iff (fun other => not_handled_item other _ _) assessments_handled
  | getExchangePublicKey =>
    refine query_contained sent (by exact fun _ => rfl) fun r l => ?_
    exact decodePublicKey_fits

end Operations

section Sample

def listedError : Response where
  statusCode := 500
  text := lit "[]"
  body := .ok (.arr [])

def sampleOperation : Operation :=
  .reportAssessment (lit "v") (.str (lit "t")) .integrity (lit "verified") ⟨noon.wall, none⟩ none

def endsOn (r : Response) (op : Operation) : Except Exc Unit :=
  op.ends isoLibrary strictLax sampleClient (exchange (.ok r) acceptingWorld) []

theorem unavailable_surfaces :
    RaisesOnly IsATPError (endsOn ⟨503, [], .error .malformed⟩ sampleOperation) := by
  have applies : sampleOperation.Applies sampleClient := by
    rw [sampleOperation, Operation.Applies]
    decide
  refine (replies_surface_iff isoLibrary strictLax sampleClient acceptingWorld [] applies
    (raisesOnly_ok _)).mpr ?_
  rintro r replied -
  obtain rfl := Except.ok.inj replied
  exact .inl rfl

/-- A list that explains an error, and a reply of success to a report that is no JSON. -/
theorem replies_escape :
    endsOn listedError (.getCommit (lit "c")) = .error (foreign .attributeError) ∧
      endsOn ⟨200, [], .error .malformed⟩ sampleOperation = .error (foreign .valueError) ∧
      ¬ IsATPError (foreign .attributeError) ∧ ¬ IsATPError (foreign .valueError) := by
  refine ⟨rfl, rfl, ?_, ?_⟩
  · simp [IsATPError, foreign, Exc.isAny]
  · simp [IsATPError, foreign, Exc.isAny]

end Sample

end AgentTrust.ExchangeReplies
