import AgentTrust.Courses
import AgentTrust.DependencyChallenges
import AgentTrust.Acceptance

/-! What the verifiers send, whatever they are answered. A verification asks the Exchange for
the verifier's own system and the agent for the task, may then query one commit, and may
last report on the task whose commit it would query. What comes of the report changes
nothing. -/

namespace AgentTrust.Traffic

open JsonTree JsonTree.Json PyText PyJson Gregorian PyDateTime OrderedDict PyValue Models Hashing
  Effects Exchange Client Tasks Verifier Disclosure HonestAgent DependencyChallenges
  Acceptance Courses
open Effects (Run)
open Exchange (Run)

section Sessions

def query (lib : Library) (systemId : PyStr) (taskId : JsonValue) : Event :=
  .send (commitRequest systemId (pyStr lib.reprContainer taskId))

def Reports (own : Text) (systemId : PyStr) (taskId : JsonValue) (assessorTaskId : Option PyStr)
    (l : List Event) : Prop :=
  ∃ (verdict : IntegrityAssessment) (now : Wall), l = [.clock, .send (postRequest "/api/v1/assess"
    (assessPayload own systemId taskId .integrity (lit verdict.value) (utcAt now)
      assessorTaskId))]

def Checks (lib : Library) (own : Text) (systemId : PyStr) (taskId : JsonValue)
    (assessorTaskId : Option PyStr) : List Event → Prop :=
  Then (Maybe (· = [query lib systemId taskId]))
    (Maybe (Reports own systemId taskId assessorTaskId))

def Identifies (own : Text) (challenger : JsonValue) : Prop :=
  ∃ exchangeUrl systemType name, challenger = challengerIdentity exchangeUrl own systemType name

/-- A verification of the task `requested` by the system `own`, as it is seen from outside. -/
def Session (lib : Library) (own : Text) (agentUrl requested : PyStr)
    (assessorTaskId : Option PyStr) (l : List Event) : Prop :=
  ∃ challenger rest, Identifies own challenger ∧
    l = .send (systemRequest (raw own)) ::
      .send ⟨.agent, .post, agentUrl, some (challengePayload requested challenger)⟩ :: rest ∧
    ∃ systemId taskId, Checks lib own systemId taskId assessorTaskId rest

end Sessions

section Parts

variable {c : ATPClient} {first : Text × Text} {lib : Library}

theorem emits_send (r : Request) : Emits (send r) (· = [.send r]) := emits_perform _ _

theorem emits_translated {α : Type} {x : Exchange.Run α} {L : List Event → Prop} (network : String)
    (invalid : ExcClass) (body : Emits x L) : Emits (translated network invalid x) L := by
  refine emits_attempt body fun e => ?_
  split
  · exact emits_raise rfl
  · split
    · exact emits_raise rfl
    · exact emits_raise rfl

theorem emits_getSystem (systemId : PyStr) :
    Emits (getSystem systemId) (· = [.send (systemRequest systemId)]) :=
  emits_translated _ _ <| emits_last (emits_send _) fun _ =>
    emits_silent (emits_lift rfl) (fun _ => emits_lift rfl) rfl

theorem emits_getCommit (systemId : PyStr) (taskId : JsonValue) :
    Emits (getCommitBySystemAndTask lib systemId taskId) (· = [query lib systemId taskId]) :=
  emits_translated _ _ <| emits_last (emits_send _) fun _ => emits_lift rfl

theorem fetchIdentity_leads (exchangeUrl systemId fallback : Text) :
    Leads (fetchIdentity exchangeUrl systemId fallback) fun challenger l =>
      Identifies systemId challenger ∧ l = [.send (systemRequest (raw systemId))] := by
  refine leads_attempt (emits_getSystem _) (fun system => leads_pure ?_) fun e => leads_pure ?_
  · rintro events rfl
    exact ⟨⟨_, _, _, rfl⟩, rfl⟩
  · rintro events rfl
    exact ⟨⟨_, _, _, rfl⟩, rfl⟩

theorem reportIntegrity_leads (registered : c.firstSystem = some first) (systemId : PyStr)
    (taskId : JsonValue) (verdict : IntegrityAssessment) (assessorTaskId : Option PyStr) :
    Leads (reportIntegrity c systemId taskId verdict assessorTaskId) fun _ =>
      Reports first.2 systemId taskId assessorTaskId := by
  refine leads_caught (fun w h => ?_) fun _ => ()
  have log := reportAssessment_log (w := w) (h := h ++ [.clock]) registered systemId taskId
    .integrity (lit verdict.value) (utcAt (w.now h)) assessorTaskId
  refine ⟨_, ?_, verdict, w.now h, rfl⟩
  rw [Run.run_bind_ok w h (a := w.now h) rfl]
  refine (Run.log_bind w (h ++ [.clock]) fun _ _ => ?_).trans ?_
  · rfl
  · rw [log, List.append_assoc]
    rfl

end Parts

section Verifiers

variable {c : ATPClient} {first : Text × Text} {lib : Library} {agentUrl taskId : PyStr}
  {assessorTaskId : Option PyStr}

theorem maybe_nil {τ : Type} {L : List τ → Prop} : Maybe L [] := .inl rfl

theorem emits_compareWithExchange (p : StoredProofOf PyStr) :
    Emits (compareWithExchange lib p) (· = [query lib (namedSystem p) (namedTask p)]) := by
  refine emits_attempt (emits_last (emits_getCommit _ _) fun commit => ?_) fun _ => emits_pure rfl
  split
  · exact emits_pure rfl
  · split
    · exact emits_pure rfl
    · exact emits_pure rfl

theorem emits_verify (p : StoredProofOf PyStr) :
    Emits (verify lib p) (Maybe (· = [query lib (namedSystem p) (namedTask p)])) := by
  refine emits_silent (emits_lift rfl) (fun _ => ?_) maybe_nil
  refine emits_silent (emits_lift rfl) (fun _ => ?_) maybe_nil
  split
  · exact emits_pure maybe_nil
  · split
    · exact emits_pure maybe_nil
    · refine emits_mono (emits_last (emits_compareWithExchange p) fun step2 => ?_) fun _ => .inr
      cases step2 with
      | error verdict => exact emits_pure rfl
      | ok commit =>
        dsimp only
        split
        · exact emits_pure rfl
        · exact emits_pure rfl

theorem checks_nil {own : Text} {systemId : PyStr} {taskId : JsonValue} :
    Checks lib own systemId taskId assessorTaskId [] := then_nil maybe_nil maybe_nil

def Asks (lib : Library) (own : Text) (agentUrl requested : PyStr)
    (assessorTaskId : Option PyStr) (challenger : JsonValue) : List Event → Prop :=
  Then (· = [.send ⟨.agent, .post, agentUrl, some (challengePayload requested challenger)⟩])
    fun rest => ∃ systemId taskId, Checks lib own systemId taskId assessorTaskId rest

theorem emits_pursue (registered : c.firstSystem = some first) (challenger : JsonValue)
    (verifying : Bool) :
    Emits (pursue lib c agentUrl taskId challenger verifying assessorTaskId)
      (Asks lib first.2 agentUrl taskId assessorTaskId challenger) := by
  have none_ : ∃ systemId taskId, Checks lib first.2 systemId taskId assessorTaskId [] :=
    ⟨[], .null, checks_nil⟩
  refine emits_bind (emits_send _) (fun r => ?_) none_
  refine emits_silent (emits_lift rfl) (fun p => ?_) none_
  split
  · exact emits_pure none_
  · refine emits_mono (emits_bind (emits_verify p) (fun verdict => ?_) maybe_nil)
      fun rest checks => ⟨_, _, checks⟩
    exact emits_mono (emits_last (emits_of_leads (reportIntegrity_leads registered _ _ _ _))
      fun _ => emits_pure rfl) fun _ => .inr

theorem emits_session {α : Type} {own : Text} {agentUrl requested : PyStr}
    {f : JsonValue → Exchange.Run α} (exchangeUrl fallback : Text)
    (asks : ∀ challenger, Emits (f challenger)
      (Asks lib own agentUrl requested assessorTaskId challenger)) :
    Emits (fetchIdentity exchangeUrl own fallback >>= f)
      (Session lib own agentUrl requested assessorTaskId) := by
  refine leads_bind (fetchIdentity_leads exchangeUrl own fallback) fun challenger => ?_
  refine emits_mono (asks challenger) ?_
  rintro l ⟨sent, rest, rfl, rfl, checks⟩ events ⟨identifies, rfl⟩
  exact ⟨challenger, rest, identifies, rfl, checks⟩

theorem emits_challenge (registered : c.firstSystem = some first) (verifying : Bool) :
    Emits (Client.challenge lib c agentUrl taskId verifying assessorTaskId)
      (Session lib first.2 agentUrl taskId assessorTaskId) := by
  unfold Client.challenge
  rw [registered]
  exact emits_session _ _ fun challenger =>
    emits_attempt (emits_pursue registered challenger verifying) fun _ => emits_raise rfl

end Verifiers

section RawVerifier

variable {c : ATPClient} {first : Text × Text} {lib : Library} {storedProof : JsonValue}
  {task : RawTask}

theorem emits_report {α : Type} (registered : c.firstSystem = some first)
    (verdict : IntegrityAssessment) (a : α) :
    Emits (report c task verdict >>= fun _ => pure a)
      (Maybe (Reports first.2 task.systemId task.taskId none)) :=
  emits_mono (emits_last (emits_of_leads (reportIntegrity_leads registered _ _ _ _))
    fun _ => emits_pure rfl) fun _ => .inr

/-- A query of the commit of a task, and then a report on the task, if any. -/
def Settles (lib : Library) (own : Text) (task : RawTask) : List Event → Prop :=
  Then (· = [query lib task.systemId task.taskId])
    (Maybe (Reports own task.systemId task.taskId none))

theorem checks_of_settles {own : Text} {l : List Event} (settles : Settles lib own task l) :
    Checks lib own task.systemId task.taskId none l := by
  obtain ⟨asked, reported, rfl, one, rest⟩ := settles
  exact ⟨asked, reported, rfl, .inr one, rest⟩

def Compared (lib : Library) (own : Text) (task : RawTask) :
    Except RawVerdict Commit → List Event → Prop
  | .ok _ => (· = [query lib task.systemId task.taskId])
  | .error _ => Settles lib own task

theorem compareSketch_leads (registered : c.firstSystem = some first) :
    Leads (compareSketch lib c storedProof task) (Compared lib first.2 task) := by
  have accused : ∀ verdict, Leads
      (report c task .compromised >>= fun _ => pure (.error verdict))
      fun b l => ∀ events, events = [query lib task.systemId task.taskId] →
        Compared lib first.2 task b (events ++ l) := by
    intro verdict
    refine leads_mono (leads_const (reportIntegrity_leads registered _ _ _ _)) ?_
    rintro b l ⟨rfl, reported⟩ events rfl
    exact ⟨_, _, rfl, rfl, .inr reported⟩
  refine leads_attempt (emits_getCommit _ _) (fun commit => ?_) fun e => leads_pure ?_
  · split
    · exact accused _
    · split
      · exact accused _
      · refine leads_pure ?_
        rintro events rfl
        exact rfl
  · rintro events rfl
    exact ⟨_, _, rfl, rfl, maybe_nil⟩

theorem emits_conclude (registered : c.firstSystem = some first)
    (expectedInvocation expectedOutcome : Option JsonValue) (commit : Commit) :
    Emits (conclude lib c expectedInvocation expectedOutcome storedProof task commit)
      (Maybe (Reports first.2 task.systemId task.taskId none)) := by
  unfold conclude
  split
  · exact emits_report registered _ _
  · split
    · exact emits_report registered _ _
    · split
      · exact emits_report registered _ _
      · exact emits_pure maybe_nil

theorem emits_settle (registered : c.firstSystem = some first)
    (expectedInvocation expectedOutcome : Option JsonValue) :
    Emits (settle lib c expectedInvocation expectedOutcome storedProof task)
      (Settles lib first.2 task) := by
  refine leads_bind (compareSketch_leads registered) fun step2 => ?_
  cases step2 with
  | error verdict =>
    refine emits_pure ?_
    rintro events settles
    rwa [List.append_nil]
  | ok commit =>
    refine emits_mono (emits_conclude registered _ _ commit) fun l reported => ?_
    rintro events rfl
    exact ⟨_, _, rfl, rfl, reported⟩

theorem emits_examine (registered : c.firstSystem = some first)
    (expectedInvocation expectedOutcome : Option JsonValue) :
    Emits (examine lib c expectedInvocation expectedOutcome storedProof task)
      (Checks lib first.2 task.systemId task.taskId none) := by
  have accused : ∀ verdict : RawVerdict, Emits
      (report c task .compromised >>= fun _ => pure verdict)
      (Checks lib first.2 task.systemId task.taskId none) := fun verdict =>
    emits_mono (emits_report registered _ verdict) fun _ => then_right maybe_nil
  refine emits_silent (emits_lift rfl) (fun invocationHash => ?_) checks_nil
  split
  · exact accused _
  · refine emits_silent (emits_lift rfl) (fun outcomeHash => ?_) checks_nil
    split
    · exact accused _
    · exact emits_mono (emits_settle registered _ _) fun _ => checks_of_settles

/-- The system in whose name the raw verifier and the dependency loop act, if any. -/
def actingId (c : ATPClient) : Option Text := (c.firstSystem.map Prod.snd).filter (· ≠ [])

def Verifies (lib : Library) (c : ATPClient) (agentUrl requested : PyStr) : List Event → Prop :=
  match actingId c with
  | none => (· = [])
  | some own => Session lib own agentUrl requested none

theorem emits_challengeAndVerify (agentUrl taskId : PyStr)
    (expectedInvocation expectedOutcome : Option JsonValue) :
    Emits (challengeAndVerify lib c agentUrl taskId expectedInvocation expectedOutcome)
      (Verifies lib c agentUrl taskId) := by
  unfold challengeAndVerify Verifies actingId
  cases acting : (c.firstSystem.map Prod.snd).filter (· ≠ []) with
  | none => exact emits_pure rfl
  | some own =>
    obtain ⟨first, registered, rfl⟩ :=
      Option.map_eq_some_iff.mp (Option.filter_eq_some_iff.mp acting).1
    refine emits_session _ _ fun challenger => ?_
    have none_ : ∃ systemId taskId, Checks lib first.2 systemId taskId none [] :=
      ⟨[], .null, checks_nil⟩
    refine emits_bind (emits_attempt (emits_last (emits_send _) fun r => emits_lift rfl)
      fun e => emits_pure rfl) (fun reply => ?_) none_
    cases reply with
    | error message => exact emits_pure none_
    | ok storedProof =>
      dsimp only
      split
      · split
        · exact emits_pure none_
        · exact emits_raise none_
      · exact emits_mono (emits_examine registered _ _) fun rest checks => ⟨_, _, checks⟩

end RawVerifier

section Dependencies

variable {lib : Library} {c : ATPClient}

theorem emits_timestampOf (tsRaw : JsonValue) :
    Emits (timestampOf tsRaw) (Maybe (· = [.clock])) := by
  have now : Emits (do pure (utcAt (← utcNow)) : Exchange.Run DateTime) (Maybe (· = [.clock])) :=
    emits_mono (emits_last (emits_perform _ _) fun _ => emits_pure rfl) fun _ => .inr
  cases tsRaw with
  | str s =>
    rw [timestampOf]
    cases IsoFormat.fromisoformat s with
    | some ts => exact emits_pure maybe_nil
    | none => exact now
  | _ => exact now

theorem emits_proofOfVerdict (verdict : RawVerdict) :
    Emits (proofOfVerdict verdict) (Maybe (· = [.clock])) := by
  unfold proofOfVerdict
  split
  · refine emits_last ?_ fun _ => emits_pure rfl
    refine emits_silent (emits_lift rfl) (fun proofData => ?_) maybe_nil
    refine emits_silent (emits_lift rfl) (fun taskData => ?_) maybe_nil
    refine emits_silent (emits_lift rfl) (fun tsRaw => ?_) maybe_nil
    refine emits_last (emits_timestampOf tsRaw) fun ts => ?_
    exact emits_silent (emits_lift rfl) (fun fields => emits_lift rfl) rfl
  · exact emits_pure maybe_nil

/-- The traffic of one dependency: a verification, if it can be challenged, and after it the
time may be read. -/
def Round (lib : Library) (c : ATPClient) (dep : DependencyOf PyStr) : List Event → Prop :=
  match challengeable dep with
  | none => (· = [])
  | some (url, taskId) => Then (Verifies lib c url taskId) (Maybe (· = [.clock]))

theorem challengeEntry_eq (dep : DependencyOf PyStr) : challengeEntry lib c dep =
    match challengeable dep with
    | none => pure none
    | some (url, taskId) => .attempt (do
        let verdict ← challengeAndVerify lib c url taskId none none
        proofOfVerdict verdict)
      fun _ => pure none := by
  unfold challengeEntry challengeable
  cases dep.challengeUrl with
  | none => rfl
  | some url =>
    cases url with
    | nil => rfl
    | cons first url =>
      by_cases noTask : dep.taskId = []
      · simp [noTask, Option.filter_some]
      · simp [noTask, Option.filter_some]

theorem challengeEntry_leads (dep : DependencyOf PyStr) :
    Leads (challengeEntry lib c dep) fun _ => Round lib c dep := by
  rw [challengeEntry_eq]
  unfold Round
  cases challengeable dep with
  | none => exact leads_pure rfl
  | some address =>
    exact leads_caught (emits_bind (emits_challengeAndVerify _ _ _ _)
      (fun verdict => emits_proofOfVerdict verdict) maybe_nil) _

def Rounds (lib : Library) (c : ATPClient) : List Entry → List Event → Prop
  | [] => (· = [])
  | raw :: rest =>
    match raw.dependency lib with
    | .error _ => (· = [])
    | .ok dep => Then (Round lib c dep) (Rounds lib c rest)

theorem emits_preChallengeDependencies (agentDependencies : List (ProofDataOf PyStr))
    (entries : List Entry) :
    Emits (preChallengeDependencies lib c agentDependencies entries) (Rounds lib c entries) := by
  induction entries generalizing agentDependencies with
  | nil => exact emits_pure rfl
  | cons raw rest ih =>
    rw [preChallengeDependencies, Rounds]
    cases raw.dependency lib with
    | error e => exact emits_pure rfl
    | ok dep =>
      refine leads_bind (challengeEntry_leads dep) fun proof => ?_
      exact emits_mono (ih _) fun l rounds events round => ⟨events, l, rfl, round, rounds⟩

/-- What `challenge` and `challenge_and_verify` send is one session of the verifier's own
system, or nothing where there is none; what `pre_challenge_dependencies` sends is the
sessions of its entries in order. -/
theorem verifiers_traffic (lib : Library) (c : ATPClient) (w : World) (h : List Event) :
    (∀ agentUrl taskId verifying assessorTaskId, ∃ l,
      ((Client.challenge lib c agentUrl taskId verifying assessorTaskId).run w h).log = h ++ l ∧
        match c.firstSystem with
        | none => l = []
        | some first => Session lib first.2 agentUrl taskId assessorTaskId l) ∧
    (∀ agentUrl taskId expectedInvocation expectedOutcome, ∃ l,
      ((challengeAndVerify lib c agentUrl taskId expectedInvocation expectedOutcome).run w h).log =
        h ++ l ∧ Verifies lib c agentUrl taskId l) ∧
    ∀ agentDependencies entries, ∃ l,
      ((preChallengeDependencies lib c agentDependencies entries).run w h).log = h ++ l ∧
        Rounds lib c entries l := by
  refine ⟨fun agentUrl taskId verifying assessorTaskId => ?_,
    fun agentUrl taskId expectedInvocation expectedOutcome =>
      emits_challengeAndVerify agentUrl taskId expectedInvocation expectedOutcome w h,
    fun agentDependencies entries =>
      emits_preChallengeDependencies agentDependencies entries w h⟩
  cases registered : c.firstSystem with
  | none =>
    unfold Client.challenge
    rw [registered]
    exact ⟨[], (List.append_nil h).symm, rfl⟩
  | some first => exact emits_challenge registered verifying w h

end Dependencies

section Immaterial

/-- Worlds that differ at most in how the Exchange answers an assessment. -/
def SameButReports (w w' : World) : Prop :=
  (∀ h r, (∀ payload, r ≠ postRequest "/api/v1/assess" payload) → w.reply h r = w'.reply h r) ∧
    w.save = w'.save ∧ w.now = w'.now

variable {c : ATPClient} {lib : Library}

theorem steady_send {r : Request} (other : r.party ≠ .exchange ∨ r.method ≠ .post) :
    Steady SameButReports (send r) := by
  refine steady_perform fun w w' same h => same.1 h r ?_
  rintro payload rfl
  exact other.elim (fun no => no rfl) fun no => no rfl

theorem steady_utcNow : Steady SameButReports utcNow :=
  steady_perform fun w w' same h => by rw [same.2.2]

theorem steady_translated {α : Type} {x : Exchange.Run α} (network : String) (invalid : ExcClass)
    (body : Steady SameButReports x) : Steady SameButReports (translated network invalid x) := by
  refine steady_attempt body fun e => ?_
  split
  · exact steady_raise _
  · split
    · exact steady_raise _
    · exact steady_raise _

theorem steady_getSystem (systemId : PyStr) : Steady SameButReports (getSystem systemId) :=
  steady_translated _ _ <| steady_bind (steady_send (.inr nofun)) fun _ =>
    steady_bind (steady_lift _) fun _ => steady_lift _

theorem steady_getCommit (systemId : PyStr) (taskId : JsonValue) :
    Steady SameButReports (getCommitBySystemAndTask lib systemId taskId) :=
  steady_translated _ _ <| steady_bind (steady_send (.inr nofun)) fun _ => steady_lift _

theorem steady_fetchIdentity (exchangeUrl systemId fallback : Text) :
    Steady SameButReports (fetchIdentity exchangeUrl systemId fallback) :=
  steady_attempt (steady_bind (steady_getSystem _) fun _ => steady_pure _) fun _ =>
    steady_pure _

theorem steadyLog_reportAssessment (systemId : PyStr) (taskId : JsonValue)
    (dimension : AssessmentDimension) (verdict : PyStr) (at_ : DateTime)
    (assessorTaskId : Option PyStr) : SteadyLog SameButReports
      (reportAssessment c systemId taskId dimension verdict at_ assessorTaskId) := by
  intro w w' same h
  cases registered : c.firstSystem with
  | none =>
    unfold reportAssessment
    rw [registered]
    rfl
  | some first => rw [reportAssessment_log registered, reportAssessment_log registered]

theorem steady_reportIntegrity (systemId : PyStr) (taskId : JsonValue)
    (verdict : IntegrityAssessment) (assessorTaskId : Option PyStr) :
    Steady SameButReports (reportIntegrity c systemId taskId verdict assessorTaskId) :=
  steady_caught <| steadyLog_bind steady_utcNow fun _ =>
    steadyLog_map (steadyLog_reportAssessment _ _ _ _ _ _) ()

theorem steady_compareWithExchange (p : StoredProofOf PyStr) :
    Steady SameButReports (compareWithExchange lib p) := by
  refine steady_attempt (steady_bind (steady_getCommit _ _) fun commit => ?_) fun e => steady_pure _
  split
  · exact steady_pure _
  · split
    · exact steady_pure _
    · exact steady_pure _

theorem steady_verify (p : StoredProofOf PyStr) : Steady SameButReports (verify lib p) := by
  refine steady_bind (steady_lift _) fun invocationHash => ?_
  refine steady_bind (steady_lift _) fun outcomeHash => ?_
  split
  · exact steady_pure _
  · split
    · exact steady_pure _
    · refine steady_bind (steady_compareWithExchange p) fun step2 => ?_
      cases step2 with
      | error verdict => exact steady_pure _
      | ok commit =>
        dsimp only
        split
        · exact steady_pure _
        · exact steady_pure _

theorem steady_pursue (agentUrl taskId : PyStr) (challenger : JsonValue) (verifying : Bool)
    (assessorTaskId : Option PyStr) : Steady SameButReports
      (pursue lib c agentUrl taskId challenger verifying assessorTaskId) := by
  refine steady_bind (steady_send (.inl nofun)) fun r => ?_
  refine steady_bind (steady_lift _) fun p => ?_
  split
  · exact steady_pure _
  · refine steady_bind (steady_verify p) fun verdict => ?_
    exact steady_bind (steady_reportIntegrity _ _ _ _) fun _ => steady_pure _

theorem steady_challenge (agentUrl taskId : PyStr) (verifying : Bool)
    (assessorTaskId : Option PyStr) : Steady SameButReports
      (Client.challenge lib c agentUrl taskId verifying assessorTaskId) := by
  unfold Client.challenge
  split
  · exact steady_raise _
  · refine steady_bind (steady_fetchIdentity _ _ _) fun challenger => ?_
    exact steady_attempt (steady_pursue _ _ _ _ _) fun e => steady_raise _

theorem steady_report {α : Type} (task : RawTask) (verdict : IntegrityAssessment) (a : α) :
    Steady SameButReports (report c task verdict >>= fun _ => pure a) :=
  steady_bind (steady_reportIntegrity _ _ _ _) fun _ => steady_pure _

theorem steady_compareSketch (storedProof : JsonValue) (task : RawTask) :
    Steady SameButReports (compareSketch lib c storedProof task) := by
  refine steady_attempt (steady_bind (steady_getCommit _ _) fun commit => ?_) fun e => steady_pure _
  split
  · exact steady_report _ _ _
  · split
    · exact steady_report _ _ _
    · exact steady_pure _

theorem steady_conclude (expectedInvocation expectedOutcome : Option JsonValue)
    (storedProof : JsonValue) (task : RawTask) (commit : Commit) : Steady SameButReports
      (conclude lib c expectedInvocation expectedOutcome storedProof task commit) := by
  unfold conclude
  split
  · exact steady_report _ _ _
  · split
    · exact steady_report _ _ _
    · split
      · exact steady_report _ _ _
      · exact steady_pure _

theorem steady_examine (expectedInvocation expectedOutcome : Option JsonValue)
    (storedProof : JsonValue) (task : RawTask) : Steady SameButReports
      (examine lib c expectedInvocation expectedOutcome storedProof task) := by
  refine steady_bind (steady_lift _) fun invocationHash => ?_
  split
  · exact steady_report _ _ _
  · refine steady_bind (steady_lift _) fun outcomeHash => ?_
    split
    · exact steady_report _ _ _
    · refine steady_bind (steady_compareSketch _ _) fun step2 => ?_
      cases step2 with
      | error verdict => exact steady_pure _
      | ok commit => exact steady_conclude _ _ _ _ _

theorem steady_challengeAndVerify (agentUrl taskId : PyStr)
    (expectedInvocation expectedOutcome : Option JsonValue) : Steady SameButReports
      (challengeAndVerify lib c agentUrl taskId expectedInvocation expectedOutcome) := by
  unfold challengeAndVerify
  split
  · exact steady_pure _
  · refine steady_bind (steady_fetchIdentity _ _ _) fun challenger => ?_
    refine steady_bind (steady_attempt (steady_bind (steady_send (.inl nofun)) fun r =>
      steady_lift _) fun e => steady_pure _) fun reply => ?_
    split
    · exact steady_pure _
    · split
      · split
        · exact steady_pure _
        · exact steady_raise _
      · exact steady_examine _ _ _ _

theorem steady_proofOfVerdict (verdict : RawVerdict) :
    Steady SameButReports (proofOfVerdict verdict) := by
  have stamped : ∀ tsRaw, Steady SameButReports (timestampOf tsRaw) := by
    intro tsRaw
    unfold timestampOf
    split
    · split
      · exact steady_pure _
      · exact steady_bind steady_utcNow fun now => steady_pure _
    · exact steady_bind steady_utcNow fun now => steady_pure _
  unfold proofOfVerdict
  split
  · refine steady_bind ?_ fun proof => steady_pure _
    refine steady_bind (steady_lift _) fun proofData => ?_
    refine steady_bind (steady_lift _) fun taskData => ?_
    refine steady_bind (steady_lift _) fun tsRaw => ?_
    refine steady_bind (stamped tsRaw) fun ts => ?_
    exact steady_bind (steady_lift _) fun fields => steady_lift _
  · exact steady_pure _

theorem steady_preChallengeDependencies (agentDependencies : List (ProofDataOf PyStr))
    (entries : List Entry) : Steady SameButReports
      (preChallengeDependencies lib c agentDependencies entries) := by
  induction entries generalizing agentDependencies with
  | nil => exact steady_pure _
  | cons raw rest ih =>
    rw [preChallengeDependencies]
    split
    · exact steady_pure _
    · refine steady_bind ?_ fun proof => ih _
      rw [challengeEntry_eq]
      split
      · exact steady_pure _
      · exact steady_attempt (steady_bind (steady_challengeAndVerify _ _ _ _) fun verdict =>
          steady_proofOfVerdict verdict) fun e => steady_pure _

/-- However the Exchange answers the reports (it may refuse them, fail or say nonsense), the
verifiers come to the same end, with the same traffic. -/
theorem reports_immaterial (lib : Library) (c : ATPClient) {w w' : World}
    (same : SameButReports w w') (h : List Event) :
    (∀ agentUrl taskId verifying assessorTaskId,
      (Client.challenge lib c agentUrl taskId verifying assessorTaskId).run w h =
        (Client.challenge lib c agentUrl taskId verifying assessorTaskId).run w' h) ∧
    (∀ agentUrl taskId expectedInvocation expectedOutcome,
      (challengeAndVerify lib c agentUrl taskId expectedInvocation expectedOutcome).run w h =
        (challengeAndVerify lib c agentUrl taskId expectedInvocation expectedOutcome).run w' h) ∧
    ∀ agentDependencies entries,
      (preChallengeDependencies lib c agentDependencies entries).run w h =
        (preChallengeDependencies lib c agentDependencies entries).run w' h :=
  ⟨fun _ _ _ _ => steady_challenge _ _ _ _ w w' same h,
    fun _ _ _ _ => steady_challengeAndVerify _ _ _ _ w w' same h,
    fun _ _ => steady_preChallengeDependencies _ _ w w' same h⟩

def reporting (w : World) (reply : Except Exc Response) : World where
  reply := fun h r =>
    match r with
    | ⟨.exchange, .post, url, some _⟩ => if url = lit "/api/v1/assess" then reply else w.reply h r
    | r => w.reply h r
  save := w.save
  now := w.now

theorem sameButReports_reporting (w : World) (reply : Except Exc Response) :
    SameButReports w (reporting w reply) := by
  refine ⟨fun h r other => ?_, rfl, rfl⟩
  dsimp only [reporting]
  split
  · next url payload => exact (if_neg fun same => other payload (by rw [postRequest, same])).symm
  · rfl

theorem emoji_reported : ∃ m log, (challengeAndVerify isoLibrary sampleClient
    (lit "https://agent") (raw sampleTask.str) none none).run
      (reporting (emojiSetting emojiProof.dump).world (.ok acceptance)) [] =
        ⟨.ok (emojiProof.dump, true, m), log⟩ := by
  obtain ⟨m, log, run⟩ := emojiProof_verifiedRaw
  refine ⟨m, log, ?_⟩
  rw [← (reports_immaterial isoLibrary sampleClient (sameButReports_reporting _ _) []).2.1]
  exact run

end Immaterial

end AgentTrust.Traffic
