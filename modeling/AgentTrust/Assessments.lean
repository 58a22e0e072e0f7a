import AgentTrust.Verdicts

/-! What the two verifiers submit to the Exchange: which task an assessment is about,
and what a report of a compromised task rests on. -/

namespace AgentTrust.Assessments

open JsonTree JsonTree.Json PyText PyJson Gregorian PyDateTime OrderedDict PyValue Models Hashing
  Effects Exchange Client Tasks Verifier CommitReveal Disclosure HonestAgent Verdicts

section Decisions

variable {s : Setting} {expectedInvocation expectedOutcome : Option JsonValue} {task : RawTask}

/-- The check of a raw disclosure comes to a verdict other than a doubt. -/
def Decided (s : Setting) (expectedInvocation expectedOutcome : Option JsonValue)
    (task : RawTask) : Prop :=
  RawMismatch task ∨ RawMatch task ∧ ∃ commit, s.rawConsulted task = some commit ∧
    (sameRaw (committed commit).digest (declaredRaw task) = false ∨
      unexpected s.lib expectedInvocation expectedOutcome task = true ∨
      commit.status = .confirmed)

theorem decided_iff : Decided s expectedInvocation expectedOutcome task ↔
    ∃ g, rawFinding s.lib s.world (s.history s.verifier) task = some g ∧
      ¬ (g.expecting (unexpected s.lib expectedInvocation expectedOutcome task)).Open := by
  have settled : ¬ ((recordFinding sameRaw (declaredRaw task)
      ((s.rawConsulted task).map committed)).expecting
        (unexpected s.lib expectedInvocation expectedOutcome task)).Open ↔
      ∃ commit, s.rawConsulted task = some commit ∧
        (sameRaw (committed commit).digest (declaredRaw task) = false ∨
          unexpected s.lib expectedInvocation expectedOutcome task = true ∨
          commit.status = .confirmed) := by
    simp [not_open_expecting, committed]
  have mismatch : ∀ u, ¬ (Finding.mismatch.expecting u).Open := by
    simp [Finding.expecting, Finding.Open]
  unfold Decided
  rw [← settled]
  simp only [rawFinding_eq_some]
  constructor
  · rintro (differ | ⟨equal, ruled⟩)
    · exact ⟨.mismatch, .inl ⟨differ, rfl⟩, mismatch _⟩
    · exact ⟨_, .inr ⟨equal, rfl⟩, ruled⟩
  · rintro ⟨g, ⟨differ, rfl⟩ | ⟨equal, rfl⟩, ruled⟩
    · exact .inl differ
    · exact .inr ⟨equal, ruled⟩

end Decisions

section Identity

def assessedTask (a : JsonValue) : Option JsonValue := field "assessed_task_id" a

theorem assessedTask_assess (assessor : Text) (systemId : PyStr) (taskId : JsonValue)
    (dimension : AssessmentDimension) (assessment : PyStr) (assessedAt : DateTime)
    (assessorTaskId : Option PyStr) : assessedTask (assessPayload assessor systemId taskId dimension
      assessment assessedAt assessorTaskId) = some taskId := by
  simp [assessedTask, assessPayload]

/-- A run asked for task `taskId` ends with a verified disclosure of that task only, and
its assessments are about that task. -/
structure Bound {α : Type} (taskId : PyStr) (names : α → JsonValue → Prop)
    (o : Outcome Exc Event (α × Bool × Message)) : Prop where
  verified : ∀ a m, o.result = .ok (a, true, m) → names a (.str taskId)
  assessed : ∀ a ∈ assessments o.log, assessedTask a = some (.str taskId)

theorem bound_of_silent {α : Type} {taskId : PyStr} {names : α → JsonValue → Prop}
    {o : Outcome Exc Event (α × Bool × Message)} (silent : Silent o) : Bound taskId names o where
  verified := fun a m run => absurd run (silent.1 a m)
  assessed := by simp [silent.2]

theorem named_of_challenge_bound {s : Setting} {assessorTaskId : Option PyStr}
    (bound : Bound s.taskId (fun p taskId => namedTask p = taskId)
      (s.challenge true assessorTaskId))
    (registered : s.client.firstSystem.isSome) {p : StoredProofOf PyStr}
    (disclosed : s.disclosed = .ok p) :
    namedTask p = .str s.taskId := by
  obtain ⟨m, log, now, run, submitted⟩ :=
    challenge_of_ruled (ruled_eq_some.mpr ⟨registered, disclosed, rfl, rfl⟩) assessorTaskId
  have one : s.assessment (namedSystem p) (namedTask p) assessorTaskId now
      (if s.found p = .confirmed then .verified else .compromised) ∈
      assessments (s.challenge true assessorTaskId).log := by
    rw [run, submitted]
    exact List.mem_singleton.mpr rfl
  have about := bound.assessed _ one
  rw [Setting.assessment, assessedTask_assess, Option.some.injEq] at about
  exact about

theorem challenge_bound_iff (s : Setting) (verifying : Bool) (assessorTaskId : Option PyStr) :
    Bound s.taskId (fun p taskId => namedTask p = taskId) (s.challenge verifying assessorTaskId) ↔
      (s.client.firstSystem.isSome → verifying = true →
        ∀ p, s.disclosed = .ok p → namedTask p = .str s.taskId) := by
  constructor
  · rintro bound registered rfl p disclosed
    exact named_of_challenge_bound bound registered disclosed
  · intro named
    cases ruled : s.ruled verifying with
    | none => exact bound_of_silent (challenge_silent ruled assessorTaskId)
    | some q =>
      obtain ⟨registered, disclosed, on, _⟩ := ruled_eq_some.mp ruled
      have task := named registered on q.1 disclosed
      obtain ⟨m, log, now, run, submitted⟩ := challenge_of_ruled ruled assessorTaskId
      rw [run]
      refine ⟨?_, ?_⟩
      · intro p m' ended
        simp only [Except.ok.injEq, Prod.mk.injEq] at ended
        rw [← ended.1]
        exact task
      · intro a listed
        rw [submitted] at listed
        obtain ⟨v, _, rfl⟩ := List.mem_map.mp listed
        rw [Setting.assessment, assessedTask_assess, task]

/-- The task id that `challenge_and_verify` reads in a disclosed value. -/
def NamesTask (v taskId : JsonValue) : Prop := ∃ task, readTask v = .ok task ∧ task.taskId = taskId

theorem mem_submissions {first : Text × Text} {task : RawTask} {now : Wall}
    {verdict : Option IntegrityAssessment} {a : JsonValue}
    (listed : a ∈ submissions first task now verdict) : assessedTask a = some task.taskId := by
  obtain ⟨v, _, rfl⟩ := List.mem_map.mp listed
  exact assessedTask_assess _ _ _ _ _ _ _

section Verify

variable {s : Setting} {expectedInvocation expectedOutcome : Option JsonValue} {v : JsonValue}
  {task : RawTask}

theorem named_of_verify_bound
    (bound : Bound s.taskId NamesTask (s.challengeAndVerify expectedInvocation expectedOutcome))
    (registered : s.registeredId.isSome) (disclosed : s.rawDisclosed = some (v, task))
    (decided : Decided s expectedInvocation expectedOutcome task) :
    task.taskId = .str s.taskId := by
  obtain ⟨g, found, settled⟩ := decided_iff.mp decided
  obtain ⟨m, log, now, run, submitted⟩ := challengeAndVerify_of_ruled
    (rawRuled_eq_some.mpr ⟨registered, disclosed, g, found, rfl⟩)
  rw [run] at bound
  have ruling : just IntegrityAssessment.verified .compromised
      (g.expecting (unexpected s.lib expectedInvocation expectedOutcome task)) ≠ none :=
    just_eq_none.not.mpr settled
  obtain ⟨verdict, ruled⟩ := Option.ne_none_iff_exists'.mp ruling
  have one : assessPayload s.first.2 task.systemId task.taskId .integrity (lit verdict.value)
      (utcAt now) none ∈ assessments log := by
    rw [submitted, ruled]
    exact List.mem_singleton.mpr rfl
  have about := bound.assessed _ one
  rw [assessedTask_assess, Option.some.injEq] at about
  exact about

theorem bound_of_rules {f : Finding} (read : readTask v = .ok task)
    (asked : ¬ f.Open → task.taskId = .str s.taskId) {o : Outcome Exc Event RawVerdict}
    (rules : Rules s.first [] v task f o) : Bound s.taskId NamesTask o := by
  obtain ⟨m, log, now, run, submitted⟩ := rules
  rw [run]
  refine ⟨?_, ?_⟩
  · intro v' m' ended
    simp only [Except.ok.injEq, Prod.mk.injEq, decide_eq_true_eq] at ended
    obtain ⟨rfl, rfl, _⟩ := ended
    exact ⟨task, read, asked (by simp [Finding.Open])⟩
  · intro a listed
    rw [submitted] at listed
    have settled : ¬ f.Open := by
      intro undecided
      rw [just_eq_none.mpr undecided] at listed
      simp [submissions, assessments] at listed
    rw [mem_submissions listed, asked settled]

end Verify

theorem verify_bound_iff (s : Setting) (expectedInvocation expectedOutcome : Option JsonValue) :
    Bound s.taskId NamesTask (s.challengeAndVerify expectedInvocation expectedOutcome) ↔
      (s.registeredId.isSome → ∀ v task, s.rawDisclosed = some (v, task) →
        Decided s expectedInvocation expectedOutcome task → task.taskId = .str s.taskId) := by
  constructor
  · intro bound registered v task disclosed decided
    exact named_of_verify_bound bound registered disclosed decided
  · intro named
    cases ruled : s.rawRuled expectedInvocation expectedOutcome with
    | none => exact bound_of_silent (challengeAndVerify_silent ruled)
    | some q =>
      obtain ⟨v, task, f⟩ := q
      obtain ⟨registered, disclosed, g, found, rfl⟩ := rawRuled_eq_some.mp ruled
      refine bound_of_rules (rawDisclosed_readTask disclosed) ?_ (challengeAndVerify_of_ruled ruled)
      intro settled
      exact named registered v task disclosed (decided_iff.mpr ⟨g, found, settled⟩)

/-- Both verifiers take the task from the disclosed proof: their verdict and their
assessments are about the task asked for exactly if the agent discloses that one. -/
theorem taskId_bound_iff (s : Setting) (verifying : Bool) (assessorTaskId : Option PyStr)
    (expectedInvocation expectedOutcome : Option JsonValue) :
    (Bound s.taskId (fun p taskId => namedTask p = taskId)
        (s.challenge verifying assessorTaskId) ↔
      (s.client.firstSystem.isSome → verifying = true →
        ∀ p, s.disclosed = .ok p → namedTask p = .str s.taskId)) ∧
    (Bound s.taskId NamesTask (s.challengeAndVerify expectedInvocation expectedOutcome) ↔
      (s.registeredId.isSome → ∀ v task, s.rawDisclosed = some (v, task) →
        Decided s expectedInvocation expectedOutcome task → task.taskId = .str s.taskId)) :=
  ⟨challenge_bound_iff s verifying assessorTaskId,
    verify_bound_iff s expectedInvocation expectedOutcome⟩

def otherTask : PyStr := lit "00000000-0000-0000-0000-000000000000"

def sampleProof : StoredProofOf PyStr := (sampleTaskDone.storedProof onePm).python

def diverted : Setting := sampleSetting isoLibrary otherTask sampleProof.dump
  (.ok (answer 200 (commitData sampleTaskDone.sketch .confirmed)))

theorem sampleProof_matches :
    Matches sampleProof "s".toList sampleTask.str sampleTaskDone.sketch where
  systemId := by decide
  taskId := rfl
  content := rfl
  sketch := rfl

theorem sampleProof_valid :
    StoredProofOf.validate isoLibrary sampleProof.dump = some sampleProof :=
  StoredProofOf.validate_dump (storedProof_isoLibrary (by decide))

theorem diverted_verified :
    diverted.taskId ≠ raw sampleTask.str ∧
    (∃ m log, diverted.challenge true none = ⟨.ok (sampleProof, true, m), log⟩ ∧
      (assessments log).map assessedTask = [some (text sampleTask.str)]) ∧
    ∃ m log, diverted.challengeAndVerify none none =
        ⟨.ok (sampleProof.dump, true, m), log⟩ ∧
      (assessments log).map assessedTask = [some (text sampleTask.str)] := by
  have setup : Setup diverted "s".toList sampleTask.str sampleProof.dump
      sampleTaskDone.sketch := sampleSetup _ _ _
  obtain ⟨m, log, now, run, submitted⟩ := challenge_verified setup
    (sketch_isoLibrary (by decide)) sampleProof_matches sampleProof_valid none
  obtain ⟨m', log', now', run', submitted'⟩ := challengeAndVerify_verified setup
    (sketch_isoLibrary (by decide)) sampleProof_matches
  refine ⟨by decide, ⟨m, log, run, ?_⟩, m', log', run', ?_⟩
  · rw [submitted, List.map_singleton, Setting.assessment, assessedTask_assess]
  · rw [submitted', List.map_singleton, Setting.assessment, assessedTask_assess]

end Identity

section Evidence

def Accuses (a : JsonValue) : Prop :=
  field "assessment" a = some (.str (lit IntegrityAssessment.compromised.value))

theorem accuses_assess {assessor : Text} {systemId : PyStr} {taskId : JsonValue}
    {dimension : AssessmentDimension} {verdict : IntegrityAssessment} {assessedAt : DateTime}
    {assessorTaskId : Option PyStr} : Accuses (assessPayload assessor systemId taskId dimension
      (lit verdict.value) assessedAt assessorTaskId) ↔ verdict = .compromised := by
  cases verdict <;> simp [Accuses, assessPayload, IntegrityAssessment.value, lit_inj]

/-- Accusations rest on evidence, and in doubt nothing is submitted. -/
structure Lawful (log : List Event) (evidence doubt : Prop) : Prop where
  accused : ∀ a ∈ assessments log, Accuses a → evidence
  quiet : doubt → assessments log = []

theorem lawful_of_silent {α : Type} {o : Outcome Exc Event (α × Bool × Message)} (silent : Silent o)
    (evidence doubt : Prop) : Lawful o.log evidence doubt where
  accused := by simp [silent.2]
  quiet := fun _ => silent.2

variable {s : Setting} {p : StoredProofOf PyStr} {task : RawTask}

def Evidence (s : Setting) (p : StoredProofOf PyStr) : Prop :=
  recomputed p ≠ declared p ∨
    ∃ commit, s.consultedFor p = some commit ∧ (committed commit).digest ≠ declared p

def Doubt (s : Setting) (p : StoredProofOf PyStr) : Prop :=
  recomputed p = declared p ∧ ∀ commit, s.consultedFor p = some commit →
    (committed commit).digest = declared p ∧ commit.status ≠ .confirmed

theorem found_grounds : (s.found p).Grounds ↔ Evidence s p := by
  unfold Setting.found findingOf
  rw [grounds_finding]
  simp [Evidence, Setting.consultedFor, same]

theorem found_open : (s.found p).Open ↔ Doubt s p := by
  unfold Setting.found findingOf
  rw [open_finding]
  simp [Doubt, Setting.consultedFor, same, committed]

def RawEvidence (s : Setting) (task : RawTask) : Prop :=
  RawMismatch task ∨ ∃ commit, s.rawConsulted task = some commit ∧
    sameRaw (committed commit).digest (declaredRaw task) = false

def RawDoubt (s : Setting) (task : RawTask) : Prop :=
  RawMatch task ∧ ∀ commit, s.rawConsulted task = some commit →
    sameRaw (committed commit).digest (declaredRaw task) = true ∧ commit.status ≠ .confirmed

theorem rawEvidence_of_grounds {f : Finding}
    (found : rawFinding s.lib s.world (s.history s.verifier) task = some f) (grounds : f.Grounds) :
    RawEvidence s task := by
  obtain ⟨differ, _⟩ | ⟨_, rfl⟩ := rawFinding_eq_some.mp found
  · exact .inl differ
  · obtain ⟨r, held, differ⟩ := grounds_recordFinding.mp grounds
    obtain ⟨commit, answered, rfl⟩ := Option.map_eq_some_iff.mp held
    exact .inr ⟨commit, answered, differ⟩

theorem open_of_rawDoubt {f : Finding}
    (found : rawFinding s.lib s.world (s.history s.verifier) task = some f)
    (doubt : RawDoubt s task) : f.Open := by
  have settled : rawFinding s.lib s.world (s.history s.verifier) task = some _ :=
    rawFinding_eq_some.mpr (.inr ⟨doubt.1, rfl⟩)
  obtain rfl := Option.some.inj (found.symm.trans settled)
  refine open_recordFinding.mpr fun r held => ?_
  obtain ⟨commit, answered, rfl⟩ := Option.map_eq_some_iff.mp held
  obtain ⟨agree, pending⟩ := doubt.2 commit answered
  exact ⟨agree, decide_eq_false pending⟩

theorem ruling_of_accuses {ruling : Option IntegrityAssessment}
    {submit : IntegrityAssessment → JsonValue}
    (form : ∀ verdict, Accuses (submit verdict) ↔ verdict = .compromised) {a : JsonValue}
    (listed : a ∈ ruling.toList.map submit) (accuses : Accuses a) :
    ruling = some .compromised := by
  obtain ⟨verdict, ruling, rfl⟩ := List.mem_map.mp listed
  obtain rfl := (form verdict).mp accuses
  exact Option.mem_toList.mp ruling

def ChallengeLawful (s : Setting) (assessorTaskId : Option PyStr) : Prop :=
  Lawful (s.challenge true assessorTaskId).log (∃ p, s.disclosed = .ok p ∧ Evidence s p)
    (∃ p, s.disclosed = .ok p ∧ Doubt s p)

def VerifyLawful (s : Setting) : Prop :=
  Lawful (s.challengeAndVerify none none).log
    (∃ v task, s.rawDisclosed = some (v, task) ∧ RawEvidence s task)
    (∃ v task, s.rawDisclosed = some (v, task) ∧ RawDoubt s task)

theorem challenge_lawful_iff (s : Setting) (assessorTaskId : Option PyStr) :
    ChallengeLawful s assessorTaskId ↔
      (s.client.firstSystem.isSome → ∀ p, s.disclosed = .ok p → ¬ Doubt s p) := by
  constructor
  · intro lawful registered p disclosed doubt
    have nothing := lawful.quiet ⟨p, disclosed, doubt⟩
    obtain ⟨m, log, now, run, submitted⟩ :=
      challenge_of_ruled (ruled_eq_some.mpr ⟨registered, disclosed, rfl, rfl⟩) assessorTaskId
    rw [run, submitted] at nothing
    simp [hasty] at nothing
  · intro decided
    cases ruled : s.ruled true with
    | none => exact lawful_of_silent (challenge_silent ruled assessorTaskId) _ _
    | some q =>
      obtain ⟨p, f⟩ := q
      obtain ⟨registered, disclosed, _, rfl⟩ := ruled_eq_some.mp ruled
      obtain ⟨m, log, now, run, submitted⟩ := challenge_of_ruled ruled assessorTaskId
      rw [ChallengeLawful, run]
      constructor
      · intro a listed accuses
        rw [submitted] at listed
        have ruling := ruling_of_accuses (fun _ => accuses_assess) listed accuses
        obtain grounds | undecided := (hasty_eq_accuse (by decide)).mp ruling
        · exact ⟨p, disclosed, found_grounds.mp grounds⟩
        · exact absurd (found_open.mp undecided) (decided registered p disclosed)
      · rintro ⟨p', disclosed', doubt⟩
        exact absurd doubt (decided registered p' disclosed')

theorem verify_lawful (s : Setting) : VerifyLawful s := by
  cases ruled : s.rawRuled none none with
  | none => exact lawful_of_silent (challengeAndVerify_silent ruled) _ _
  | some q =>
    obtain ⟨v, task, f⟩ := q
    obtain ⟨_, disclosed, g, found, rfl⟩ := rawRuled_eq_some.mp ruled
    have unexpecting : g.expecting (unexpected s.lib none none task) = g := g.expecting_false
    rw [unexpecting] at ruled
    obtain ⟨m, log, now, run, submitted⟩ := challengeAndVerify_of_ruled ruled
    rw [VerifyLawful, run]
    constructor
    · intro a listed accuses
      rw [submitted] at listed
      have ruling := ruling_of_accuses (fun _ => accuses_assess) listed accuses
      have grounds := (just_eq_accuse (by decide)).mp ruling
      exact ⟨v, task, disclosed, rawEvidence_of_grounds found grounds⟩
    · rintro ⟨v', task', disclosed', doubt⟩
      obtain ⟨rfl, rfl⟩ := Prod.mk.inj (Option.some.inj (disclosed'.symm.trans disclosed))
      rw [submitted, just_eq_none.mpr (open_of_rawDoubt found doubt)]
      rfl

/-- `challenge_and_verify` accuses on evidence only and submits nothing in doubt;
`challenge` does so exactly if no disclosed proof is in doubt. -/
theorem lawful_iff (s : Setting) (assessorTaskId : Option PyStr) :
    (ChallengeLawful s assessorTaskId ↔
      (s.client.firstSystem.isSome → ∀ p, s.disclosed = .ok p → ¬ Doubt s p)) ∧
    VerifyLawful s :=
  ⟨challenge_lawful_iff s assessorTaskId, verify_lawful s⟩

def unreachable : Setting :=
  sampleSetting isoLibrary (raw sampleTask.str) sampleProof.dump (.error (foreign .requestError))

theorem unreachable_consulted (h : List Event) :
    consulted isoLibrary unreachable.world h (raw "s".toList) (text sampleTask.str) = none := by
  have query : unreachable.world.reply h (commitRequest (raw "s".toList) (raw sampleTask.str)) =
    .error (foreign .requestError) := sampleWorld_commit _ _ h
  change (unreachable.world.reply h (commitRequest (raw "s".toList) (raw sampleTask.str)) >>=
    decodeCommit isoLibrary (raw "s".toList) (raw sampleTask.str)).toOption = none
  rw [query]
  rfl

theorem unreachable_doubt :
    unreachable.disclosed = .ok sampleProof ∧ Doubt unreachable sampleProof := by
  obtain ⟨r, replied, discloses⟩ := sampleSetting_agent _ (raw sampleTask.str)
    sampleProof.dump (.error (foreign .requestError)) unreachable.challenger
  refine ⟨disclosed_of_reply replied discloses sampleProof_valid, sampleProof_matches.content, ?_⟩
  intro commit answered
  rw [Setting.consultedFor, sampleProof_matches.systemId] at answered
  exact absurd (answered.symm.trans (unreachable_consulted _)) (by simp)

theorem unreachable_rawDoubt :
    unreachable.rawDisclosed = some (sampleProof.dump, rawTaskOf sampleProof) ∧
      RawDoubt unreachable (rawTaskOf sampleProof) := by
  obtain ⟨r, replied, discloses⟩ := sampleSetting_agent _ (raw sampleTask.str)
    sampleProof.dump (.error (foreign .requestError)) unreachable.verifier
  refine ⟨rawDisclosed_of_reply replied discloses, ⟨_, _, hashWithPrefix_obj _,
    hashWithPrefix_obj _, ?_⟩, ?_⟩
  · have agree := sameRaw_declared sampleProof
    rw [← sampleProof_matches.content] at agree
    exact agree
  · intro commit answered
    rw [Setting.rawConsulted, rawTaskOf, sampleProof_matches.systemId] at answered
    exact absurd (answered.symm.trans (unreachable_consulted _)) (by simp)

/-- An honest agent is reported as compromised when the Exchange does not answer; the
other verifier submits nothing. -/
theorem unreachable_accused :
    (unreachable.disclosed = .ok sampleProof ∧ Doubt unreachable sampleProof) ∧
    (∃ m log, unreachable.challenge true none = ⟨.ok (sampleProof, false, m), log⟩ ∧
      ∃ a, assessments log = [a] ∧ Accuses a) ∧
    assessments (unreachable.challengeAndVerify none none).log = [] := by
  obtain ⟨disclosed, doubt⟩ := unreachable_doubt
  have ruled : unreachable.ruled true = some (sampleProof, unreachable.found sampleProof) :=
    ruled_eq_some.mpr ⟨rfl, disclosed, rfl, rfl⟩
  obtain ⟨m, log, now, run, submitted⟩ := challenge_of_ruled ruled none
  have refused : unreachable.found sampleProof ≠ .confirmed := by
    intro confirmed
    have undecided := found_open.mpr doubt
    simp [confirmed, Finding.Open] at undecided
  rw [decide_eq_false refused] at run
  rw [hasty, if_neg refused] at submitted
  exact ⟨⟨disclosed, doubt⟩, ⟨m, log, run, _, submitted, accuses_assess.mpr rfl⟩,
    (verify_lawful unreachable).quiet ⟨_, _, unreachable_rawDoubt⟩⟩

end Evidence

end AgentTrust.Assessments
