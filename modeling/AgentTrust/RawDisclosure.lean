import AgentTrust.Disclosure

/-! Runs of `challenge_and_verify`, reduced to the finding of its check as those of
`challenge` are; the assessments submitted are the just ruling on it. The disclosed
value is not validated: it may be no proof, or have content without a hash. -/

namespace AgentTrust.Disclosure

open JsonTree JsonTree.Json PyText PyJson Gregorian PyDateTime OrderedDict PyValue Models Hashing
  Effects Exchange Client Tasks Verifier CommitReveal
open Effects.Run hiding pure bind

section Examine

variable {c : ATPClient} {first : Text × Text} {w : World} {h : List Event} (lib : Library)
  (storedProof : JsonValue) (task : RawTask)
  (expectedInvocation expectedOutcome : Option JsonValue)

def sameRaw (a : PyStr × PyStr) (b : JsonValue × JsonValue) : Bool :=
  isText a.1 b.1 && isText a.2 b.2

def declaredRaw (task : RawTask) : JsonValue × JsonValue := (task.invocationHash, task.outcomeHash)

/-- The finding on a raw disclosure; there is none where its content cannot be hashed. -/
def rawFinding (lib : Library) (w : World) (h : List Event) (task : RawTask) : Option Finding :=
  match hashWithPrefix task.invocation with
  | .error _ => none
  | .ok invocation =>
    if isText (raw invocation) task.invocationHash then
      match hashWithPrefix task.outcome with
      | .error _ => none
      | .ok outcome => some (finding sameRaw (raw invocation, raw outcome) (declaredRaw task)
          ((consulted lib w h task.systemId task.taskId).map committed))
    else some .mismatch

def unexpected (lib : Library) (expectedInvocation expectedOutcome : Option JsonValue)
    (task : RawTask) : Bool :=
  (expectedInvocation.any fun x => !lib.equal task.invocation x) ||
    expectedOutcome.any fun x => !lib.equal task.outcome x

def submissions (first : Text × Text) (task : RawTask) (now : Wall)
    (verdict : Option IntegrityAssessment) : List JsonValue :=
  verdict.toList.map fun v =>
    assessPayload first.2 task.systemId task.taskId .integrity (lit v.value) (utcAt now) none

/-- A run that ends with a verdict and submits the ruling on a finding. -/
def Rules (first : Text × Text) (h : List Event) (storedProof : JsonValue) (task : RawTask)
    (f : Finding) (o : Outcome Exc Event RawVerdict) : Prop :=
  ∃ m log now, o = ⟨.ok (storedProof, decide (f = .confirmed), m), log⟩ ∧
    assessments log = assessments h ++ submissions first task now (just .verified .compromised f)

theorem rules_accuse (registered : c.firstSystem = some first) {f : Finding}
    (grounds : f.Grounds) (m : Message) :
    Rules first h storedProof task f
      ((do
        report c task .compromised
        pure (storedProof, false, m) : Run RawVerdict).run w h) := by
  obtain ⟨log, run, submitted⟩ := reportIntegrity_run (w := w) (h := h) registered task.systemId
    task.taskId .compromised none
  refine ⟨m, log, w.now h, ?_, ?_⟩
  · rw [run_bind, report, run]
    rcases grounds with rfl | rfl <;> rfl
  · rw [submitted]
    rcases grounds with rfl | rfl <;> rfl

theorem conclude_run (registered : c.firstSystem = some first) (commit : Commit) :
    Rules first h storedProof task
      ((if (committed commit).confirmed then Finding.confirmed else .unconfirmed).expecting
        (unexpected lib expectedInvocation expectedOutcome task))
      ((conclude lib c expectedInvocation expectedOutcome storedProof task commit).run w h) := by
  have conflict : (Finding.conflict).Grounds := .inr rfl
  have refused : (if (committed commit).confirmed then Finding.confirmed
      else .unconfirmed).expecting true = .conflict := by
    split <;> rfl
  unfold conclude unexpected
  by_cases invocation : expectedInvocation.any fun x => !lib.equal task.invocation x
  · rw [if_pos invocation, invocation, Bool.true_or, refused]
    exact rules_accuse storedProof task registered conflict _
  · rw [if_neg invocation, Bool.eq_false_of_not_eq_true invocation, Bool.false_or]
    by_cases outcome : expectedOutcome.any fun x => !lib.equal task.outcome x
    · rw [if_pos outcome, outcome, refused]
      exact rules_accuse storedProof task registered conflict _
    · rw [if_neg outcome, Bool.eq_false_of_not_eq_true outcome, Finding.expecting_false,
        committed_confirmed]
      by_cases final : commit.status.value = "confirmed"
      · obtain ⟨log, run, submitted⟩ := reportIntegrity_run (w := w) (h := h) registered
          task.systemId task.taskId .verified none
        rw [if_pos final, if_pos (decide_eq_true final)]
        refine ⟨msg "✅ Verified and confirmed", log, w.now h, ?_, submitted⟩
        rw [run_bind, report, run]
        rfl
      · rw [if_neg final, if_neg (by simpa using final)]
        exact ⟨_, h, w.now h, rfl, (List.append_nil _).symm⟩

def Stops (first : Text × Text) (h : List Event) (storedProof : JsonValue) (task : RawTask)
    (ruling : Option IntegrityAssessment)
    (o : Outcome Exc Event (Except RawVerdict Commit)) : Prop :=
  ∃ m log now, o = ⟨.ok (.error (storedProof, false, m)), log⟩ ∧
    assessments log = assessments h ++ submissions first task now ruling

theorem stops_accuse (registered : c.firstSystem = some first) (m : Message) :
    Stops first h storedProof task (some .compromised)
      ((do
        report c task .compromised
        pure (.error (storedProof, false, m)) : Run (Except RawVerdict Commit)).run w h) := by
  obtain ⟨log, run, submitted⟩ := reportIntegrity_run (w := w) (h := h) registered task.systemId
    task.taskId .compromised none
  refine ⟨m, log, w.now h, ?_, submitted⟩
  rw [run_bind, report, run]
  rfl

theorem assessments_getCommit (lib : Library) (systemId : PyStr) (taskId : JsonValue) :
    assessments ((getCommitBySystemAndTask lib systemId taskId).run w h).log = assessments h := by
  have get : assessments [.send (commitRequest systemId (pyStr lib.reprContainer taskId))] = [] :=
    assessments_get rfl
  rw [getCommit_log, assessments_append, get, List.append_nil]

theorem compareSketch_run (registered : c.firstSystem = some first) :
    match consulted lib w h task.systemId task.taskId with
    | none => Stops first h storedProof task none ((compareSketch lib c storedProof task).run w h)
    | some commit =>
      if sameRaw (committed commit).digest (declaredRaw task) then
        ∃ log, (compareSketch lib c storedProof task).run w h = ⟨.ok (.ok commit), log⟩ ∧
          assessments log = assessments h
      else
        Stops first h storedProof task (some .compromised)
          ((compareSketch lib c storedProof task).run w h) := by
  have quiet := assessments_getCommit (w := w) (h := h) lib task.systemId task.taskId
  rw [← getCommit_result]
  unfold compareSketch
  cases query : ((getCommitBySystemAndTask lib task.systemId task.taskId).run w h).result with
  | error e =>
    refine ⟨msg "Failed to verify with ATP Exchange: " ++ e.text, _, w.now h, ?_,
      quiet.trans (List.append_nil _).symm⟩
    rw [run_attempt_error w h (e := e)]
    · rw [run_bind_error w h query]
      rfl
    · rw [run_bind_error w h query]
  | ok commit =>
    set log := ((getCommitBySystemAndTask lib task.systemId task.taskId).run w h).log
    have accused : ∀ m, Stops first h storedProof task (some .compromised)
        ((do
          report c task .compromised
          pure (.error (storedProof, false, m)) : Run (Except RawVerdict Commit)).run w log) := by
      intro m
      obtain ⟨m, log, now, run, submitted⟩ := stops_accuse (w := w) (h := log)
        storedProof task registered m
      exact ⟨m, log, now, run, by rw [submitted, quiet]⟩
    dsimp only [Except.toOption]
    by_cases invocation :
      isText commit.proofSketch.cryptography.invocationHash task.invocationHash
    · by_cases outcome : isText commit.proofSketch.cryptography.outcomeHash task.outcomeHash
      · have agree : sameRaw (committed commit).digest (declaredRaw task) = true := by
          simp [sameRaw, committed, declaredRaw, invocation, outcome]
        rw [if_pos agree, run_attempt, run_bind_ok w h query]
        exact ⟨log, by simp [invocation, outcome, log], quiet⟩
      · have differ : ¬ sameRaw (committed commit).digest (declaredRaw task) = true := by
          simp [sameRaw, committed, declaredRaw, outcome]
        obtain ⟨m, l, now, run, submitted⟩ :=
          accused (msg "Outcome hash doesn't match ATP Exchange")
        rw [if_neg differ, run_attempt, run_bind_ok w h query,
          if_neg (by simpa using invocation), if_pos (by simpa using outcome), run]
        exact ⟨m, l, now, rfl, submitted⟩
    · have differ : ¬ sameRaw (committed commit).digest (declaredRaw task) = true := by
        simp [sameRaw, committed, declaredRaw, invocation]
      obtain ⟨m, l, now, run, submitted⟩ :=
        accused (msg "Invocation hash doesn't match ATP Exchange")
      rw [if_neg differ, run_attempt, run_bind_ok w h query, if_pos (by simpa using invocation),
        run]
      exact ⟨m, l, now, rfl, submitted⟩

theorem settle_run (registered : c.firstSystem = some first) :
    Rules first h storedProof task
      ((recordFinding sameRaw (declaredRaw task)
        ((consulted lib w h task.systemId task.taskId).map committed)).expecting
        (unexpected lib expectedInvocation expectedOutcome task))
      ((settle lib c expectedInvocation expectedOutcome storedProof task).run w h) := by
  have step2 := compareSketch_run (w := w) (h := h) lib storedProof task registered
  unfold settle recordFinding
  cases query : consulted lib w h task.systemId task.taskId with
  | none =>
    simp only [query] at step2
    obtain ⟨m, log, now, run, submitted⟩ := step2
    refine ⟨m, log, now, ?_, submitted⟩
    rw [run_bind, run]
    rfl
  | some commit =>
    simp only [query, Option.map_some] at step2 ⊢
    split at step2
    · next agree =>
      obtain ⟨log, run, quiet⟩ := step2
      obtain ⟨m, log', now, run', submitted⟩ := conclude_run (w := w) (h := log) lib storedProof
        task expectedInvocation expectedOutcome registered commit
      rw [if_pos agree]
      refine ⟨m, log', now, ?_, by rw [submitted, quiet]⟩
      rw [run_bind, run]
      exact run'
    · next differ =>
      obtain ⟨m, log, now, run, submitted⟩ := step2
      rw [if_neg differ]
      refine ⟨m, log, now, ?_, submitted⟩
      rw [run_bind, run]
      rfl

theorem examine_run (registered : c.firstSystem = some first) :
    match rawFinding lib w h task with
    | none => ∃ e, (examine lib c expectedInvocation expectedOutcome storedProof task).run w h =
        ⟨.error e, h⟩
    | some f => Rules first h storedProof task
        (f.expecting (unexpected lib expectedInvocation expectedOutcome task))
        ((examine lib c expectedInvocation expectedOutcome storedProof task).run w h) := by
  have mismatch : (Finding.mismatch).Grounds := .inl rfl
  unfold rawFinding examine
  rw [run_bind]
  cases hashWithPrefix task.invocation with
  | error e => exact ⟨e, rfl⟩
  | ok invocationHash =>
    simp only [run_lift, next_ok]
    by_cases invocation : isText (raw invocationHash) task.invocationHash
    · rw [if_pos invocation, if_neg (by simpa using invocation), run_bind]
      cases hashWithPrefix task.outcome with
      | error e => exact ⟨e, rfl⟩
      | ok outcomeHash =>
        simp only [run_lift, next_ok]
        by_cases outcome : isText (raw outcomeHash) task.outcomeHash
        · have agree : sameRaw (raw invocationHash, raw outcomeHash) (declaredRaw task) = true := by
            simp [sameRaw, declaredRaw, invocation, outcome]
          rw [if_neg (by simpa using outcome), finding, if_pos agree]
          exact settle_run lib storedProof task expectedInvocation expectedOutcome registered
        · have differ :
              ¬ sameRaw (raw invocationHash, raw outcomeHash) (declaredRaw task) = true := by
            simp [sameRaw, declaredRaw, outcome]
          rw [if_pos (by simpa using outcome), finding, if_neg differ]
          exact rules_accuse storedProof task registered mismatch _
    · rw [if_neg invocation, if_pos (by simpa using invocation)]
      exact rules_accuse storedProof task registered mismatch _

end Examine

section RawFindings

variable {lib : Library} {w : World} {h : List Event} {task : RawTask} {f : Finding}

def RawMismatch (task : RawTask) : Prop :=
  ∃ invocation, hashWithPrefix task.invocation = .ok invocation ∧
    (isText (raw invocation) task.invocationHash = false ∨
      ∃ outcome, hashWithPrefix task.outcome = .ok outcome ∧
        isText (raw outcome) task.outcomeHash = false)

def RawMatch (task : RawTask) : Prop :=
  ∃ invocation outcome, hashWithPrefix task.invocation = .ok invocation ∧
    hashWithPrefix task.outcome = .ok outcome ∧
    sameRaw (raw invocation, raw outcome) (declaredRaw task) = true

theorem rawFinding_eq_some : rawFinding lib w h task = some f ↔
    (RawMismatch task ∧ f = .mismatch) ∨
      (RawMatch task ∧ f = recordFinding sameRaw (declaredRaw task)
        ((consulted lib w h task.systemId task.taskId).map committed)) := by
  unfold rawFinding RawMismatch RawMatch sameRaw declaredRaw
  cases hashWithPrefix task.invocation with
  | error e => simp
  | ok invocation =>
    cases first : isText (raw invocation) task.invocationHash with
    | false => simp [first, @eq_comm _ f]
    | true =>
      cases hashWithPrefix task.outcome with
      | error e => simp [first]
      | ok outcome =>
        cases second : isText (raw outcome) task.outcomeHash <;>
          simp [first, second, finding, @eq_comm _ f]

end RawFindings

section ChallengeAndVerify

namespace Setting

def rawReply (s : Setting) : Except Message JsonValue :=
  match s.reply s.verifier >>= decodeReply with
  | .ok reply => reply
  | .error e => .error (msg "Challenge request failed: " ++ e.text)

def rawDisclosed (s : Setting) : Option (JsonValue × RawTask) :=
  match s.rawReply with
  | .error _ => none
  | .ok storedProof =>
    match readTask storedProof with
    | .error _ => none
    | .ok task => some (storedProof, task)

def registeredId (s : Setting) : Option Text :=
  (s.client.firstSystem.map Prod.snd).filter (· ≠ [])

def rawConsulted (s : Setting) (task : RawTask) : Option Commit :=
  consulted s.lib s.world (s.history s.verifier) task.systemId task.taskId

def rawRuled (s : Setting) (expectedInvocation expectedOutcome : Option JsonValue) :
    Option (JsonValue × RawTask × Finding) :=
  match s.registeredId, s.rawDisclosed with
  | some _, some (storedProof, task) =>
    (rawFinding s.lib s.world (s.history s.verifier) task).map fun f =>
      (storedProof, task, f.expecting (unexpected s.lib expectedInvocation expectedOutcome task))
  | _, _ => none

def challengeAndVerify (s : Setting) (expectedInvocation expectedOutcome : Option JsonValue) :
    Outcome Exc Event RawVerdict :=
  (Verifier.challengeAndVerify s.lib s.client s.agentUrl s.taskId expectedInvocation
    expectedOutcome).run s.world []

end Setting

variable {s : Setting} {expectedInvocation expectedOutcome : Option JsonValue}

theorem challengeAndVerify_unregistered (absent : s.registeredId = none) :
    Silent (s.challengeAndVerify expectedInvocation expectedOutcome) := by
  unfold Setting.challengeAndVerify Verifier.challengeAndVerify
  unfold Setting.registeredId at absent
  rw [absent]
  exact ⟨by simp, rfl⟩

theorem asked_run : (attempt (do
      let r ← send (s.request s.verifier)
      .lift (decodeReply r))
      fun e => pure (.error (msg "Challenge request failed: " ++ e.text))).run s.world s.before =
    ⟨.ok s.rawReply, s.history s.verifier⟩ := by
  unfold Setting.rawReply Setting.reply
  rw [run_attempt, run_bind]
  simp only [send, run_perform]
  cases s.world.reply s.before (s.request s.verifier) with
  | error e => rfl
  | ok r =>
    simp only [next_ok, run_lift, bind_ok]
    cases decodeReply r with
    | error e => rfl
    | ok reply => rfl

theorem challengeAndVerify_run (registered : s.registeredId = some s.first.2) :
    s.challengeAndVerify expectedInvocation expectedOutcome =
      match s.rawReply with
      | .error message => ⟨.ok (.obj [], false, message), s.history s.verifier⟩
      | .ok storedProof =>
        match readTask storedProof with
        | .error e =>
          if e.isAny [.keyError, .typeError] then
            ⟨.ok (storedProof, false, msg "Invalid proof structure: " ++ e.text),
              s.history s.verifier⟩
          else ⟨.error e, s.history s.verifier⟩
        | .ok task => (examine s.lib s.client expectedInvocation expectedOutcome storedProof
            task).run s.world (s.history s.verifier) := by
  unfold Setting.challengeAndVerify Verifier.challengeAndVerify
  unfold Setting.registeredId at registered
  rw [registered]
  dsimp only
  rw [run_bind, fetchIdentity_run, next_ok, run_bind]
  change next ((attempt (do
      let r ← send (s.request s.verifier)
      .lift (decodeReply r)) _).run s.world s.before) _ = _
  rw [asked_run, next_ok]
  cases s.rawReply with
  | error message => rfl
  | ok storedProof =>
    dsimp only
    cases readTask storedProof with
    | ok task => rfl
    | error e =>
      dsimp only
      split <;> rfl

theorem registered_of_id {id : Text} (registered : s.registeredId = some id) :
    s.client.firstSystem = some s.first ∧ id = s.first.2 := by
  obtain ⟨listed, _⟩ := Option.filter_eq_some_iff.mp registered
  obtain ⟨first, found, rfl⟩ := Option.map_eq_some_iff.mp listed
  rw [Setting.first, found]
  exact ⟨rfl, rfl⟩

/-- Every run of `challenge_and_verify`: it rules justly on its finding, or stays silent. -/
theorem challengeAndVerify_spec (s : Setting)
    (expectedInvocation expectedOutcome : Option JsonValue) :
    match s.rawRuled expectedInvocation expectedOutcome with
    | none => Silent (s.challengeAndVerify expectedInvocation expectedOutcome)
    | some (storedProof, task, f) => Rules s.first [] storedProof task f
        (s.challengeAndVerify expectedInvocation expectedOutcome) := by
  unfold Setting.rawRuled
  cases absent : s.registeredId with
  | none => exact challengeAndVerify_unregistered absent
  | some id =>
    obtain ⟨registered, rfl⟩ := registered_of_id absent
    rw [challengeAndVerify_run absent]
    unfold Setting.rawDisclosed
    cases s.rawReply with
    | error message => exact ⟨by simp, assessments_history _⟩
    | ok storedProof =>
      dsimp only
      cases readTask storedProof with
      | error e =>
        dsimp only
        split
        · exact ⟨by simp, assessments_history _⟩
        · exact ⟨by simp, assessments_history _⟩
      | ok task =>
        have run := examine_run (w := s.world) (h := s.history s.verifier) s.lib storedProof task
          expectedInvocation expectedOutcome registered
        dsimp only
        cases ruled : rawFinding s.lib s.world (s.history s.verifier) task with
        | none =>
          rw [ruled] at run
          obtain ⟨e, failed⟩ := run
          rw [Option.map_none, failed]
          exact ⟨by simp, assessments_history _⟩
        | some f =>
          rw [ruled] at run
          obtain ⟨m, log, now, ended, submitted⟩ := run
          exact ⟨m, log, now, ended, by rw [submitted, assessments_history]; rfl⟩

section Rulings

variable {v : JsonValue} {task : RawTask} {f : Finding}

theorem rawDisclosed_readTask (disclosed : s.rawDisclosed = some (v, task)) :
    readTask v = .ok task := by
  unfold Setting.rawDisclosed at disclosed
  split at disclosed
  · simp at disclosed
  · next storedProof _ =>
    cases read : readTask storedProof with
    | error e => simp [read] at disclosed
    | ok task' =>
      simp only [read, Option.some.injEq, Prod.mk.injEq] at disclosed
      rw [← disclosed.1, ← disclosed.2, read]

theorem rawRuled_eq_some :
    s.rawRuled expectedInvocation expectedOutcome = some (v, task, f) ↔
      s.registeredId.isSome ∧ s.rawDisclosed = some (v, task) ∧
        ∃ g, rawFinding s.lib s.world (s.history s.verifier) task = some g ∧
          f = g.expecting (unexpected s.lib expectedInvocation expectedOutcome task) := by
  unfold Setting.rawRuled
  cases s.registeredId with
  | none => simp
  | some id =>
    cases s.rawDisclosed with
    | none => simp
    | some q =>
      obtain ⟨v', task'⟩ := q
      simp only [Option.map_eq_some_iff, Prod.mk.injEq, Option.isSome_some, true_and,
        Option.some.injEq]
      constructor
      · rintro ⟨g, found, rfl, rfl, rfl⟩
        exact ⟨⟨rfl, rfl⟩, g, found, rfl⟩
      · rintro ⟨⟨rfl, rfl⟩, g, found, rfl⟩
        exact ⟨g, found, rfl, rfl, rfl⟩

theorem challengeAndVerify_of_ruled
    (ruled : s.rawRuled expectedInvocation expectedOutcome = some (v, task, f)) :
    Rules s.first [] v task f (s.challengeAndVerify expectedInvocation expectedOutcome) := by
  have spec := challengeAndVerify_spec s expectedInvocation expectedOutcome
  rw [ruled] at spec
  exact spec

theorem challengeAndVerify_silent
    (unruled : s.rawRuled expectedInvocation expectedOutcome = none) :
    Silent (s.challengeAndVerify expectedInvocation expectedOutcome) := by
  have spec := challengeAndVerify_spec s expectedInvocation expectedOutcome
  rw [unruled] at spec
  exact spec

end Rulings

end ChallengeAndVerify

end AgentTrust.Disclosure
