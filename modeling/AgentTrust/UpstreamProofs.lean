import AgentTrust.VerifierAgreement
import AgentTrust.Traffic

/-! Where the proofs come from that `pre_challenge_dependencies` adds: each is built of the
proof that the agent of an entry disclosed in its reply, has contents with the hashes that it
declares, and is of a task that the Exchange confirmed with the same hashes when the run
asked it next. -/

namespace AgentTrust.UpstreamProofs

open JsonTree JsonTree.Json PyText PyJson Gregorian PyDateTime OrderedDict PyValue Models Hashing
  Effects Exchange Client Tasks Verifier CommitReveal Disclosure DependencyChallenges Acceptance
  VerifierAgreement Courses Traffic
open Effects (Run)
open Exchange (Run)

section Purpose

/-- The Exchange confirms a proof, asked after `h`, and the proof is what it declares. -/
structure Upheld (lib : Library) (w : World) (h : List Event) (p : ProofDataOf PyStr) : Prop where
  invocation : p.task.invocationHash = raw (contentHash p.task.invocation)
  outcome : p.task.outcomeHash = raw (contentHash p.task.outcome)
  commit : ∃ commit,
    consulted lib w h (systemIdOf p.task.systemUri) (.str p.task.taskId) = some commit ∧
      commit.proofSketch.cryptography.invocationHash = p.task.invocationHash ∧
      commit.proofSketch.cryptography.outcomeHash = p.task.outcomeHash ∧
      commit.status = .confirmed
  marked : p.task.trustLevel = .verified ∧ p.dependencies = []

def challengeRequest (agentUrl taskId : PyStr) (challenger : JsonValue) : Request :=
  ⟨.agent, .post, agentUrl, some (challengePayload taskId challenger)⟩

/-- In a run from `h` to `log` the agent of `dep` is challenged by the system `own`, and the
proof is built of what its reply discloses; the Exchange, asked for its commit next, upholds
it. -/
inductive Obtained (lib : Library) (w : World) (own : Text) (dep : DependencyOf PyStr)
    (h log : List Event) (p : ProofDataOf PyStr) : Prop
  | reply {url taskId : PyStr} {before later : List Event} {challenger v : JsonValue}
      {r : Response} (address : challengeable dep = some (url, taskId))
      (identity : Identifies own challenger) (since : h <+: before)
      (replied : w.reply before (challengeRequest url taskId challenger) = .ok r)
      (disclosed : decodeReply r = .ok (.ok v))
      (built : verifiedProof (utcAt (w.now later)) v = some p)
      (asked : before ++ [.send (challengeRequest url taskId challenger),
        query lib (systemIdOf p.task.systemUri) (.str p.task.taskId)] <+: later)
      (during : later <+: log)
      (upheld : Upheld lib w (before ++ [.send (challengeRequest url taskId challenger)]) p)

end Purpose

section Verified

variable {lib : Library} {c : ATPClient} {w : World} {h log : List Event}

theorem asked_run (r : Request) (w : World) (h : List Event) :
    ∃ reply, (Effects.Run.attempt (do
      let r ← send r
      .lift (decodeReply r)) fun e => pure (.error (msg "Challenge request failed: " ++ e.text)) :
        Run (Except Message JsonValue)).run w h = ⟨.ok reply, h ++ [.send r]⟩ ∧
      ∀ v, reply = .ok v → ∃ answer, w.reply h r = .ok answer ∧
        decodeReply answer = .ok (.ok v) := by
  rw [Effects.Run.run_attempt, Effects.Run.run_bind, send, Effects.Run.run_perform]
  cases w.reply h r with
  | error e => exact ⟨_, rfl, by simp⟩
  | ok answer =>
    rw [Effects.Run.next_ok, Effects.Run.run_lift]
    cases decoded : decodeReply answer with
    | error e => exact ⟨_, rfl, by simp⟩
    | ok reply =>
      refine ⟨reply, rfl, ?_⟩
      rintro v rfl
      exact ⟨answer, rfl, decoded⟩

theorem examine_match {storedProof : JsonValue} {task : RawTask} (content : RawMatch task)
    (expectedInvocation expectedOutcome : Option JsonValue) :
    (examine lib c expectedInvocation expectedOutcome storedProof task).run w h =
      (settle lib c expectedInvocation expectedOutcome storedProof task).run w h := by
  obtain ⟨invocation, outcome, hashed, hashed', same⟩ := content
  obtain ⟨left, right⟩ : isText (raw invocation) task.invocationHash ∧
      isText (raw outcome) task.outcomeHash := by
    simpa [sameRaw, declaredRaw] using same
  simp [examine, hashed, hashed', left, right]

theorem examine_verified {first : Text × Text} {storedProof v : JsonValue} {task : RawTask}
    {m : Message} (registered : c.firstSystem = some first)
    (run : (examine lib c none none storedProof task).run w h = ⟨.ok (v, true, m), log⟩) :
    v = storedProof ∧ h ++ [query lib task.systemId task.taskId] <+: log ∧
      rawFinding lib w h task = some .confirmed := by
  have examined := examine_run (w := w) (h := h) lib storedProof task none none registered
  cases ruled : rawFinding lib w h task with
  | none =>
    rw [ruled] at examined
    obtain ⟨e, failed⟩ := examined
    rw [failed] at run
    simp at run
  | some f =>
    rw [ruled] at examined
    obtain ⟨_, _, _, ended, _⟩ := examined
    obtain ⟨told, _⟩ := Outcome.mk.inj (ended.symm.trans run)
    obtain ⟨same, confirmed, _⟩ := by simpa using told
    obtain rfl : f = .confirmed := (Finding.expecting_eq_confirmed.mp confirmed).1
    obtain ⟨_, grounds⟩ | ⟨content, _⟩ := rawFinding_eq_some.mp ruled
    · exact absurd grounds (by simp)
    have traffic : Emits (settle lib c none none storedProof task) _ :=
      emits_settle registered none none
    obtain ⟨events, logged, _, rest, rfl, rfl, _⟩ := traffic w h
    rw [← examine_match content, run] at logged
    exact ⟨same.symm, ⟨rest, (List.append_assoc _ _ _).trans logged.symm⟩, rfl⟩

theorem found_of_verified {agentUrl taskId : PyStr} {v : JsonValue} {m : Message}
    (run : (challengeAndVerify lib c agentUrl taskId none none).run w h =
      ⟨.ok (v, true, m), log⟩) :
    ∃ own task before challenger r, actingId c = some own ∧ Identifies own challenger ∧
      h <+: before ∧ w.reply before (challengeRequest agentUrl taskId challenger) = .ok r ∧
      decodeReply r = .ok (.ok v) ∧ readTask v = .ok task ∧
      before ++ [.send (challengeRequest agentUrl taskId challenger),
        query lib task.systemId task.taskId] <+: log ∧
      rawFinding lib w (before ++ [.send (challengeRequest agentUrl taskId challenger)]) task =
        some .confirmed := by
  unfold challengeAndVerify at run
  cases acting : (c.firstSystem.map Prod.snd).filter (· ≠ []) with
  | none =>
    rw [acting] at run
    simp at run
  | some own =>
    obtain ⟨first, registered, rfl⟩ :=
      Option.map_eq_some_iff.mp (Option.filter_eq_some_iff.mp acting).1
    rw [acting] at run
    dsimp only at run
    obtain ⟨challenger, _, fetched, identifies, rfl⟩ := fetchIdentity_leads
      (ATPConfig.exchangeUrlOr c.config "http://localhost:80") first.2 "ATPClient".toList w h
    rw [Effects.Run.run_bind, fetched, Effects.Run.next_ok] at run
    obtain ⟨reply, asked, told⟩ := asked_run (challengeRequest agentUrl taskId challenger) w
      (h ++ [.send (systemRequest (raw first.2))])
    rw [Effects.Run.run_bind, ← challengeRequest, asked, Effects.Run.next_ok] at run
    cases reply with
    | error message => simp at run
    | ok storedProof =>
      cases read : readTask storedProof with
      | error e =>
        simp only [read] at run
        split at run <;> simp at run
      | ok task =>
        simp only [read] at run
        obtain ⟨rfl, kept, found⟩ := examine_verified registered run
        obtain ⟨r, replied, disclosed⟩ := told v rfl
        rw [List.append_assoc] at kept
        exact ⟨first.2, task, _, challenger, r, acting, identifies, List.prefix_append _ _, replied,
          disclosed, read, kept, found⟩

end Verified

section Reading

variable {lib : Library} {w : World} {h : List Event} {now : DateTime} {v : JsonValue}
  {p : ProofDataOf PyStr}

theorem readTask_of_verifiedProof (verified : verifiedProof now v = some p) :
    readTask v = .ok {
        taskId := str p.task.taskId
        invocation := .obj p.task.invocation
        invocationHash := str p.task.invocationHash
        outcome := .obj p.task.outcome
        outcomeHash := str p.task.outcomeHash
        systemId := systemIdOf p.task.systemUri } ∧
      p.task.trustLevel = .verified ∧ p.dependencies = [] := by
  unfold verifiedProof at verified
  obtain ⟨proofData, hasData, verified⟩ := Option.bind_eq_some_iff.mp verified
  obtain ⟨taskData, hasTask, verified⟩ := Option.bind_eq_some_iff.mp verified
  obtain ⟨fields, hasFields, verified⟩ := Option.bind_eq_some_iff.mp verified
  have members := toOption_eq_some.mp hasFields
  unfold readFields at members
  obtain ⟨systemUri, hasUri, members⟩ := bind_eq_ok.mp members
  obtain ⟨systemType, _, members⟩ := bind_eq_ok.mp members
  obtain ⟨taskId, hasId, members⟩ := bind_eq_ok.mp members
  obtain ⟨invocation, hasInvocation, members⟩ := bind_eq_ok.mp members
  obtain ⟨invocationHash, hasInvocationHash, members⟩ := bind_eq_ok.mp members
  obtain ⟨outcome, hasOutcome, members⟩ := bind_eq_ok.mp members
  obtain ⟨outcomeHash, hasOutcomeHash, members⟩ := bind_eq_ok.mp members
  obtain rfl := Except.ok.inj members
  unfold TaskFields.proof at verified
  obtain ⟨uri, isUri, verified⟩ := Option.bind_eq_some_iff.mp verified
  obtain ⟨type, _, verified⟩ := Option.bind_eq_some_iff.mp verified
  obtain ⟨id, isId, verified⟩ := Option.bind_eq_some_iff.mp verified
  obtain ⟨i, isInvocation, verified⟩ := Option.bind_eq_some_iff.mp verified
  obtain ⟨ih, isInvocationHash, verified⟩ := Option.bind_eq_some_iff.mp verified
  obtain ⟨o, isOutcome, verified⟩ := Option.bind_eq_some_iff.mp verified
  obtain ⟨oh, isOutcomeHash, verified⟩ := Option.bind_eq_some_iff.mp verified
  obtain rfl := Option.some.inj verified
  obtain rfl := eq_str_of_asText isUri
  obtain rfl := eq_str_of_asText isId
  obtain rfl := eq_obj_of_asContent isInvocation
  obtain rfl := eq_str_of_asText isInvocationHash
  obtain rfl := eq_obj_of_asContent isOutcome
  obtain rfl := eq_str_of_asText isOutcomeHash
  refine ⟨?_, rfl, rfl⟩
  unfold readTask
  rw [getItem_of_field hasData, bind_ok, getItem_of_field hasTask, bind_ok, hasUri, bind_ok, hasId,
    bind_ok, hasInvocation, bind_ok, hasInvocationHash, bind_ok, hasOutcome, bind_ok,
    hasOutcomeHash]
  rfl

theorem upheld_of_found {task : RawTask} (verified : verifiedProof now v = some p)
    (read : readTask v = .ok task) (found : rawFinding lib w h task = some .confirmed) :
    Upheld lib w h p := by
  obtain ⟨read', marked⟩ := readTask_of_verifiedProof verified
  obtain rfl := Except.ok.inj (read.symm.trans read')
  obtain ⟨mismatch, grounds⟩ | ⟨⟨i, o, hashed, hashed', content⟩, recorded⟩ :=
    rawFinding_eq_some.mp found
  · exact absurd grounds (by simp)
  · obtain ⟨record, answered, agree, final⟩ := recordFinding_eq_confirmed.mp recorded.symm
    obtain ⟨commit, told, rfl⟩ := Option.map_eq_some_iff.mp answered
    obtain rfl := Except.ok.inj ((hashWithPrefix_obj _).symm.trans hashed)
    obtain rfl := Except.ok.inj ((hashWithPrefix_obj _).symm.trans hashed')
    obtain ⟨left, right⟩ := Prod.mk.inj (sameRaw_iff.mp content)
    obtain ⟨left', right'⟩ := Prod.mk.inj (sameRaw_iff.mp agree)
    exact {
      invocation := Json.str.inj left
      outcome := Json.str.inj right
      commit := ⟨commit, told, (Json.str.inj left').symm, (Json.str.inj right').symm,
        of_decide_eq_true final⟩
      marked }

end Reading

section Loop

variable {lib : Library} {c : ATPClient} {w : World} {h log : List Event}

theorem Obtained.mono {own : Text} {dep : DependencyOf PyStr} {p : ProofDataOf PyStr}
    {h' log' : List Event} (obtained : Obtained lib w own dep h log p) (earlier : h' <+: h)
    (later : log <+: log') : Obtained lib w own dep h' log' p := by
  obtain ⟨address, identity, since, replied, disclosed, built, asked, during, upheld⟩ := obtained
  exact ⟨address, identity, earlier.trans since, replied, disclosed, built, asked,
    during.trans later, upheld⟩

theorem obtained_of_contributed {dep : DependencyOf PyStr} {p : ProofDataOf PyStr}
    (added : contributed lib c w h dep = some p) :
    ∃ own, actingId c = some own ∧
      Obtained lib w own dep h ((challengeEntry lib c dep).run w h).log p := by
  unfold contributed at added
  cases given : challengeable dep with
  | none => simp [given] at added
  | some address =>
    obtain ⟨url, taskId⟩ := address
    simp only [given] at added
    split at added
    · next v m verified =>
      have run : (challengeAndVerify lib c url taskId none none).run w h =
          ⟨.ok (v, true, m), ((challengeAndVerify lib c url taskId none none).run w h).log⟩ := by
        rw [← verified]
      obtain ⟨own, task, before, challenger, r, acting, identity, since, replied, disclosed, read,
        asked, found⟩ := found_of_verified run
      obtain rfl := Except.ok.inj (read.symm.trans (readTask_of_verifiedProof added).1)
      refine ⟨own, acting, .reply given identity since replied disclosed added asked ?_
        (upheld_of_found added read found)⟩
      obtain ⟨events, logged, _⟩ := emits_proofOfVerdict (v, true, m) w
        ((challengeAndVerify lib c url taskId none none).run w h).log
      refine ⟨events, ?_⟩
      rw [challengeEntry_eq, given]
      exact ((Effects.Run.log_attempt w h fun _ _ => rfl).trans
        (by rw [Effects.Run.run_bind_ok w h verified, logged])).symm
    · simp at added

/-- Every proof that `pre_challenge_dependencies` adds is built of the reply of the agent of one
of its entries, challenged by the client's system during the run, and is upheld by the
Exchange there; the proofs that were there before stay in front. -/
theorem added_upheld (lib : Library) (c : ATPClient) (w : World) (h : List Event)
    (agentDependencies : List (ProofDataOf PyStr)) (entries : List Entry) :
    ∃ added ended log, (preChallengeDependencies lib c agentDependencies entries).run w h =
        ⟨.ok (agentDependencies ++ added, ended), log⟩ ∧
      ∀ p ∈ added, ∃ raw ∈ entries, ∃ dep own, raw.dependency lib = .ok dep ∧
        actingId c = some own ∧ Obtained lib w own dep h log p := by
  induction entries generalizing agentDependencies h with
  | nil => exact ⟨[], _, _, by rw [List.append_nil]; rfl, by simp⟩
  | cons raw rest ih =>
    rw [preChallengeDependencies]
    cases read : raw.dependency lib with
    | error e => exact ⟨[], _, _, by rw [List.append_nil]; rfl, by simp⟩
    | ok dep =>
      obtain ⟨added, ended, log, run, obtained⟩ := ih (after lib c w h raw)
        (agentDependencies ++ (contribution lib c w h raw).toList)
      refine ⟨(contribution lib c w h raw).toList ++ added, ended, log, ?_, ?_⟩
      · dsimp only
        rw [Effects.Run.run_bind, run_challengeEntry h read, Effects.Run.next_ok, run,
          List.append_assoc]
      · have entered : h <+: after lib c w h raw := by
          obtain ⟨proof, events, entry, _⟩ := challengeEntry_leads dep w h
          rw [run_challengeEntry h read] at entry
          exact ⟨events, (congrArg Outcome.log entry).symm⟩
        have left : after lib c w h raw <+: log := by
          obtain ⟨events, logged, _⟩ := emits_preChallengeDependencies
            (agentDependencies ++ (contribution lib c w h raw).toList) rest w (after lib c w h raw)
          rw [run] at logged
          exact ⟨events, logged.symm⟩
        intro p inside
        rcases List.mem_append.mp inside with own | others
        · have added : contributed lib c w h dep = some p := by
            simpa [contribution, read, Except.toOption] using own
          obtain ⟨id, acting, shown⟩ := obtained_of_contributed added
          refine ⟨raw, by simp, dep, id, read, acting, shown.mono (List.prefix_refl _) ?_⟩
          rwa [after, read] at left
        · obtain ⟨raw', member, dep', own, read', acting, shown⟩ := obtained p others
          exact ⟨raw', by simp [member], dep', own, read', acting,
            shown.mono entered (List.prefix_refl _)⟩

end Loop

end AgentTrust.UpstreamProofs
