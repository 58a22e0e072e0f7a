import AgentTrust.HonestAgent
import AgentTrust.ContentHash

/-! What a verified disclosure is worth, against any agent and any Exchange: the
contents it is bound to, what both verifiers compare, and what neither compares. -/

namespace AgentTrust.Verdicts

open JsonTree JsonTree.Json PyText PyJson Gregorian PyDateTime OrderedDict PyValue Sha256 Models
  Hashing Effects Exchange Client Tasks Verifier CommitReveal Disclosure HonestAgent ContentHash

section Binding

variable {s : Setting} {verifying : Bool} {assessorTaskId : Option PyStr}
  {p : StoredProofOf PyStr} {m : Message} {log : List Event}

theorem ruled_of_verified (run : s.challenge verifying assessorTaskId = ⟨.ok (p, true, m), log⟩) :
    s.ruled verifying = some (p, .confirmed) := by
  cases ruled : s.ruled verifying with
  | none =>
    obtain ⟨unverified, _⟩ := challenge_silent ruled assessorTaskId
    exact absurd (congrArg Outcome.result run) (unverified p m)
  | some q =>
    obtain ⟨p', f⟩ := q
    obtain ⟨m', log', now, run', _⟩ := challenge_of_ruled ruled assessorTaskId
    rw [run'] at run
    simp only [Outcome.mk.injEq, Except.ok.injEq, Prod.mk.injEq, decide_eq_true_eq] at run
    obtain ⟨⟨rfl, rfl, _⟩, _⟩ := run
    rfl

structure Compared (s : Setting) (p : StoredProofOf PyStr) : Prop where
  content : recomputed p = declared p
  sketch : ∃ commit, s.consultedFor p = some commit ∧ (committed commit).digest = declared p ∧
    commit.status = .confirmed

theorem compared_of_verified
    (run : s.challenge verifying assessorTaskId = ⟨.ok (p, true, m), log⟩) : Compared s p := by
  obtain ⟨_, _, _, found⟩ := ruled_eq_some.mp (ruled_of_verified run)
  obtain ⟨content, r, held, agree, final⟩ := finding_eq_confirmed.mp found.symm
  obtain ⟨commit, answered, rfl⟩ := Option.map_eq_some_iff.mp held
  exact ⟨of_decide_eq_true content, commit, answered, of_decide_eq_true agree,
    of_decide_eq_true final⟩

/-- A verified disclosure has the committed contents, up to the order of keys and the
spelling of strings in UTF-16, and its commit is confirmed. -/
theorem challenge_binds {systemId taskId : PyStr} {invocation outcome : Content}
    {invocationHash outcomeHash : Text}
    (hinvocation : hashWithPrefix (.obj invocation) = .ok invocationHash)
    (houtcome : hashWithPrefix (.obj outcome) = .ok outcomeHash)
    (held : ∀ h commit, consulted s.lib s.world h systemId (.str taskId) = some commit →
      commit.proofSketch.cryptography.invocationHash = raw invocationHash ∧
        commit.proofSketch.cryptography.outcomeHash = raw outcomeHash)
    (run : s.challenge verifying assessorTaskId = ⟨.ok (p, true, m), log⟩)
    (system : namedSystem p = systemId) (task : p.proofData.task.taskId = taskId)
    (injective : Set.InjOn sha256 {dumps (.obj invocation), dumps (.obj outcome),
      dumps (.obj p.proofData.task.invocation), dumps (.obj p.proofData.task.outcome)}) :
    SameWire (.obj invocation) (.obj p.proofData.task.invocation) ∧
    SameWire (.obj outcome) (.obj p.proofData.task.outcome) ∧
    (scalarStrings (.obj invocation) → scalarStrings (.obj p.proofData.task.invocation) →
      distinctKeys (.obj invocation : JsonValue) →
      Reorder (.obj invocation : JsonValue) (.obj p.proofData.task.invocation)) ∧
    (scalarStrings (.obj outcome) → scalarStrings (.obj p.proofData.task.outcome) →
      distinctKeys (.obj outcome : JsonValue) →
      Reorder (.obj outcome : JsonValue) (.obj p.proofData.task.outcome)) ∧
    ∃ commit, consulted s.lib s.world (s.history s.challenger) systemId (.str taskId) =
      some commit ∧ commit.status = .confirmed := by
  obtain ⟨content, commit, answered, digest, confirmed⟩ := compared_of_verified run
  rw [Setting.consultedFor, system, namedTask, task] at answered
  obtain ⟨same, same'⟩ := held _ commit answered
  rw [hashWithPrefix_obj, Except.ok.injEq] at hinvocation houtcome
  obtain ⟨left, right⟩ := Prod.mk.inj (content.trans digest.symm)
  have first : contentHash invocation = contentHash p.proofData.task.invocation := by
    rw [hinvocation]
    exact raw_injective (left.trans same).symm
  have second : contentHash outcome = contentHash p.proofData.task.outcome := by
    rw [houtcome]
    exact raw_injective (right.trans same').symm
  obtain ⟨wire, exact⟩ := binding_of_contentHash first (injective.mono (by
    rintro t (rfl | rfl) <;> simp))
  obtain ⟨wire', exact'⟩ := binding_of_contentHash second (injective.mono (by
    rintro t (rfl | rfl) <;> simp))
  exact ⟨wire, wire', exact, exact', commit, answered, confirmed⟩

/-- An emoji as one code point, and as a pair of surrogate code points. -/
def emoji : Content := [(lit "k", .str (lit "😀"))]
def surrogates : Content := [(lit "k", .str [0xD83D, 0xDE00])]

def emojiTask : Completed := { sampleTaskDone with invocation := emoji, outcome := emoji }

def surrogateProof : StoredProofOf PyStr :=
  { (emojiTask.storedProof onePm).python with
    proofData :=
      { emojiTask.proofData.python with
        task := { emojiTask.proofData.task.python with invocation := surrogates } } }

def surrogateSetting : Setting := sampleSetting isoLibrary (raw sampleTask.str)
  surrogateProof.dump (.ok (answer 200 (commitData emojiTask.sketch .confirmed)))

theorem surrogates_text : dumps (.obj emoji) = dumps (.obj surrogates) := by decide

theorem surrogateProof_matches :
    Matches surrogateProof "s".toList sampleTask.str emojiTask.sketch where
  systemId := by decide
  taskId := rfl
  content := by
    have hash : contentHash surrogates = contentHash emoji := by
      rw [contentHash, contentHash, surrogates_text]
    exact congrArg (fun h => (raw h, raw (contentHash emoji))) hash
  sketch := rfl

theorem surrogateProof_verified :
    ∃ m log, surrogateSetting.challenge true none = ⟨.ok (surrogateProof, true, m), log⟩ := by
  obtain ⟨m, log, _, run, _⟩ := challenge_verified (sampleSetup _ _ _)
    (sketch_isoLibrary (by decide)) surrogateProof_matches
    (StoredProofOf.validate_dump (storedProof_isoLibrary (by decide))) none
  exact ⟨m, log, run⟩

/-- The invocation committed as one code point is verified when disclosed as two. -/
theorem surrogates_verified :
    hashWithPrefix (.obj emoji) = .ok emojiTask.sketch.cryptography.invocationHash ∧
    (∃ m log, surrogateSetting.challenge true none = ⟨.ok (surrogateProof, true, m), log⟩) ∧
    namedSystem surrogateProof = raw "s".toList ∧
    surrogateProof.proofData.task.taskId = raw sampleTask.str ∧
    dumps (.obj emoji) = dumps (.obj surrogateProof.proofData.task.invocation) ∧
    ¬ Reorder (.obj emoji : JsonValue) (.obj surrogateProof.proofData.task.invocation) := by
  refine ⟨hashWithPrefix_obj emoji, surrogateProof_verified, surrogateProof_matches.systemId, rfl,
    surrogates_text, fun reorder => ?_⟩
  have scalar := reorder.stringsAll_eq scalarText
  exact absurd scalar (by decide)

theorem challenge_binds_surrogates :
    SameWire (.obj emoji) (.obj surrogates) ∧ ∃ commit, consulted isoLibrary surrogateSetting.world
      (surrogateSetting.history surrogateSetting.challenger) (raw "s".toList)
      (text sampleTask.str) = some commit ∧ commit.status = .confirmed := by
  obtain ⟨m, log, run⟩ := surrogateProof_verified
  obtain ⟨wire, _, _, _, confirmed⟩ := challenge_binds (hashWithPrefix_obj emoji)
    (hashWithPrefix_obj emoji) (fun h commit answered => by
      obtain ⟨commit', answered', record⟩ := consulted_setup
        (sampleSetup (raw sampleTask.str) surrogateProof.dump emojiTask.sketch)
        (sketch_isoLibrary (by decide)) h
      obtain rfl := Option.some.inj (answered.symm.trans answered')
      exact Prod.mk.inj (congrArg Record.digest record)) run surrogateProof_matches.systemId rfl (by
      have texts : dumps (.obj surrogateProof.proofData.task.invocation) = dumps (.obj emoji) :=
        surrogates_text.symm
      have kept : surrogateProof.proofData.task.outcome = emoji := rfl
      rw [texts, kept]
      simp)
  exact ⟨wire, confirmed⟩

end Binding

section Redisclosure

variable {s : Setting} {r : Response}

def answering (s : Setting) (r : Response) : Setting :=
  { s with
    world := { s.world with
      reply := fun h q => if q.party = .agent then .ok r else s.world.reply h q } }

theorem answering_identity (exchangeUrl systemId fallback : Text) :
    identityAt (answering s r).world exchangeUrl systemId fallback =
      identityAt s.world exchangeUrl systemId fallback := by
  have same : ((getSystem (raw systemId)).run (answering s r).world []).result.toOption =
      ((getSystem (raw systemId)).run s.world []).result.toOption := by
    rw [getSystem, translated_result, translated_result]
    rfl
  unfold identityAt
  cases left : ((getSystem (raw systemId)).run (answering s r).world []).result <;>
    cases right : ((getSystem (raw systemId)).run s.world []).result <;>
    simp only [left, right, Except.toOption, Option.some.injEq, reduceCtorEq] at same
  · rfl
  · rw [same]

theorem answering_challenger : (answering s r).challenger = s.challenger :=
  answering_identity _ _ _

theorem answering_verifier : (answering s r).verifier = s.verifier :=
  answering_identity _ _ _

theorem answering_disclosed : (answering s r).disclosed = decodeDisclosure s.lib r := rfl

theorem answering_found (p : StoredProofOf PyStr) : (answering s r).found p = s.found p := by
  rw [Setting.found, answering_challenger]
  rfl

theorem answering_rawDisclosed {v : JsonValue} {task : RawTask}
    (reply : decodeReply r = .ok (.ok v)) (read : readTask v = .ok task) :
    (answering s r).rawDisclosed = some (v, task) := by
  have decoded : (answering s r).reply (answering s r).verifier >>= decodeReply = .ok (.ok v) :=
    reply
  have replied : (answering s r).rawReply = .ok v := by rw [Setting.rawReply, decoded]
  simp only [Setting.rawDisclosed, replied, read]

theorem answering_rawFinding (task : RawTask) :
    rawFinding s.lib (answering s r).world ((answering s r).history (answering s r).verifier) task =
      rawFinding s.lib s.world (s.history s.verifier) task := by
  rw [answering_verifier]
  rfl

structure RawCompared (s : Setting) (task : RawTask) : Prop where
  content : RawMatch task
  sketch : ∃ commit, s.rawConsulted task = some commit ∧
    sameRaw (committed commit).digest (declaredRaw task) = true ∧ commit.status = .confirmed

theorem rawCompared_iff {task : RawTask} : RawCompared s task ↔
    rawFinding s.lib s.world (s.history s.verifier) task = some .confirmed := by
  constructor
  · rintro ⟨content, commit, answered, agree, final⟩
    refine rawFinding_eq_some.mpr (.inr ⟨content, ?_⟩)
    have confirmed : (committed commit).confirmed = true := decide_eq_true final
    rw [← Setting.rawConsulted, answered, Option.map_some, recordFinding, if_pos agree,
      if_pos confirmed]
  · intro found
    obtain ⟨_, impossible⟩ | ⟨content, settled⟩ := rawFinding_eq_some.mp found
    · simp at impossible
    · obtain ⟨r, held, agree, final⟩ := recordFinding_eq_confirmed.mp settled.symm
      obtain ⟨commit, answered, rfl⟩ := Option.map_eq_some_iff.mp held
      exact ⟨content, commit, answered, agree, of_decide_eq_true final⟩

variable {expectedInvocation expectedOutcome : Option JsonValue} {v : JsonValue} {m : Message}
  {log : List Event}

theorem rawRuled_of_verified
    (run : s.challengeAndVerify expectedInvocation expectedOutcome = ⟨.ok (v, true, m), log⟩) :
    ∃ task, s.rawRuled expectedInvocation expectedOutcome = some (v, task, .confirmed) := by
  cases ruled : s.rawRuled expectedInvocation expectedOutcome with
  | none =>
    obtain ⟨unverified, _⟩ := challengeAndVerify_silent ruled
    exact absurd (congrArg Outcome.result run) (unverified v m)
  | some q =>
    obtain ⟨v', task, f⟩ := q
    obtain ⟨m', log', now, run', _⟩ := challengeAndVerify_of_ruled ruled
    rw [run'] at run
    simp only [Outcome.mk.injEq, Except.ok.injEq, Prod.mk.injEq, decide_eq_true_eq] at run
    obtain ⟨⟨rfl, rfl, _⟩, _⟩ := run
    exact ⟨task, rfl⟩

theorem rawCompared_of_verified
    (run : s.challengeAndVerify expectedInvocation expectedOutcome = ⟨.ok (v, true, m), log⟩) :
    ∃ task, readTask v = .ok task ∧ RawCompared s task := by
  obtain ⟨task, ruled⟩ := rawRuled_of_verified run
  obtain ⟨_, disclosed, g, found, confirmed⟩ := rawRuled_eq_some.mp ruled
  obtain ⟨rfl, _⟩ := Finding.expecting_eq_confirmed.mp confirmed.symm
  exact ⟨task, rawDisclosed_readTask disclosed, rawCompared_iff.mpr found⟩

def altered (p : StoredProofOf PyStr) (dependencies : List (DependencyOf PyStr))
    (timestamp : DateTime) : StoredProofOf PyStr :=
  { p with
    proofData := { p.proofData with
      dependencies
      task := { p.proofData.task with timestamp } } }

theorem readTask_altered (p : StoredProofOf PyStr) (dependencies : List (DependencyOf PyStr))
    (timestamp : DateTime) :
    readTask ((altered p dependencies timestamp).dump) = readTask p.dump := by
  rw [readTask_dump, readTask_dump]
  rfl

theorem found_altered (p : StoredProofOf PyStr) (dependencies : List (DependencyOf PyStr))
    (timestamp : DateTime) : s.found (altered p dependencies timestamp) = s.found p := rfl

theorem challenge_altered {verifying : Bool} {assessorTaskId : Option PyStr}
    {p : StoredProofOf PyStr}
    (run : s.challenge verifying assessorTaskId = ⟨.ok (p, true, m), log⟩)
    {dependencies : List (DependencyOf PyStr)} {timestamp : DateTime}
    (disclosed : decodeDisclosure s.lib r = .ok (altered p dependencies timestamp)) :
    ∃ m log, (answering s r).challenge verifying assessorTaskId =
      ⟨.ok (altered p dependencies timestamp, true, m), log⟩ := by
  obtain ⟨registered, _, on, found⟩ := ruled_eq_some.mp (ruled_of_verified run)
  have ruled : (answering s r).ruled verifying =
      some (altered p dependencies timestamp, .confirmed) :=
    ruled_eq_some.mpr ⟨registered, answering_disclosed.trans disclosed, on,
      by rw [answering_found, found_altered, found]⟩
  obtain ⟨m', log', _, run', _⟩ := challenge_of_ruled ruled assessorTaskId
  exact ⟨m', log', run'⟩

theorem challengeAndVerify_altered {v' : JsonValue}
    (run : s.challengeAndVerify expectedInvocation expectedOutcome = ⟨.ok (v, true, m), log⟩)
    (read : readTask v' = readTask v) (reply : decodeReply r = .ok (.ok v')) :
    ∃ m log, (answering s r).challengeAndVerify expectedInvocation expectedOutcome =
      ⟨.ok (v', true, m), log⟩ := by
  obtain ⟨task, ruled⟩ := rawRuled_of_verified run
  obtain ⟨registered, disclosed, g, found, confirmed⟩ := rawRuled_eq_some.mp ruled
  have read' : readTask v' = .ok task := read.trans (rawDisclosed_readTask disclosed)
  have ruled' : (answering s r).rawRuled expectedInvocation expectedOutcome =
      some (v', task, .confirmed) :=
    rawRuled_eq_some.mpr ⟨registered, answering_rawDisclosed reply read', g,
      (answering_rawFinding task).trans found, confirmed⟩
  obtain ⟨m', log', _, run', _⟩ := challengeAndVerify_of_ruled ruled'
  exact ⟨m', log', run'⟩

/-- Both verifiers compare the contents with the declared hashes, these with the hashes
of a confirmed sketch, and nothing else: an agent that is verified stays so under any
change to the dependencies and the timestamp that it discloses. -/
theorem verified_compares (s : Setting) :
    (∀ verifying assessorTaskId p m log,
      s.challenge verifying assessorTaskId = ⟨.ok (p, true, m), log⟩ →
        Compared s p ∧ ∀ r dependencies timestamp,
          decodeDisclosure s.lib r = .ok (altered p dependencies timestamp) →
            ∃ m log, (answering s r).challenge verifying assessorTaskId =
              ⟨.ok (altered p dependencies timestamp, true, m), log⟩) ∧
    (∀ expectedInvocation expectedOutcome v m log,
      s.challengeAndVerify expectedInvocation expectedOutcome = ⟨.ok (v, true, m), log⟩ →
        (∃ task, readTask v = .ok task ∧ RawCompared s task) ∧
        (∀ r v', readTask v' = readTask v → decodeReply r = .ok (.ok v') →
          ∃ m log, (answering s r).challengeAndVerify expectedInvocation expectedOutcome =
            ⟨.ok (v', true, m), log⟩)) ∧
    ∀ p dependencies timestamp,
      readTask ((altered p dependencies timestamp).dump) = readTask p.dump :=
  ⟨fun _ _ _ _ _ run => ⟨compared_of_verified run, fun _ _ _ => challenge_altered run⟩,
    fun _ _ _ _ _ run => ⟨rawCompared_of_verified run, fun _ _ => challengeAndVerify_altered run⟩,
    readTask_altered⟩

def alteredProof : StoredProofOf PyStr := altered (sampleTaskDone.storedProof onePm).python
  [⟨some (lit "https://y/systems/t"), lit "t", none, []⟩] onePm

def alteredSetting : Setting := sampleSetting isoLibrary (raw sampleTask.str) alteredProof.dump
  (.ok (answer 200 (commitData sampleTaskDone.sketch .confirmed)))

theorem alteredProof_matches :
    Matches alteredProof "s".toList sampleTask.str sampleTaskDone.sketch where
  systemId := by decide
  taskId := rfl
  content := rfl
  sketch := rfl

theorem alteredProof_verified :
    (∃ m log, alteredSetting.challenge true none = ⟨.ok (alteredProof, true, m), log⟩) ∧
      ∃ m log, alteredSetting.challengeAndVerify none none =
        ⟨.ok (alteredProof.dump, true, m), log⟩ := by
  obtain ⟨m, log, _, run, _⟩ := challenge_verified (sampleSetup _ _ _)
    (sketch_isoLibrary (by decide)) alteredProof_matches
    (StoredProofOf.validate_dump (storedProof_isoLibrary (by decide))) none
  have setup : Setup alteredSetting "s".toList sampleTask.str alteredProof.dump
      sampleTaskDone.sketch := sampleSetup _ _ _
  obtain ⟨m', log', _, run', _⟩ := challengeAndVerify_verified setup
    (sketch_isoLibrary (by decide)) alteredProof_matches
  exact ⟨⟨m, log, run⟩, m', log', run'⟩

/-- Verified by both, against a sketch with another dependencies hash and another time. -/
theorem altered_verified :
    (∃ m log, alteredSetting.challenge true none = ⟨.ok (alteredProof, true, m), log⟩) ∧
    (∃ m log, alteredSetting.challengeAndVerify none none =
      ⟨.ok (alteredProof.dump, true, m), log⟩) ∧
    (∃ h, sampleTaskDone.sketch.cryptography.dependenciesHash = some h ∧ h ≠ [] ∧
      computeDependenciesHash (alteredProof.proofData.dependencies.map .object) ≠ .ok h) ∧
    alteredProof.proofData.task.timestamp.instant ≠ sampleTaskDone.sketch.timestamp.instant := by
  obtain ⟨verified, verified'⟩ := alteredProof_verified
  refine ⟨verified, verified', ⟨_, rfl, by decide, ?_⟩, by decide⟩
  have differ :
      (computeDependenciesHash (alteredProof.proofData.dependencies.map .object)).toOption ≠
        some sampleTaskDone.dependenciesHash := by
    decide +kernel
  exact fun same => differ (congrArg Except.toOption same)

theorem verified_compares_altered :
    Compared alteredSetting alteredProof ∧
      ∃ task, readTask alteredProof.dump = .ok task ∧
        RawCompared alteredSetting task := by
  obtain ⟨⟨m, log, run⟩, m', log', run'⟩ := alteredProof_verified
  obtain ⟨compares, compares', _⟩ := verified_compares alteredSetting
  exact ⟨(compares _ _ _ _ _ run).1, (compares' _ _ _ _ _ run').1⟩

end Redisclosure

end AgentTrust.Verdicts
