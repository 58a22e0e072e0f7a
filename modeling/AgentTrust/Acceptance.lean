import AgentTrust.Verdicts
import AgentTrust.Durability

/-! Accepted disclosures. Whichever verifier accepts, the text hashed of the contents is the
committed one, so that verifiers whose Exchanges agree on the hashes accept the same texts,
from whatever agents; and the contents of a completed task are accepted for as long as a
store holds its proof. -/

namespace AgentTrust.Acceptance

open JsonTree JsonTree.Json PyText PyJson Gregorian PyDateTime OrderedDict PyValue Models Hashing
  Effects Exchange Client Storage Tasks Verifier CommitReveal Disclosure Publication HonestAgent
  ContentHash Verdicts StoredJson ExpiryAgreement StoreRefinement StoreHistory FaultySteps
  Durability
open StoreRefinement (Op)

section Binding

variable {s s' : Setting} {systemId : PyStr} {taskId x y x' y' : JsonValue}

/-- A verifier run accepts the contents `x` and `y` for the system and the task that the
disclosure names. -/
inductive Accepts (s : Setting) : PyStr → JsonValue → JsonValue → JsonValue → Prop
  | challenge {verifying : Bool} {assessorTaskId : Option PyStr} {p : StoredProofOf PyStr}
      {m : Message} {log : List Event}
      (run : s.challenge verifying assessorTaskId = ⟨.ok (p, true, m), log⟩) :
      Accepts s (namedSystem p) (namedTask p) (.obj p.proofData.task.invocation)
        (.obj p.proofData.task.outcome)
  | challengeAndVerify {expectedInvocation expectedOutcome : Option JsonValue} {v : JsonValue}
      {task : RawTask} {m : Message} {log : List Event}
      (run : s.challengeAndVerify expectedInvocation expectedOutcome = ⟨.ok (v, true, m), log⟩)
      (read : readTask v = .ok task) :
      Accepts s task.systemId task.taskId task.invocation task.outcome

def Answers (s : Setting) (systemId : PyStr) (taskId : JsonValue) (digest : PyStr × PyStr) :
    Prop :=
  ∀ h commit, consulted s.lib s.world h systemId taskId = some commit →
    (committed commit).digest = digest

def hashedTexts (contents : List JsonValue) : Set Text :=
  {t | ∃ x ∈ contents, encode (hashedString x) = some t}

theorem isText_iff {t : PyStr} {v : JsonValue} : isText t v = true ↔ v = .str t := by
  cases v <;> simp [isText, eq_comm]

theorem sameRaw_iff {digest : PyStr × PyStr} {declared : JsonValue × JsonValue} :
    sameRaw digest declared = true ↔ declared = (.str digest.1, .str digest.2) := by
  rw [sameRaw, Bool.and_eq_true, isText_iff, isText_iff, Prod.ext_iff]

theorem Accepts.committed (accepts : Accepts s systemId taskId x y) :
    ∃ h commit invocation outcome, consulted s.lib s.world h systemId taskId = some commit ∧
      commit.status = .confirmed ∧ hashWithPrefix x = .ok invocation ∧
      hashWithPrefix y = .ok outcome ∧
      (committed commit).digest = (raw invocation, raw outcome) := by
  cases accepts with
  | challenge run =>
    obtain ⟨content, commit, answered, digest, confirmed⟩ := compared_of_verified run
    exact ⟨_, commit, _, _, answered, confirmed, hashWithPrefix_obj _, hashWithPrefix_obj _,
      digest.trans content.symm⟩
  | challengeAndVerify run read =>
    obtain ⟨task', read', content, commit, answered, agree, confirmed⟩ :=
      rawCompared_of_verified run
    obtain rfl := Except.ok.inj (read.symm.trans read')
    obtain ⟨invocation, outcome, hashed, hashed', same⟩ := content
    have texts := (sameRaw_iff.mp agree).symm.trans (sameRaw_iff.mp same)
    simp only [Prod.mk.injEq, Json.str.injEq] at texts
    exact ⟨_, commit, invocation, outcome, answered, confirmed, hashed, hashed',
      Prod.ext texts.1 texts.2⟩

theorem hashWithPrefix_eq_ok {x : JsonValue} {h : Text} : hashWithPrefix x = .ok h ↔
    ∃ t, encode (hashedString x) = some t ∧ h = hashPrefix ++ sha256 t := by
  unfold hashWithPrefix computeDataHash computeSha256
  cases encode (hashedString x) with
  | none => simp [Except.map]
  | some t => simp [Except.map, eq_comm]

theorem hashedString_eq_of_hash {h : Text} (hx : hashWithPrefix x = .ok h)
    (hy : hashWithPrefix y = .ok h) {texts : Set Text} (injective : Set.InjOn sha256 texts)
    (inside : hashedTexts [x, y] ⊆ texts) : hashedString x = hashedString y := by
  obtain ⟨t, encoded, rfl⟩ := hashWithPrefix_eq_ok.mp hx
  obtain ⟨u, encoded', same⟩ := hashWithPrefix_eq_ok.mp hy
  have equal : t = u := injective (inside ⟨x, by simp, encoded⟩) (inside ⟨y, by simp, encoded'⟩)
    (List.append_cancel_left same)
  rw [← raw_of_encode encoded, ← raw_of_encode encoded', equal]

theorem hashedTexts_mono {some_ all : List JsonValue} (inside : some_ ⊆ all) :
    hashedTexts some_ ⊆ hashedTexts all :=
  fun _ ⟨x, member, encoded⟩ => ⟨x, inside member, encoded⟩

structure SameText (x y : JsonValue) : Prop where
  text : hashedString x = hashedString y
  wire : container x → container y → SameWire x y
  exact_ : container x → container y → scalarStrings x → scalarStrings y → x.distinctKeys →
    Reorder x y

theorem sameText_of_text (text : hashedString x = hashedString y) : SameText x y where
  text := text
  wire := fun hx hy => reorder_of_dumps_eq ((hashedString_eq_iff hx hy).mp text)
  exact_ := fun hx hy sx sy distinct =>
    (hashedString_eq_iff_reorder hx hy sx sy distinct).mp text

theorem Accepts.sameText (accepts : Accepts s systemId taskId x y) {invocation outcome : Text}
    (answers : Answers s systemId taskId (raw invocation, raw outcome))
    (hx : hashWithPrefix x' = .ok invocation) (hy : hashWithPrefix y' = .ok outcome)
    (injective : Set.InjOn sha256 (hashedTexts [x, y, x', y'])) :
    SameText x x' ∧ SameText y y' := by
  obtain ⟨h, commit, i, o, answered, _, left, right, digest⟩ := accepts.committed
  rw [answers h commit answered, Prod.mk.injEq, raw_injective.eq_iff, raw_injective.eq_iff]
    at digest
  obtain ⟨rfl, rfl⟩ := digest
  exact ⟨sameText_of_text (hashedString_eq_of_hash left hx injective
      (hashedTexts_mono (by simp))),
    sameText_of_text (hashedString_eq_of_hash right hy injective (hashedTexts_mono (by simp)))⟩

/-- Verifiers whose Exchanges agree on the content hashes of a task, whenever they are asked,
accept one pair of texts for it: of whatever agents, in whatever order, by either verifier. -/
theorem accepted_agree (settings : Set Setting) (digest : PyStr × PyStr)
    (answers : ∀ s ∈ settings, Answers s systemId taskId digest) {s s' : Setting}
    (inside : s ∈ settings) (inside' : s' ∈ settings)
    (accepts : Accepts s systemId taskId x y) (accepts' : Accepts s' systemId taskId x' y')
    (injective : Set.InjOn sha256 (hashedTexts [x, y, x', y'])) :
    SameText x x' ∧ SameText y y' := by
  obtain ⟨h, commit, i, o, answered, _, left, right, held⟩ := accepts'.committed
  obtain rfl : digest = (raw i, raw o) := (answers s' inside' h commit answered).symm.trans held
  exact accepts.sameText (answers s inside) left right injective

end Binding

section Respelling

variable {s : Setting} {r : Response}

theorem challenge_accepts_iff {verifying : Bool} {assessorTaskId : Option PyStr}
    {p : StoredProofOf PyStr} :
    (∃ m log, s.challenge verifying assessorTaskId = ⟨.ok (p, true, m), log⟩) ↔
      s.ruled verifying = some (p, .confirmed) := by
  constructor
  · rintro ⟨m, log, run⟩
    exact ruled_of_verified run
  · intro ruled
    obtain ⟨m, log, _, run, _⟩ := challenge_of_ruled ruled assessorTaskId
    exact ⟨m, log, run⟩

theorem challengeAndVerify_accepts_iff {v : JsonValue} :
    (∃ m log, s.challengeAndVerify none none = ⟨.ok (v, true, m), log⟩) ↔
      ∃ task, s.registeredId.isSome ∧ s.rawDisclosed = some (v, task) ∧ RawCompared s task := by
  constructor
  · rintro ⟨m, log, run⟩
    obtain ⟨task, ruled⟩ := rawRuled_of_verified run
    obtain ⟨registered, disclosed, g, found, confirmed⟩ := rawRuled_eq_some.mp ruled
    obtain ⟨rfl, _⟩ := Finding.expecting_eq_confirmed.mp confirmed.symm
    exact ⟨task, registered, disclosed, rawCompared_iff.mpr found⟩
  · rintro ⟨task, registered, disclosed, compared⟩
    have ruled : s.rawRuled none none = some (v, task, .confirmed) :=
      rawRuled_eq_some.mpr ⟨registered, disclosed, _, rawCompared_iff.mp compared, rfl⟩
    obtain ⟨m, log, _, run, _⟩ := challengeAndVerify_of_ruled ruled
    exact ⟨m, log, run⟩

theorem found_eq_confirmed {p : StoredProofOf PyStr} : s.found p = .confirmed ↔ Compared s p := by
  constructor
  · intro found
    obtain ⟨content, r, held, agree, final⟩ := finding_eq_confirmed.mp found
    obtain ⟨commit, answered, rfl⟩ := Option.map_eq_some_iff.mp held
    exact ⟨of_decide_eq_true content, commit, answered, of_decide_eq_true agree,
      of_decide_eq_true final⟩
  · rintro ⟨content, commit, answered, agree, final⟩
    exact finding_eq_confirmed.mpr ⟨decide_eq_true content, _,
      Option.map_eq_some_iff.mpr ⟨commit, answered, rfl⟩, decide_eq_true agree,
      decide_eq_true final⟩

/-- With one disclosure verified, another with its names is verified exactly if it declares
the same hashes of contents with the same canonical texts. -/
theorem challenge_respelled {verifying : Bool} {assessorTaskId : Option PyStr}
    {p p' : StoredProofOf PyStr} {m : Message} {log : List Event}
    (run : s.challenge verifying assessorTaskId = ⟨.ok (p, true, m), log⟩)
    (disclosed : decodeDisclosure s.lib r = .ok p') (system : namedSystem p' = namedSystem p)
    (task : p'.proofData.task.taskId = p.proofData.task.taskId)
    (injective : Set.InjOn sha256 {dumps (.obj p.proofData.task.invocation),
      dumps (.obj p.proofData.task.outcome), dumps (.obj p'.proofData.task.invocation),
      dumps (.obj p'.proofData.task.outcome)}) :
    (∃ m log, (answering s r).challenge verifying assessorTaskId = ⟨.ok (p', true, m), log⟩) ↔
      declared p' = declared p ∧
      dumps (.obj p'.proofData.task.invocation) = dumps (.obj p.proofData.task.invocation) ∧
      dumps (.obj p'.proofData.task.outcome) = dumps (.obj p.proofData.task.outcome) := by
  obtain ⟨registered, _, on, _⟩ := ruled_eq_some.mp (ruled_of_verified run)
  obtain ⟨content, commit, answered, digest, confirmed⟩ := compared_of_verified run
  have consulted_ : s.consultedFor p' = s.consultedFor p := by
    rw [Setting.consultedFor, Setting.consultedFor, system, namedTask, namedTask, task]
  have accepted : (∃ m log, (answering s r).challenge verifying assessorTaskId =
      ⟨.ok (p', true, m), log⟩) ↔ Compared s p' := by
    rw [challenge_accepts_iff, ruled_eq_some, ← found_eq_confirmed, answering_found]
    constructor
    · exact fun ruled => ruled.2.2.2.symm
    · exact fun found => ⟨registered, answering_disclosed.trans disclosed, on, found.symm⟩
  rw [accepted]
  constructor
  · rintro ⟨content', commit', answered', digest', _⟩
    rw [consulted_, answered, Option.some.injEq] at answered'
    obtain rfl := answered'
    have same : declared p' = declared p := digest'.symm.trans digest
    obtain ⟨left, right⟩ := Prod.mk.inj (content'.trans (same.trans content.symm))
    exact ⟨same, injective (by simp) (by simp) (contentHash_eq_iff.mp (raw_injective left)),
      injective (by simp) (by simp) (contentHash_eq_iff.mp (raw_injective right))⟩
  · rintro ⟨same, left, right⟩
    refine ⟨?_, commit, consulted_.trans answered, digest.trans same.symm, confirmed⟩
    rw [same, ← content]
    exact Prod.ext (congrArg raw (contentHash_eq_iff.mpr (congrArg _ left)))
      (congrArg raw (contentHash_eq_iff.mpr (congrArg _ right)))

/-- The same of `challenge_and_verify`, where a content may be any JSON: a string and an
object with that canonical text are not told apart. -/
theorem challengeAndVerify_respelled {v v' : JsonValue} {task task' : RawTask} {m : Message}
    {log : List Event} (run : s.challengeAndVerify none none = ⟨.ok (v, true, m), log⟩)
    (read : readTask v = .ok task) (read' : readTask v' = .ok task')
    (reply : decodeReply r = .ok (.ok v')) (system : task'.systemId = task.systemId)
    (named : task'.taskId = task.taskId)
    (injective : Set.InjOn sha256
      (hashedTexts [task.invocation, task.outcome, task'.invocation, task'.outcome])) :
    (∃ m log, (answering s r).challengeAndVerify none none = ⟨.ok (v', true, m), log⟩) ↔
      declaredRaw task' = declaredRaw task ∧
      hashedString task'.invocation = hashedString task.invocation ∧
      hashedString task'.outcome = hashedString task.outcome := by
  obtain ⟨task₀, registered, disclosed₀, content, commit, answered, agree, final⟩ :=
    challengeAndVerify_accepts_iff.mp ⟨m, log, run⟩
  obtain rfl := Except.ok.inj (read.symm.trans (rawDisclosed_readTask disclosed₀))
  have disclosed := answering_rawDisclosed (s := s) reply read'
  have consulted_ : s.rawConsulted task' = s.rawConsulted task := by
    rw [Setting.rawConsulted, Setting.rawConsulted, system, named]
  have accepted : (∃ m log, (answering s r).challengeAndVerify none none =
      ⟨.ok (v', true, m), log⟩) ↔ RawCompared s task' := by
    have found : RawCompared (answering s r) task' ↔ RawCompared s task' := by
      rw [rawCompared_iff, rawCompared_iff]
      exact Eq.congr_left (answering_rawFinding task')
    rw [challengeAndVerify_accepts_iff, disclosed, ← found]
    constructor
    · rintro ⟨task₁, _, same, compared⟩
      obtain ⟨_, rfl⟩ := Prod.mk.inj (Option.some.inj same)
      exact compared
    · exact fun compared => ⟨task', registered, rfl, compared⟩
  rw [accepted]
  obtain ⟨invocation, outcome, hashed, hashed', declares⟩ := content
  have declares := sameRaw_iff.mp declares
  have agree := sameRaw_iff.mp agree
  constructor
  · rintro ⟨⟨invocation', outcome', rehashed, rehashed', declares'⟩, commit', answered', agree', _⟩
    rw [consulted_, answered, Option.some.injEq] at answered'
    obtain rfl := answered'
    have same : declaredRaw task' = declaredRaw task := (sameRaw_iff.mp agree').trans agree.symm
    have texts := (sameRaw_iff.mp declares').symm.trans (same.trans declares)
    simp only [Prod.mk.injEq, Json.str.injEq, raw_injective.eq_iff] at texts
    obtain ⟨rfl, rfl⟩ := texts
    exact ⟨same, hashedString_eq_of_hash rehashed hashed injective (hashedTexts_mono (by simp)),
      hashedString_eq_of_hash rehashed' hashed' injective (hashedTexts_mono (by simp))⟩
  · rintro ⟨same, left, right⟩
    refine ⟨⟨invocation, outcome, ?_, ?_, sameRaw_iff.mpr (same.trans declares)⟩, commit,
      consulted_.trans answered, sameRaw_iff.mpr (same.trans agree), final⟩
    · rw [← hashed, hashWithPrefix, hashWithPrefix, computeDataHash, computeDataHash, left]
    · rw [← hashed', hashWithPrefix, hashWithPrefix, computeDataHash, computeDataHash, right]

end Respelling

section Lifetime

variable {lib : Library} {systemId taskId : Text} {p : StoredProof} {sketch : ProofSketch}

def Verified (s : Setting) (p : StoredProof) : Prop :=
  (∀ assessorTaskId, ∃ m log, s.challenge true assessorTaskId = ⟨.ok (p.python, true, m), log⟩) ∧
    ∃ m log, s.challengeAndVerify none none = ⟨.ok (p.dump, true, m), log⟩

/-- A challenge of the task is answered with the proof: of a memory store, after any run of
operations, and of a database, after any run of operations and new processes, whatever fails
in the look or failed before it, if the look is answered at all. -/
structure Disclosed (lib : Library) (taskId : Text) (p : StoredProof) (now : Wall) : Prop where
  inMemory : ∀ run : List (Op × Wall), (∀ op ∈ run, op.2.micros ≤ now.micros) →
    SavedLast run taskId p →
      onChallenge lib taskId (InMemoryProofStore.get (after run) taskId now).1 = .ok p.dump
  sqlite : ∀ run failures, Admissible lib run now → SavedLast (completed lib run) taskId p →
    (∀ found, looked lib run taskId now failures = .ok found →
      onChallenge lib taskId (.ok found) = .ok p.dump) ∧
    ((∀ i, failures i = none) → ∃ found, looked lib run taskId now failures = .ok found)

theorem onChallenge_some (dumpable : lib.dumpable p.dump) :
    onChallenge lib taskId (.ok (some p)) = .ok p.dump := if_pos dumpable

theorem disclosed_of_live (documented : Documented lib) (utc : p.expiresAt.offset = some utcOffset)
    (dumpable : lib.dumpable p.dump) {now : Wall}
    (live : (now.micros : Int) ≤ p.expiresAt.instant) : Disclosed lib taskId p now where
  inMemory := by
    intro run latest last
    rw [(get_returned_iff latest).mpr ⟨last, aware_of_utc utc, live⟩, onChallenge_some dumpable]
  sqlite := by
    intro run failures admissible last
    refine ⟨fun found told => ?_, fun unfailing => ⟨_, looked_live documented admissible unfailing
      last live⟩⟩
    have given := looked_truthful (by rw [told]; rfl)
    rw [(sqlite_returned_iff documented admissible.completed_saves
      admissible.completed_latest).mpr ⟨last, live⟩, told] at given
    obtain rfl := Except.ok.inj given
    exact onChallenge_some dumpable

/-- The life of a completed task. It saves one proof and posts one sketch. While a store
holds the proof as the one saved last and it has not expired, a challenge is answered with
it and both verifiers accept it against the sketch; and against the hashes of the sketch,
nothing else is accepted from any agent. -/
theorem task_lifetime (documented : Documented lib) (nonempty : systemId ≠ [])
    (single : '/' ∉ systemId) {log : List Event} (produced : Produced lib systemId taskId log) :
    ∃ p sketch proofHash, log = [.clock, .save p, .send (postRequest "/api/v1/commit"
        (commitPayload systemId taskId sketch proofHash))] ∧
      (lib.dumpable p.dump → ∀ now : Wall, (now.micros : Int) ≤ p.expiresAt.instant →
        Disclosed lib taskId p now) ∧
      ∀ s : Setting, s.lib = lib →
        (Setup s systemId taskId p.dump sketch → Verified s p) ∧
        (Answers s (raw systemId) (text taskId)
            (raw sketch.cryptography.invocationHash, raw sketch.cryptography.outcomeHash) →
          ∀ x y, Accepts s (raw systemId) (text taskId) x y →
            Set.InjOn sha256 (hashedTexts
              [x, y, .obj p.proofData.task.invocation, .obj p.proofData.task.outcome]) →
            SameText x (.obj p.proofData.task.invocation) ∧
              SameText y (.obj p.proofData.task.outcome)) := by
  obtain ⟨t, c, expiresAt, proofHash, honest, utc, events⟩ := completes_of_produced produced
  have stored := readable_storedProof documented honest utc
  have matched :
      Matches (t.storedProof expiresAt).python systemId taskId (c.completed systemId t.sketch) :=
    matches_storedProof honest nonempty single
  refine ⟨t.storedProof expiresAt, c.completed systemId t.sketch, proofHash, ?_,
    fun dumpable now live => disclosed_of_live documented utc dumpable live, ?_⟩
  · rw [events, Publication.events, honest.taskId]
  · rintro s rfl
    constructor
    · intro setup
      have readable := readable_completed (c := c) documented honest
      rw [Verified, ← StoredProofOf.dump_python]
      rw [← StoredProofOf.dump_python] at setup
      constructor
      · intro assessorTaskId
        obtain ⟨m, log, _, run, _⟩ := challenge_verified setup readable matched
          ((congrArg _ (StoredProofOf.dump_python _)).trans (StoredProofOf.validate_python stored))
          assessorTaskId
        exact ⟨m, log, run⟩
      · obtain ⟨m, log, _, run, _⟩ := challengeAndVerify_verified setup readable matched
        exact ⟨m, log, run⟩
    · intro answers x y accepts injective
      exact accepts.sameText answers (hashWithPrefix_obj _) (hashWithPrefix_obj _) injective

end Lifetime

section Sample

def spelled (p : StoredProofOf PyStr) : JsonValue := record [("proof_data", record [("task", record
  [("system_uri", .str p.proofData.task.systemUri), ("task_id", .str p.proofData.task.taskId),
   ("invocation", text (dumps (.obj p.proofData.task.invocation))),
   ("invocation_hash", .str p.proofData.task.invocationHash),
   ("outcome", text (dumps (.obj p.proofData.task.outcome))),
   ("outcome_hash", .str p.proofData.task.outcomeHash)])])]

theorem readTask_spelled (p : StoredProofOf PyStr) : readTask (spelled p) =
    .ok { rawTaskOf p with
      invocation := text (dumps (.obj p.proofData.task.invocation))
      outcome := text (dumps (.obj p.proofData.task.outcome)) } := by
  simp [readTask, spelled, trailingId, text, rawTaskOf]

def disclosing (v : JsonValue) : Response :=
  answer 200 (record [("jsonrpc", .str (lit "2.0")), ("result", v), ("id", .int 1)])

theorem disclosing_discloses (v : JsonValue) : Discloses (disclosing v) v :=
  ⟨rfl, _, rfl, by simp, by simp⟩

theorem emojiTexts {t : Text} (inside : t ∈ hashedTexts [.obj emoji, .obj surrogates,
    text (dumps (.obj emoji)), text (dumps (.obj surrogates))]) : t = dumps (.obj emoji) := by
  obtain ⟨x, member, encoded⟩ := inside
  have texts := surrogates_text
  simp only [List.mem_cons, List.not_mem_nil, or_false] at member
  rcases member with rfl | rfl | rfl | rfl <;> simp_all [hashedString, text]

theorem emojiTexts_injective : Set.InjOn sha256 (hashedTexts [.obj emoji, .obj surrogates,
    text (dumps (.obj emoji)), text (dumps (.obj surrogates))]) :=
  fun _ inside _ inside' _ => (emojiTexts inside).trans (emojiTexts inside').symm

def emojiProof : StoredProofOf PyStr := (emojiTask.storedProof onePm).python

def emojiSetting (v : JsonValue) : Setting := sampleSetting isoLibrary (raw sampleTask.str) v
  (.ok (answer 200 (commitData emojiTask.sketch .confirmed)))

theorem emojiSetup (v : JsonValue) : Setup (emojiSetting v) "s".toList sampleTask.str v
    emojiTask.sketch := sampleSetup _ _ _

theorem emojiSetting_answers (v : JsonValue) : Answers (emojiSetting v) (raw "s".toList)
    (text sampleTask.str)
    (raw emojiTask.sketch.cryptography.invocationHash,
      raw emojiTask.sketch.cryptography.outcomeHash) := by
  intro h commit answered
  obtain ⟨commit', answered', record⟩ :=
    consulted_setup (emojiSetup v) (sketch_isoLibrary (by decide)) h
  obtain rfl := Option.some.inj (answered.symm.trans answered')
  exact congrArg Record.digest record

theorem emojiProof_matches : Matches emojiProof "s".toList sampleTask.str emojiTask.sketch where
  systemId := by decide
  taskId := rfl
  content := rfl
  sketch := rfl

theorem emojiProof_verifiedRaw : ∃ m log, (emojiSetting emojiProof.dump).challengeAndVerify none
    none = ⟨.ok (emojiProof.dump, true, m), log⟩ := by
  obtain ⟨m, log, _, run, _⟩ := challengeAndVerify_verified (emojiSetup emojiProof.dump)
    (sketch_isoLibrary (by decide)) emojiProof_matches
  exact ⟨m, log, run⟩

/-- One agent spells an emoji with surrogates and another does not. -/
theorem emoji_agree :
    SameText (.obj surrogates) (.obj emoji) ∧ SameText (.obj emoji) (.obj emoji) := by
  obtain ⟨m, log, run⟩ := surrogateProof_verified
  obtain ⟨m', log', run'⟩ := emojiProof_verifiedRaw
  have accepts : Accepts surrogateSetting (namedSystem surrogateProof) (text sampleTask.str)
      (.obj surrogates) (.obj emoji) := .challenge run
  have accepts' : Accepts (emojiSetting emojiProof.dump) (namedSystem emojiProof)
      (text sampleTask.str) (.obj emoji) (.obj emoji) :=
    .challengeAndVerify run' (readTask_dump emojiProof)
  rw [surrogateProof_matches.systemId] at accepts
  rw [emojiProof_matches.systemId] at accepts'
  have answers : ∀ s ∈ Set.range emojiSetting, Answers s (raw "s".toList) (text sampleTask.str)
      (raw emojiTask.sketch.cryptography.invocationHash,
        raw emojiTask.sketch.cryptography.outcomeHash) := by
    rintro s ⟨v, rfl⟩
    exact emojiSetting_answers v
  exact accepted_agree (Set.range emojiSetting) _ answers ⟨_, rfl⟩ ⟨_, rfl⟩ accepts accepts'
    (emojiTexts_injective.mono (hashedTexts_mono (by simp)))

theorem emoji_respelled : ∃ m log,
    (answering surrogateSetting (disclosing emojiProof.dump)).challenge true none =
      ⟨.ok (emojiProof, true, m), log⟩ := by
  obtain ⟨m, log, run⟩ := surrogateProof_verified
  have disclosed : decodeDisclosure surrogateSetting.lib (disclosing emojiProof.dump) =
      .ok emojiProof := decodeDisclosure_discloses (disclosing_discloses _)
    (StoredProofOf.validate_dump (storedProof_isoLibrary (by decide)))
  refine (challenge_respelled run disclosed
    (emojiProof_matches.systemId.trans surrogateProof_matches.systemId.symm) rfl ?_).mpr
    ⟨rfl, surrogates_text, rfl⟩
  refine emojiTexts_injective.mono ?_
  have texts : ∀ t, t ∈ ({dumps (.obj surrogates), dumps (.obj emoji), dumps (.obj emoji),
      dumps (.obj emoji)} : Set Text) → t = dumps (.obj emoji) := by
    rintro t (rfl | rfl | rfl | rfl)
    · exact surrogates_text.symm
    · rfl
    · rfl
    · rfl
  exact fun t inside => ⟨.obj emoji, by simp, by simp [texts t inside, hashedString]⟩

theorem emoji_spelled : ∃ m log,
    (answering (emojiSetting emojiProof.dump) (disclosing (spelled emojiProof))).challengeAndVerify
      none none = ⟨.ok (spelled emojiProof, true, m), log⟩ := by
  obtain ⟨m, log, run⟩ := emojiProof_verifiedRaw
  refine (challengeAndVerify_respelled run (readTask_dump emojiProof) (readTask_spelled emojiProof)
    (decodeReply_discloses (disclosing_discloses _)) rfl rfl ?_).mpr ⟨rfl, rfl, rfl⟩
  have contents : (rawTaskOf emojiProof).invocation = .obj emoji ∧
      (rawTaskOf emojiProof).outcome = .obj emoji := ⟨rfl, rfl⟩
  have same : emojiProof.proofData.task.invocation = emoji ∧
      emojiProof.proofData.task.outcome = emoji := ⟨rfl, rfl⟩
  exact emojiTexts_injective.mono (hashedTexts_mono (by simp [contents, same]))

/-- The sample task, committed and saved; in the next process a deletion of its proof fails. -/
theorem sampleTask_lifetime : ∃ sketch : ProofSketch, ∃ found,
    looked textLibrary sampleHappenings sampleTask.str (january 13) unfailing = .ok found ∧
      onChallenge textLibrary sampleTask.str (.ok found) = .ok (sampleUntil onePm).dump ∧
      ∀ s : Setting, s.lib = textLibrary →
        Setup s "s".toList sampleTask.str (sampleUntil onePm).dump sketch →
          Verified s (sampleUntil onePm) := by
  obtain ⟨proofHash, produced⟩ := sampleAdapter_produced
  obtain ⟨p, sketch, _, logged, disclosed, verified⟩ := task_lifetime textLibrary_documented
    (by decide) (by decide) produced
  obtain rfl : sampleUntil onePm = p := Event.save.inj (List.cons.inj (List.cons.inj logged).2).1
  have dumpable := (textLibrary_dumpable _).trans (sampleUntil_scalar onePm)
  have held := disclosed dumpable (january 13) (by decide)
  obtain ⟨answered, exists_⟩ :=
    held.sqlite sampleHappenings unfailing sampleHappenings_admissible sampleHappenings_savedLast
  obtain ⟨found, told⟩ := exists_ fun _ => rfl
  exact ⟨sketch, found, told, answered found told, fun s lib setup => (verified s lib).1 setup⟩

end Sample

end AgentTrust.Acceptance
