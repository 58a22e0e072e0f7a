import AgentTrust.CommitPayload
import AgentTrust.StoreRefinement

/-! The agent's store against the Exchange. A call saves the full proof, then posts the
sketch; either step can fail, calls interleave, and the Exchange keeps the first sketch
that it accepts for a system and a task. A save replaces what is stored for its task id
before the Exchange has a say, and nothing undoes it. -/

namespace AgentTrust.StoreAgreement

open JsonTree PyText PyJson Gregorian PyDateTime OrderedDict PyValue Models Hashing Effects
  Exchange Client Storage Tasks Disclosure Publication HonestAgent StoredJson ExpiryAgreement
  CommitPayload StoreRefinement Runs
open Effects.Run hiding pure bind
open Storage.SQLiteProofStore (rowOf rowOf_eq_some decodeRow)

section Stores

def contentHashes (p : StoredProof) : Text × Text :=
  (p.proofData.task.invocationHash, p.proofData.task.outcomeHash)

/-- A proof store as the calls use it: `save` raises or replaces the proof of its task id
alone, and `held` gives the two content hashes of what can be read for an id, which for a
proof just saved is what `readsBack` says. -/
structure LocalStore (σ : Type) where
  empty : σ
  save : σ → StoredProof → Option σ
  delete : σ → Text → σ
  held : σ → Text → Option (Text × Text)
  readsBack : StoredProof → Option (Text × Text)
  held_empty : ∀ t, held empty t = none
  held_save : ∀ s p s', save s p = some s' → ∀ t,
    held s' t = if p.proofData.task.taskId = t then readsBack p else held s t
  held_delete : ∀ s t u, held (delete s t) u = if t = u then none else held s u

def inMemoryStore : LocalStore InMemoryProofStore where
  empty := Dict.empty
  save := fun store p => some (InMemoryProofStore.save store p)
  delete := InMemoryProofStore.delete
  held := fun store t => (Dict.get store t).map contentHashes
  readsBack := fun p => some (contentHashes p)
  held_empty := fun _ => rfl
  held_save := by
    intro s p _ saved t
    obtain rfl := Option.some.inj saved
    by_cases same : p.proofData.task.taskId = t
    · rw [if_pos same, InMemoryProofStore.save, same, Dict.get_set_self, Option.map_some]
    · rw [if_neg same, InMemoryProofStore.save, Dict.get_set_other s same]
  held_delete := by
    intro s t u
    by_cases same : t = u
    · rw [if_pos same, InMemoryProofStore.delete, same, Dict.get_erase_self, Option.map_none]
    · rw [if_neg same, InMemoryProofStore.delete, Dict.get_erase_other s same]

def rowHashes (lib : Library) (row : Row) : Option (Text × Text) :=
  (decodeRow lib row).toOption.map contentHashes

def sqliteStore (lib : Library) : LocalStore SQLiteProofStore where
  empty := Dict.empty
  save := fun table p => (SQLiteProofStore.save lib table p).toOption
  delete := SQLiteProofStore.delete
  held := fun table t => (Dict.get table t).bind (rowHashes lib)
  readsBack := fun p => (rowOf lib p).bind (rowHashes lib)
  held_empty := fun _ => rfl
  held_save := by
    intro s p saved success t
    obtain ⟨row, row_of, rfl⟩ := SQLiteProofStore.save_eq_ok (toOption_eq_some.mp success)
    by_cases same : p.proofData.task.taskId = t
    · rw [if_pos same, same, Dict.get_set_self, row_of]
    · rw [if_neg same, Dict.get_set_other s same]
  held_delete := by
    intro s t u
    by_cases same : t = u
    · rw [if_pos same, SQLiteProofStore.delete, same, Dict.get_erase_self, Option.bind_none]
    · rw [if_neg same, SQLiteProofStore.delete, Dict.get_erase_other s same]

end Stores

section Calls

structure Attempt where
  task : Completed
  client : ATPClient
  systemId : Text
  expiresAt : DateTime

def Attempt.proof (b : Attempt) : StoredProof := b.task.storedProof b.expiresAt

def Attempt.sketch (b : Attempt) : ProofSketch := b.client.completed b.systemId b.task.sketch

inductive Caller where
  | adapter (a : MinimalAdapter) (taskId : Text) (query response : PyStr)
      (artifacts : Option JsonValue) (classification : Option Capability)
  | context (t : ATPTaskContext) (c : ATPClient)

/-- The attempt made with a task, once its dependencies are hashed. -/
def intended (dependencies : List (Form Dependency)) (task : Text → Completed) (c : ATPClient)
    (systemId : Text) (ttl : Int) (now : Wall) : Option Attempt := do
  let hash ← (computeDependenciesHash dependencies).toOption
  let expiresAt ← (expiry now ttl).toOption
  return ⟨task hash, c, systemId, expiresAt⟩

/-- What the call publishes if it gets as far as its save. -/
def Caller.attempt (now : Wall) : Caller → Option Attempt
  | .adapter a taskId query response artifacts classification =>
    (a.systemId.filter (· ≠ [])).bind fun systemId =>
      intended [] (adapterTask a systemId taskId query response artifacts classification now)
        a.client systemId a.config.proofTtlSeconds now
  | .context t c =>
    if t.committed ∨ t.response.getD [] = [] then none
    else ((c.firstSystem.map Prod.snd).filter (· ≠ [])).bind fun systemId =>
      intended (t.dependencies.map .object) (contextTask t c systemId now) c systemId
        t.config.proofTtlSeconds now

def Caller.run : Caller → Run Unit
  | .adapter a taskId query response artifacts classification => do
    let _ ← a.onTaskComplete taskId query response artifacts classification
    pure ()
  | .context t c => do
    let _ ← t.commit c
    pure ()

variable {w : World} {h : List Event}

/-- The events of an attempt: its save, and, if that succeeds, the post of its sketch with
the hash made for it. -/
def Attempt.Logs (w : World) (h : List Event) (b : Attempt) (log : List Event) : Prop :=
  ∃ proofHash, computeSha256 (sentMessage b.client b.systemId b.task.taskId b.task.sketch) =
      .ok proofHash ∧
    log = h ++ [.save b.proof] ++
      match w.save h b.proof with
      | .error _ => []
      | .ok _ => [.send (postRequest "/api/v1/commit"
          (commitPayload b.systemId b.task.taskId b.sketch proofHash))]

theorem publish_log {t : Completed} {c : ATPClient} {systemId : Text} {ttl : Int}
    {expiresAt : DateTime} (deadline : expiry t.now ttl = .ok expiresAt) :
    Attempt.Logs w h ⟨t, c, systemId, expiresAt⟩
      ((t.publish c systemId ttl).run w h).log := by
  obtain ⟨proofHash, hashed, posted⟩ := createCommit_log c systemId t.taskId t.sketch w
    (h ++ [.save (t.storedProof expiresAt)])
  refine ⟨proofHash, hashed, ?_⟩
  unfold Completed.publish
  rw [run_bind, run_lift, deadline, next_ok, run_bind, saveProof, run_perform]
  simp only [Attempt.proof, Attempt.sketch]
  cases saved : w.save h (t.storedProof expiresAt) with
  | error e => simp
  | ok u => simpa using posted

def Leaves (w : World) (h log : List Event) : Option Attempt → Prop
  | none => log = h
  | some b => b.Logs w h log

theorem intended_log {β : Type} (dependencies : List (Form Dependency)) (task : Text → Completed)
    (c : ATPClient) (systemId : Text) (ttl : Int) {now : Wall}
    (clock : ∀ hash, (task hash).now = now)
    (answer : CommitResponse → β) : Leaves w h ((do
        let hash ← .lift (computeDependenciesHash dependencies)
        let commit ← (task hash).publish c systemId ttl
        pure (answer commit) : Run β).run w h).log
      (intended dependencies task c systemId ttl now) := by
  unfold intended
  cases hashed : computeDependenciesHash dependencies with
  | error e => simp [Leaves, Except.toOption]
  | ok hash =>
    have published : ((do
        let hash ← .lift (.ok hash)
        let commit ← (task hash).publish c systemId ttl
        pure (answer commit) : Run β).run w h).log =
          (((task hash).publish c systemId ttl).run w h).log := by
      rw [run_bind, run_lift, next_ok, log_bind w h (fun _ _ => rfl)]
    rw [published]
    cases deadline : expiry now ttl with
    | error e =>
      rw [Completed.publish, run_bind, run_lift, clock, deadline, next_error]
      simp [Leaves, Except.toOption]
    | ok expiresAt => exact publish_log (by rw [clock]; exact deadline)

/-- A call that attempts something reads the clock and then does what it attempts; another
may read the clock. -/
theorem caller_leaves (caller : Caller) :
    (caller.run.run w h).log = h ∧ caller.attempt (w.now h) = none ∨
      Leaves w (h ++ [.clock]) (caller.run.run w h).log (caller.attempt (w.now h)) := by
  cases caller with
  | adapter a taskId query response artifacts classification =>
    rw [Caller.run, log_bind w h (fun _ _ => rfl), MinimalAdapter.onTaskComplete, Caller.attempt]
    cases a.systemId.filter (· ≠ []) with
    | none => exact .inl ⟨rfl, rfl⟩
    | some systemId =>
      exact .inr (intended_log [] (adapterTask a systemId taskId query response artifacts
        classification (w.now h)) a.client systemId a.config.proofTtlSeconds (fun _ => rfl)
        fun commit => (⟨taskId, commit.commitId, commit.status⟩ : TaskResult))
  | context t c =>
    rw [Caller.run, log_bind w h (fun _ _ => rfl), ATPTaskContext.commit, Caller.attempt]
    dsimp only
    split
    · exact .inl ⟨rfl, rfl⟩
    · rw [run_bind, utcNow, run_perform, next_ok]
      cases (c.firstSystem.map Prod.snd).filter (· ≠ []) with
      | none => exact .inr rfl
      | some systemId =>
        exact .inr (intended_log (t.dependencies.map .object) (contextTask t c systemId (w.now h)) c
          systemId t.config.proofTtlSeconds (fun _ => rfl) fun _ => { t with committed := true })

theorem idle_log {caller : Caller} (idle : caller.attempt (w.now h) = none) :
    (caller.run.run w h).log = h ∨ (caller.run.run w h).log = h ++ [.clock] := by
  rcases caller_leaves (w := w) (h := h) caller with ⟨same, _⟩ | leaves
  · exact .inl same
  · rw [idle] at leaves
    exact .inr leaves

theorem attempt_log {caller : Caller} {b : Attempt}
    (attempted : caller.attempt (w.now h) = some b) :
    b.Logs w (h ++ [.clock]) (caller.run.run w h).log := by
  rcases caller_leaves (w := w) (h := h) caller with ⟨_, idle⟩ | leaves
  · simp [attempted] at idle
  · rw [attempted] at leaves
    exact leaves

theorem context_log (t : ATPTaskContext) (c : ATPClient) (w : World) (h : List Event) :
    ((Caller.context t c).run.run w h).log = ((t.commit c).run w h).log :=
  log_bind w h fun _ _ => rfl

def Accounts (w : World) (h log : List Event) : Option Attempt → Prop
  | none => ∀ e ∈ log.drop h.length, e = .clock
  | some b => b.Logs w h log

theorem caller_log (caller : Caller) :
    Accounts w (h ++ [.clock]) (caller.run.run w h).log (caller.attempt (w.now h)) := by
  cases attempted : caller.attempt (w.now h) with
  | none =>
    rcases idle_log attempted with same | clock
    · rw [Accounts, same, List.drop_eq_nil_of_le (by simp)]
      simp
    · rw [Accounts, clock, List.drop_length]
      simp
  | some b => exact attempt_log attempted

end Calls

section Machine

inductive Job where
  | saving (b : Attempt)
  | posting (b : Attempt)

def Job.attempt : Job → Attempt
  | .saving b => b
  | .posting b => b

structure State (σ : Type) where
  store : σ
  exchange : Dict (Text × Text) ProofSketch
  jobs : List Job
  /-- Task ids whose proof was deleted, or has expired, since it was last saved. -/
  released : List Text

inductive Move where
  | call (caller : Caller) (now : Wall)
  /-- The request of call number `i`; it may get lost. A lost reply changes nothing here. -/
  | resume (i : Nat) (arrives : Bool)
  | release (taskId : Text)

variable {σ : Type} (store : LocalStore σ)

def start : State σ := ⟨store.empty, Dict.empty, [], []⟩

def State.finish (s : State σ) (i : Nat) : State σ := { s with jobs := s.jobs.eraseIdx i }

/-- The Exchange rejects a second commit for a system and a task. -/
def State.perform (s : State σ) (i : Nat) : Job → State σ
  | .saving b =>
    match store.save s.store b.proof with
    | none => s.finish i
    | some saved =>
      { s with
        store := saved
        jobs := s.jobs.set i (.posting b)
        released := s.released.filter (· ≠ b.task.taskId) }
  | .posting b =>
    match s.exchange.get (b.systemId, b.task.taskId) with
    | some _ => s.finish i
    | none =>
      { s.finish i with exchange := s.exchange.set (b.systemId, b.task.taskId) b.sketch }

def step (s : State σ) : Move → State σ
  | .call caller now =>
    match caller.attempt now with
    | none => s
    | some b => { s with jobs := s.jobs ++ [.saving b] }
  | .resume i arrives =>
    match s.jobs[i]? with
    | none => s
    | some job => if arrives then s.perform store i job else s.finish i
  | .release taskId =>
    { s with store := store.delete s.store taskId, released := taskId :: s.released }

end Machine

section Agreement

variable {σ : Type} {store : LocalStore σ} {s : State σ}

def sketchHashes (sketch : ProofSketch) : Text × Text :=
  (sketch.cryptography.invocationHash, sketch.cryptography.outcomeHash)

/-- For each sketch that the Exchange holds the store holds a proof with its hashes,
unless the proof was deleted or has expired. -/
def Agrees (store : LocalStore σ) (s : State σ) : Prop :=
  ∀ key sketch, s.exchange.get key = some sketch →
    key.2 ∈ s.released ∨ store.held s.store key.2 = some (sketchHashes sketch)

/-- A save for a task whose sketch the Exchange holds is read back with the hashes of that
sketch, and a post that will be accepted finds its own hashes in the store. -/
def Job.Fits (store : LocalStore σ) (s : State σ) : Job → Prop
  | .saving b => (store.save s.store b.proof).isSome → ∀ key sketch,
      s.exchange.get key = some sketch → key.2 = b.task.taskId →
        store.readsBack b.proof = some (sketchHashes sketch)
  | .posting b => s.exchange.get (b.systemId, b.task.taskId) = none →
      b.task.taskId ∈ s.released ∨
        store.held s.store b.task.taskId = some (contentHashes b.proof)

def Fits (store : LocalStore σ) (s : State σ) : Move → Prop
  | .resume i true => ∀ job ∈ s.jobs[i]?, job.Fits store s
  | _ => True

theorem agrees_save (agrees : Agrees store s) {b : Attempt} {saved : σ}
    (success : store.save s.store b.proof = some saved) (i : Nat) :
    Agrees store { s with
        store := saved, jobs := s.jobs.set i (.posting b),
        released := s.released.filter (· ≠ b.task.taskId) } ↔
      ∀ key sketch, s.exchange.get key = some sketch → key.2 = b.task.taskId →
        store.readsBack b.proof = some (sketchHashes sketch) := by
  have held := store.held_save s.store b.proof saved success
  constructor
  · intro still key sketch present same
    rcases still key sketch present with released | matched
    · exact absurd same (of_decide_eq_true (List.mem_filter.mp released).2)
    · rw [held, same, if_pos (show b.proof.proofData.task.taskId = b.task.taskId from rfl)]
        at matched
      exact matched
  · intro same key sketch present
    by_cases own : key.2 = b.task.taskId
    · refine .inr ?_
      rw [held, own, if_pos (show b.proof.proofData.task.taskId = b.task.taskId from rfl),
        same key sketch present own]
    · refine (agrees key sketch present).imp (fun released => ?_) fun matched => ?_
      · exact List.mem_filter.mpr ⟨released, by simpa using own⟩
      · rw [held, if_neg (show ¬ b.proof.proofData.task.taskId = key.2 from Ne.symm own)]
        exact matched

theorem agrees_accept (agrees : Agrees store s) (b : Attempt) (i : Nat) :
    Agrees store { s.finish i with
        exchange := s.exchange.set (b.systemId, b.task.taskId) b.sketch } ↔
      b.task.taskId ∈ s.released ∨
        store.held s.store b.task.taskId = some (contentHashes b.proof) := by
  constructor
  · intro still
    exact still (b.systemId, b.task.taskId) b.sketch (Dict.get_set_self _ _ _)
  · intro own key sketch present
    by_cases same : (b.systemId, b.task.taskId) = key
    · rw [← same, Dict.get_set_self] at present
      rw [← same, ← Option.some.inj present]
      exact own
    · exact agrees key sketch ((Dict.get_set_other _ same _).symm.trans present)

theorem agrees_perform (agrees : Agrees store s) (i : Nat) (job : Job) :
    Agrees store (s.perform store i job) ↔ job.Fits store s := by
  cases job with
  | saving b =>
    rw [State.perform, Job.Fits]
    cases success : store.save s.store b.proof with
    | none => exact iff_of_true agrees (by simp)
    | some saved =>
      simp only [Option.isSome_some, forall_const]
      exact agrees_save agrees success i
  | posting b =>
    rw [State.perform, Job.Fits]
    cases s.exchange.get (b.systemId, b.task.taskId) with
    | some sketch => exact iff_of_true agrees (by simp)
    | none =>
      simp only [forall_const]
      exact agrees_accept agrees b i

theorem agrees_step (agrees : Agrees store s) (m : Move) :
    Agrees store (step store s m) ↔ Fits store s m := by
  cases m with
  | call caller now =>
    refine iff_of_true ?_ trivial
    rw [step]
    split
    · exact agrees
    · exact agrees
  | resume i arrives =>
    cases found : s.jobs[i]? with
    | none =>
      have idle : step store s (.resume i arrives) = s := by rw [step, found]
      rw [idle]
      refine iff_of_true agrees ?_
      cases arrives
      · trivial
      · simp [Fits, found]
    | some job =>
      cases arrives with
      | false =>
        have lost : step store s (.resume i false) = s.finish i := by
          rw [step, found]
          rfl
        rw [lost]
        exact iff_of_true agrees trivial
      | true =>
        have run : step store s (.resume i true) = s.perform store i job := by
          rw [step, found]
          rfl
        have fits : Fits store s (.resume i true) ↔ job.Fits store s := by simp [Fits, found]
        rw [run, fits]
        exact agrees_perform agrees i job
  | release taskId =>
    refine iff_of_true ?_ trivial
    intro key sketch present
    by_cases own : taskId = key.2
    · exact .inl (by rw [own]; exact List.mem_cons_self)
    · refine (agrees key sketch present).imp (fun released => List.mem_cons_of_mem _ released) ?_
      intro matched
      exact (store.held_delete s.store taskId key.2).trans (by rw [if_neg own]; exact matched)

/-- In every run of calls on either store: the two sides agree in every state exactly as
long as every request fits what the other side holds. -/
theorem agrees_iff_fits (store : LocalStore σ) (moves : List Move) :
    Throughout (step store) (Agrees store) (start store) moves ↔
      Along (step store) (Fits store) (start store) moves := by
  have exact_ : ∀ s m, True → Agrees store s → (Agrees store (step store s m) ↔ Fits store s m) :=
    fun _ m _ agrees => agrees_step agrees m
  have empty : Agrees store (start store) := by simp [Agrees, start]
  exact throughout_iff_along (fun _ _ _ => trivial) exact_ trivial empty moves

end Agreement

section Sample

def completes (response : String) : Caller :=
  .adapter sampleAdapter sampleTask.str (lit "2+2?") (lit response) none none

def completed (response : String) : Attempt where
  task := adapterTask sampleAdapter "s".toList sampleTask.str (lit "2+2?") (lit response) none none
    noon.wall sampleTaskDone.dependenciesHash
  client := sampleClient
  systemId := "s".toList
  expiresAt := onePm

theorem attempt_completes (response : String) :
    (completes response).attempt noon.wall = some (completed response) := by
  have known : sampleAdapter.systemId.filter (· ≠ []) = some "s".toList := by decide
  have hashed : (computeDependenciesHash (σ := Text) []).toOption =
      some sampleTaskDone.dependenciesHash := rfl
  have lasting : (expiry noon.wall sampleAdapter.config.proofTtlSeconds).toOption = some onePm := by
    have ttl : sampleAdapter.config.proofTtlSeconds = 3600 := rfl
    rw [ttl, expiry_noon]
    rfl
  rw [completes, Caller.attempt, known, Option.bind_some, intended, hashed, lasting]
  rfl

def recompletion : List Move :=
  [.call (completes "4") noon.wall, .resume 0 true, .resume 0 true,
   .call (completes "5") noon.wall, .resume 0 true, .resume 0 true]

theorem recompletion_run {σ : Type} (store : LocalStore σ)
    (saves : ∀ s response, ∃ s', store.save s (completed response).proof = some s')
    (reads : store.readsBack (completed "5").proof = some (contentHashes (completed "5").proof)) :
    ¬ Agrees store (recompletion.foldl (step store) (start store)) := by
  obtain ⟨first, saved⟩ := saves store.empty "4"
  obtain ⟨second, replaced⟩ := saves first "5"
  have key : ∀ response, ((completed response).systemId, (completed response).task.taskId) =
      ("s".toList, sampleTask.str) := fun _ => rfl
  have ended : recompletion.foldl (step store) (start store) = ⟨second,
      Dict.empty.set ("s".toList, sampleTask.str) (completed "4").sketch, [], []⟩ := by
    simp [recompletion, step, start, attempt_completes, State.perform, State.finish, saved,
      replaced, key]
  have outcomes : contentHash (outcomeOf (lit "4") none) ≠
      contentHash (outcomeOf (lit "5") none) := by
    decide +kernel
  have held := store.held_save first _ second replaced sampleTask.str
  rw [if_pos (show (completed "5").proof.proofData.task.taskId = sampleTask.str from rfl), reads]
    at held
  rw [ended]
  intro agrees
  rcases agrees _ _ (Dict.get_set_self _ _ _) with released | matched
  · simp at released
  · have same : contentHashes (completed "5").proof = sketchHashes (completed "4").sketch :=
      Option.some.inj (held.symm.trans matched)
    exact outcomes (Prod.mk.inj same).2.symm

theorem completed_row (response : String) : rowOf textLibrary (completed response).proof =
    some ⟨jsonText (completed response).proof.dump, isoformat onePm⟩ := by
  have invocation : scalarStrings (.obj (invocationOf (lit "2+2?"))) := by decide
  have answer : scalarStrings (record [("text", .str (lit response))]) :=
    scalarStrings_record (by simp)
  have outcome : scalarStrings (.obj (outcomeOf (lit response) none)) := by
    have fields : Json.obj (outcomeOf (lit response) none) = record
        [("response", record [("text", .str (lit response))]), ("status", .str (lit "success")),
         ("actions", .arr []), ("error", .null)] := rfl
    have actions : scalarStrings (.arr []) := rfl
    rw [fields]
    exact scalarStrings_record (by simp [answer, actions])
  exact rowOf_textLibrary (scalarStrings_storedProof invocation outcome)

theorem completed_readsBack (response : String) :
    (sqliteStore textLibrary).readsBack (completed response).proof =
      some (contentHashes (completed response).proof) := by
  have row_of := completed_row response
  have zones : (completed response).proof.MinuteZones := by
    refine ⟨fun d hd => absurd hd List.not_mem_nil, ?_⟩
    simp only [List.forall_mem_cons, List.not_mem_nil, false_implies, implies_true, and_true]
    exact ⟨minuteZone_utcAt _, minuteZone_utcAt _, minuteZone_utcAt _⟩
  have shallow : (completed response).proof.dump.depth ≤ textLibrary.nesting := by
    have depth : (completed response).proof.dump.depth = 5 := rfl
    have limit : textLibrary.nesting = 200 := rfl
    rw [depth, limit]
    decide
  have parsed := textLibrary_parseJson (rowOf_eq_some row_of).1 shallow
  have decoded : decodeRow textLibrary
      ⟨jsonText (completed response).proof.dump, isoformat onePm⟩ =
        .ok (completed response).proof := by
    rw [decodeRow, parsed, Option.bind_some, StoredProofOf.validate_dump
      (StoredProofOf.readable_of_minuteZones readsIso_textLibrary.reads zones)]
  change (rowOf textLibrary (completed response).proof).bind (rowHashes textLibrary) = _
  rw [row_of, Option.bind_some, rowHashes, decoded]
  rfl

/-- On either store the second completion replaces the proof of the committed sketch, and
its own commit is rejected. -/
theorem recompletion_disagrees :
    ¬ Agrees inMemoryStore (recompletion.foldl (step inMemoryStore) (start inMemoryStore)) ∧
      ¬ Agrees (sqliteStore textLibrary) (recompletion.foldl
        (step (sqliteStore textLibrary)) (start (sqliteStore textLibrary))) := by
  refine ⟨recompletion_run _ (fun _ _ => ⟨_, rfl⟩) rfl,
    recompletion_run _ (fun table response => ?_) (completed_readsBack "5")⟩
  exact ⟨_, congrArg Except.toOption (SQLiteProofStore.save_rowOf (completed_row response))⟩

end Sample

end AgentTrust.StoreAgreement
