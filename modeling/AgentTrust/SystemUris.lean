import AgentTrust.Registration
import AgentTrust.StoreAgreement

/-! The system that a stored proof names and the one that its sketch names. What is posted
is the URI that the Exchange last answered for the committing id. What is stored is built
from the configuration by a task context, and is what the last registration call returned
for an adapter: from the configuration too where the call was served from the cache. -/

namespace AgentTrust.SystemUris

open JsonTree PyText PyJson Gregorian PyDateTime OrderedDict PyValue Models Hashing Effects
  Exchange Client Tasks Publication HonestAgent Registration Runs
open StoreAgreement (Caller Attempt intended)
open Effects.Run hiding pure bind

section Uris

def sketchUri (payload : JsonValue) : Option JsonValue :=
  ((field "proof" payload).bind (field "atp_metadata")).bind (field "system_uri")

def storedUris (log : List Event) : List JsonValue := log.filterMap fun e =>
  match e with
  | .save p => some (text p.proofData.task.systemUri)
  | _ => none

def postedUris (log : List Event) : List JsonValue := log.filterMap fun e =>
  match e with
  | .send r => r.json.bind sketchUri
  | _ => none

def lastUri (s : State) (id : Text) : Option Text :=
  (s.answered.find? fun x => x.2.systemId = id).map fun x => x.2.systemUri

/-- The URI that an adapter stores: what its last registration call returned, unless that
is empty. -/
def storedUri (config : ATPConfig) (l : Learned) : Text :=
  if l.uri config = [] then fallbackUri config l.systemId else l.uri config

def Belongs (s : State) : Caller → Prop
  | .adapter a _ _ _ _ _ => a = s.adapter
  | .context t c => c = s.client ∧ t.committed = false ∧ t.response.getD [] ≠ []

/-- The URI that the Exchange last answered for the committing id is the one that the
caller stores. -/
def Meets (s : State) : Caller → Prop
  | .adapter _ _ _ _ _ _ => ∃ l ∈ s.learned,
      lastUri s l.systemId = some (storedUri s.adapter.config l)
  | .context t _ => ∃ p ∈ s.client.firstSystem, lastUri s p.2 = some (fallbackUri t.config p.2)

variable {lax : Lax} {s : State}

structure Inv (config : ATPConfig) (s : State) : Prop where
  adapterConfig : s.adapter.config = config
  clientConfig : s.client.config = config
  uris : ∀ id, s.client.systemUris.get id = lastUri s id
  systemId : s.adapter.systemId = s.learned.map Learned.systemId
  systemUri : s.adapter.systemUri = s.learned.map fun l => l.uri config
  cached : Cached s
  known : ∀ l ∈ s.learned, ∃ x ∈ s.answered, x.2.systemId = l.systemId

theorem inv_start (config : ATPConfig) : Inv config (start config) where
  adapterConfig := rfl
  clientConfig := rfl
  uris := fun _ => rfl
  systemId := rfl
  systemUri := rfl
  cached := by simp [Cached, start]
  known := by simp [start]

theorem inv_step {config : ATPConfig} (inv : Inv config s) (m : Move) :
    Inv config (step lax s m) := by
  have cached : Cached (step lax s m) := cached_step inv.cached m
  rcases step_cases lax s m with ⟨jobs, stepped⟩ |
    ⟨a, systemId, now, registered, stepped⟩ |
    ⟨i, reply, job, registration, jobs, _, _, _, stepped⟩
  · rw [stepped]
    exact ⟨inv.adapterConfig, inv.clientConfig, inv.uris, inv.systemId, inv.systemUri, inv.cached,
      inv.known⟩
  · rw [stepped] at cached ⊢
    refine ⟨inv.adapterConfig, inv.clientConfig, inv.uris, rfl, ?_, cached, ?_⟩
    · simp [adopt, cachedRegistration, Learned.uri, inv.clientConfig]
    · intro l learned
      obtain rfl := Option.mem_some_iff.mp learned
      obtain ⟨x, member, same, _⟩ := inv.cached a.name systemId registered
      exact ⟨x, member, same⟩
  · rw [stepped] at cached ⊢
    have uris : ∀ id, (recorded s.client job.application registration).systemUris.get id =
        (((job.application, registration) :: s.answered).find? fun x =>
          x.2.systemId = id).map fun x => x.2.systemUri := by
      intro id
      by_cases own : registration.systemId = id
      · simp [recorded, own]
      · have older := inv.uris id
        rw [lastUri] at older
        simp [recorded, Dict.get_set_other _ own, own, older]
    obtain ⟨a, viaAdapter⟩ := job
    cases viaAdapter with
    | true =>
      refine ⟨inv.adapterConfig, inv.clientConfig, uris, rfl, rfl, cached, ?_⟩
      intro l learned
      obtain rfl := Option.mem_some_iff.mp learned
      exact ⟨_, List.mem_cons_self, rfl⟩
    | false =>
      refine ⟨inv.adapterConfig, inv.clientConfig, uris, inv.systemId, inv.systemUri, cached, ?_⟩
      intro l learned
      obtain ⟨x, member, same⟩ := inv.known l learned
      exact ⟨x, List.mem_cons_of_mem _ member, same⟩

theorem inv_run {config : ATPConfig} (moves : List Move) :
    Inv config (moves.foldl (step lax) (start config)) :=
  List.foldlRecOn moves (step lax) (inv_start config) fun _ inv m _ => inv_step inv m

theorem lastUri_of_mem {x : Application × SystemRegistration} (member : x ∈ s.answered) :
    ∃ u, lastUri s x.2.systemId = some u := by
  cases found : s.answered.find? fun y => y.2.systemId = x.2.systemId with
  | some y => exact ⟨y.2.systemUri, by rw [lastUri, found]; rfl⟩
  | none =>
    have other := List.find?_eq_none.mp found x member
    simp at other

end Uris

section Commits

variable {lax : Lax} {s : State} {w : World} {log : List Event}

theorem uris_events {t : Completed} {c : ATPClient} {systemId : Text} {expiresAt : DateTime}
    {proofHash : Text} :
    storedUris (.clock :: events t c systemId expiresAt proofHash) =
        postedUris (.clock :: events t c systemId expiresAt proofHash) ↔
      c.systemUri systemId = t.systemUri := by
  have stored : storedUris (.clock :: events t c systemId expiresAt proofHash) =
      [text t.systemUri] := rfl
  have posted : postedUris (.clock :: events t c systemId expiresAt proofHash) =
      [text (c.systemUri systemId)] := by
    have sent : sketchUri (commitPayload systemId t.taskId (c.completed systemId t.sketch)
        proofHash) = some (text (c.systemUri systemId)) := by
      simp [sketchUri, commitPayload, ProofSketchOf.dump, ATPMetadataOf.dump, ATPClient.completed]
    simp [postedUris, events, postRequest, sent]
  rw [stored, posted]
  simp [text, raw_injective.eq_iff, eq_comm]

theorem systemUri_of_inv {config : ATPConfig} (inv : Inv config s) {id u : Text}
    (last : lastUri s id = some u) : s.client.systemUri id = u := by
  rw [ATPClient.systemUri, inv.uris, last, Option.getD_some]

theorem uris_commit {config : ATPConfig} (inv : Inv config s) {t : Completed} {systemId : Text}
    {expiresAt : DateTime} {proofHash : Text}
    (known : ∃ x ∈ s.answered, x.2.systemId = systemId) :
    storedUris (.clock :: events t s.client systemId expiresAt proofHash) =
        postedUris (.clock :: events t s.client systemId expiresAt proofHash) ↔
      lastUri s systemId = some t.systemUri := by
  obtain ⟨x, member, rfl⟩ := known
  obtain ⟨u, last⟩ := lastUri_of_mem member
  rw [uris_events, systemUri_of_inv inv last, last, Option.some.injEq]

theorem adapter_uri {config : ATPConfig} (inv : Inv config s) {l : Learned}
    (learned : s.learned = some l) :
    (s.adapter.systemUri.filter (· ≠ [])).getD (fallbackUri s.adapter.config l.systemId) =
      storedUri s.adapter.config l := by
  rw [inv.systemUri, learned, Option.map_some, storedUri, inv.adapterConfig]
  by_cases empty : l.uri config = []
  · rw [if_pos empty, empty]
    rfl
  · rw [if_neg empty, Option.filter_some, if_pos (by simpa using empty), Option.getD_some]

theorem uris_agree_of_inv {config : ATPConfig} (inv : Inv config s) {caller : Caller}
    (belongs : Belongs s caller) (run : caller.run.run w [] = ⟨.ok (), log⟩) :
    storedUris log = postedUris log ↔ Meets s caller := by
  cases caller with
  | adapter a taskId query response artifacts classification =>
    obtain rfl : a = s.adapter := belongs
    obtain ⟨result, l, completed, ended⟩ := (run_bind_eq_ok w []).mp run
    obtain rfl : l = log := congrArg Outcome.log ended
    obtain ⟨systemId, now, hash, expiresAt, proofHash, present, _, logged⟩ :=
      onTaskComplete_ok completed
    obtain ⟨known, _⟩ := Option.filter_eq_some_iff.mp present
    rw [inv.systemId] at known
    obtain ⟨learned, source, rfl⟩ := Option.map_eq_some_iff.mp known
    have stored : (adapterTask s.adapter learned.systemId taskId query response artifacts
        classification now hash).systemUri = storedUri s.adapter.config learned :=
      adapter_uri inv source
    rw [logged, List.nil_append, uris_commit inv (inv.known learned source), stored]
    constructor
    · intro last
      exact ⟨learned, source, last⟩
    · rintro ⟨other, source', last⟩
      obtain rfl := Option.some.inj (source.symm.trans source')
      exact last
  | context t c =>
    obtain ⟨rfl, uncommitted, response⟩ := belongs
    obtain ⟨result, l, completed, ended⟩ := (run_bind_eq_ok w []).mp run
    obtain rfl : l = log := congrArg Outcome.log ended
    obtain ⟨systemId, now, hash, expiresAt, proofHash, present, _, logged⟩ :=
      commit_ok uncommitted response completed
    obtain ⟨known, _⟩ := Option.filter_eq_some_iff.mp present
    obtain ⟨⟨name, id⟩, first, rfl⟩ := Option.map_eq_some_iff.mp known
    have registered : s.client.registeredSystems.get name = some id :=
      Dict.mem_entries.mp (List.mem_of_mem_head? first)
    obtain ⟨x, member, same, _⟩ := inv.cached name id registered
    have stored : (contextTask t s.client id now hash).systemUri = fallbackUri t.config id := rfl
    rw [logged, List.nil_append, uris_commit inv ⟨x, member, same⟩, stored]
    constructor
    · intro last
      exact ⟨(name, id), first, last⟩
    · rintro ⟨other, first', last⟩
      obtain rfl := Option.some.inj (first.symm.trans first')
      exact last

/-- After every history of registrations, a commit that succeeds stores and posts one system
URI exactly when the Exchange last answered the one that the caller stores. -/
theorem uris_agree_iff {config : ATPConfig} {moves : List Move} {caller : Caller}
    (belongs : Belongs (moves.foldl (step lax) (start config)) caller)
    (run : caller.run.run w [] = ⟨.ok (), log⟩) :
    storedUris log = postedUris log ↔
      Meets (moves.foldl (step lax) (start config)) caller :=
  uris_agree_of_inv (inv_run moves) belongs run

end Commits

section Sample

theorem intended_succeeds {β : Type} (dependencies : List (Form Dependency))
    (task : Text → Completed) (c : ATPClient) (systemId : Text) (ttl : Int) {b : Attempt}
    (clock : ∀ hash, (task hash).now = noon.wall) (answer : CommitResponse → β)
    (made : intended dependencies task c systemId ttl noon.wall = some b) (h : List Event) :
    ∃ x log, (do
      let hash ← .lift (computeDependenciesHash dependencies)
      let commit ← (task hash).publish c systemId ttl
      pure (answer commit) : Run β).run acceptingWorld h = ⟨.ok x, log⟩ := by
  obtain ⟨response, accepted⟩ := acceptance_accepted
  unfold intended at made
  obtain ⟨hash, hashed, made⟩ := Option.bind_eq_some_iff.mp made
  obtain ⟨expiresAt, lasting, _⟩ := Option.bind_eq_some_iff.mp made
  have computed : computeDependenciesHash dependencies = .ok hash := toOption_eq_some.mp hashed
  have deadline : expiry (task hash).now ttl = .ok expiresAt := by
    rw [clock]
    exact toOption_eq_some.mp lasting
  obtain ⟨proofHash, published⟩ := publish_succeeds (w := acceptingWorld) (h := h) (task hash) c
    systemId deadline rfl (fun _ _ => rfl) accepted
  have computes : (Effects.Run.lift (computeDependenciesHash dependencies) : Run Text).run
      acceptingWorld h = ⟨.ok hash, h⟩ := by
    rw [run_lift, computed]
  exact ⟨answer response, _, (run_bind_eq_ok _ _).mpr ⟨hash, h, computes,
    (run_bind_eq_ok _ _).mpr ⟨response, _, published, rfl⟩⟩⟩

theorem caller_succeeds {caller : Caller} {b : Attempt}
    (made : caller.attempt noon.wall = some b) :
    ∃ log, caller.run.run acceptingWorld [] = ⟨.ok (), log⟩ := by
  have clock : (utcNow : Run Wall).run acceptingWorld [] = ⟨.ok noon.wall, [.clock]⟩ := rfl
  cases caller with
  | adapter a taskId query response artifacts classification =>
    obtain ⟨systemId, known, made⟩ := Option.bind_eq_some_iff.mp made
    obtain ⟨x, log, run⟩ := intended_succeeds [] (adapterTask a systemId taskId query
      response artifacts classification noon.wall) a.client systemId
      a.config.proofTtlSeconds (fun _ => rfl)
      (fun commit => (⟨taskId, commit.commitId, commit.status⟩ : TaskResult)) made [.clock]
    refine ⟨log, (run_bind_eq_ok _ _).mpr ⟨x, log, ?_, rfl⟩⟩
    rw [MinimalAdapter.onTaskComplete, known]
    exact (run_bind_eq_ok _ _).mpr ⟨noon.wall, [.clock], clock, run⟩
  | context t c =>
    unfold Caller.attempt at made
    dsimp only at made
    split at made
    · simp at made
    · next pending =>
      obtain ⟨systemId, known, made⟩ := Option.bind_eq_some_iff.mp made
      obtain ⟨x, log, run⟩ := intended_succeeds (t.dependencies.map .object)
        (contextTask t c systemId noon.wall) c systemId t.config.proofTtlSeconds (fun _ => rfl)
        (fun _ => { t with committed := true }) made [.clock]
      refine ⟨log, (run_bind_eq_ok _ _).mpr ⟨x, log, ?_, rfl⟩⟩
      unfold ATPTaskContext.commit
      dsimp only
      rw [if_neg pending]
      refine (run_bind_eq_ok _ _).mpr ⟨noon.wall, [.clock], clock, ?_⟩
      rw [known]
      exact run

def servedUri : Text := "https://exchange/systems/s".toList

def once : List Move :=
  [.register sampleApplication noon.wall true, .answer 0 (.ok (registrationReply servedUri))]

def twice : List Move := once ++ [.register sampleApplication noon.wall true]

def after (moves : List Move) : State :=
  moves.foldl (step strictLax) (start sampleClient.config)

def sampleContext : ATPTaskContext where
  config := sampleClient.config
  query := lit "2+2?"
  atpTaskId := sampleTask.str
  response := some (lit "4")
  committed := false
  classification := defaultClassification
  dependencies := []

def adapterCaller (s : State) : Caller :=
  .adapter s.adapter sampleTask.str (lit "2+2?") (lit "4") none none

def contextCaller (s : State) : Caller := .context sampleContext s.client

theorem after_once : after once = (start sampleClient.config).succeed
    ⟨adapterApplication sampleApplication, true⟩ (sampleRegistration servedUri) := by
  simp [after, once, step, State.begin, start, Dict.empty, Dict.get, decode_registrationReply]

theorem after_twice : after twice = { after once with
    adapter := adopt (after once).adapter (cachedRegistration (after once).client
      (adapterApplication sampleApplication) "s".toList noon.wall) (after once).client
    learned := some (.cached "s".toList) } := by
  have run : after twice =
      step strictLax (after once) (.register sampleApplication noon.wall true) :=
    List.foldl_concat ..
  rw [run, after_once]
  rfl

theorem intended_noon (task : Text → Completed) (c : ATPClient) (systemId : Text) {ttl : Int}
    (hour : ttl = 3600) : ∃ b, intended [] task c systemId ttl noon.wall = some b := by
  have hashed : (computeDependenciesHash (σ := Text) []).toOption =
      some sampleTaskDone.dependenciesHash := rfl
  rw [intended, hashed, hour, expiry_noon]
  exact ⟨_, rfl⟩

theorem adapter_commits {moves : List Move}
    (system : (after moves).adapter.systemId = some "s".toList) :
    ∃ log, (adapterCaller (after moves)).run.run acceptingWorld [] = ⟨.ok (), log⟩ := by
  have inv : Inv sampleClient.config (after moves) := inv_run moves
  have hour : (after moves).adapter.config.proofTtlSeconds = 3600 :=
    congrArg ATPConfig.proofTtlSeconds inv.adapterConfig
  obtain ⟨b, made⟩ := intended_noon (adapterTask (after moves).adapter "s".toList sampleTask.str
    (lit "2+2?") (lit "4") none none noon.wall) (after moves).client "s".toList hour
  refine caller_succeeds (b := b) ?_
  rw [adapterCaller, Caller.attempt, system]
  exact made

theorem context_commits {moves : List Move}
    (system : (after moves).client.firstSystem.map Prod.snd = some "s".toList) :
    ∃ log, (contextCaller (after moves)).run.run acceptingWorld [] = ⟨.ok (), log⟩ := by
  obtain ⟨b, made⟩ := intended_noon (contextTask sampleContext (after moves).client "s".toList
    noon.wall) (after moves).client "s".toList rfl
  have known : ((after moves).client.firstSystem.map Prod.snd).filter (· ≠ []) =
      some "s".toList := by
    rw [system]
    decide
  refine caller_succeeds (b := b) ?_
  rw [contextCaller, Caller.attempt, if_neg (by decide), known, Option.bind_some]
  exact made

theorem served_uri_agrees : ∃ log, (adapterCaller (after once)).run.run acceptingWorld
    [] = ⟨.ok (), log⟩ ∧ storedUris log = postedUris log := by
  have system : (after once).adapter.systemId = some "s".toList := by
    rw [after_once]
    rfl
  obtain ⟨log, run⟩ := adapter_commits system
  have belongs : Belongs (after once) (adapterCaller (after once)) := rfl
  refine ⟨log, run, (uris_agree_iff belongs run).mpr ?_⟩
  change Meets (after once) _
  rw [after_once]
  exact ⟨.answered (sampleRegistration servedUri), rfl, rfl⟩

/-- Behind a proxy the task context stores another URI than the one that is posted, and so
does an adapter that registers again. -/
theorem proxied_differs :
    (∃ log, (contextCaller (after once)).run.run acceptingWorld [] = ⟨.ok (), log⟩ ∧
      storedUris log ≠ postedUris log) ∧
    ∃ log, (adapterCaller (after twice)).run.run acceptingWorld [] = ⟨.ok (), log⟩ ∧
      storedUris log ≠ postedUris log := by
  constructor
  · have system : (after once).client.firstSystem.map Prod.snd = some "s".toList := by
      rw [after_once]
      rfl
    obtain ⟨log, run⟩ := context_commits system
    have belongs : Belongs (after once) (contextCaller (after once)) := ⟨rfl, rfl, by decide⟩
    refine ⟨log, run, fun same => ?_⟩
    have meets := (uris_agree_of_inv (inv_run once) belongs run).mp same
    rw [after_once] at meets
    obtain ⟨p, first, last⟩ := meets
    obtain rfl : ("me".toList, "s".toList) = p := Option.some.inj first
    have other : servedUri ≠ fallbackUri sampleContext.config "s".toList := by decide
    exact other (Option.some.inj last)
  · have system : (after twice).adapter.systemId = some "s".toList := by
      rw [after_twice]
      rfl
    obtain ⟨log, run⟩ := adapter_commits system
    have belongs : Belongs (after twice) (adapterCaller (after twice)) := rfl
    refine ⟨log, run, fun same => ?_⟩
    have meets := (uris_agree_of_inv (inv_run twice) belongs run).mp same
    rw [after_twice, after_once] at meets
    obtain ⟨l, learned, last⟩ := meets
    obtain rfl : .cached "s".toList = l := Option.some.inj learned
    have other : servedUri ≠ storedUri sampleClient.config (.cached "s".toList) := by decide
    exact other (Option.some.inj last)

end Sample

end AgentTrust.SystemUris
