import AgentTrust.HonestAgent
import AgentTrust.Runs

/-! Registration of systems. A registered name is answered from the cache; otherwise the
Exchange is asked, and a call that succeeds writes three caches after its await with no
other await between. Calls interleave, and what they leave does not depend on how. -/

namespace AgentTrust.Registration

open JsonTree JsonTree.Json PyText PyJson Gregorian PyDateTime OrderedDict PyValue Models Effects
  Exchange Client Tasks Disclosure Publication HonestAgent Runs
open Effects.Run hiding pure bind

section Source

/-- How the validation library reads `int` and `bool` fields. -/
structure Lax where
  int : JsonValue → Option Int
  bool : JsonValue → Option Bool

structure SystemRegistration where
  systemUri : Text
  systemId : Text
  registeredAt : DateTime
  status : Text
  capabilitiesRegistered : Int
  url : Option Text
  urlVerified : Bool
  proofTtlSeconds : Option Int

structure Application where
  name : Text
  systemType : Text
  capabilities : List JsonValue
  extensions : Content
  url : Option Text
  proofTtlSeconds : Option Int

/-- Absent and empty capabilities and extensions are treated alike. -/
def registerPayload (a : Application) : JsonValue :=
  record ([("name", text a.name), ("type", text a.systemType)] ++
    (if a.capabilities = [] then [] else [("capabilities", .arr a.capabilities)]) ++
    (if a.extensions = [] then [] else [("extensions", .obj a.extensions)]) ++
    a.url.toList.map (fun u => ("url", text u)) ++
    a.proofTtlSeconds.toList.map fun t => ("proof_ttl_seconds", .int t))

def SystemRegistration.ofData (lax : Lax) (data : JsonValue) : Except Exc SystemRegistration := do
  let systemUri ← getItem "system_uri" data
  let systemId ← getItem "system_id" data
  let registeredAt ← getItem "registered_at" data
  let registeredAt ← isoField registeredAt
  let status ← getItem "status" data
  let capabilitiesRegistered ← getItem "capabilities_registered" data
  let url ← getOr "url" .null data
  let urlVerified ← getOr "url_verified" (.bool false) data
  let proofTtlSeconds ← getOr "proof_ttl_seconds" .null data
  return {
    registeredAt
    systemUri := ← valid (asText systemUri)
    systemId := ← valid (asText systemId)
    status := ← valid (asText status)
    capabilitiesRegistered := ← valid (lax.int capabilitiesRegistered)
    url := ← valid (nullable asText url)
    urlVerified := ← valid (lax.bool urlVerified)
    proofTtlSeconds := ← valid (nullable lax.int proofTtlSeconds) }

def decodeRegistration (lax : Lax) (r : Response) : Except Exc SystemRegistration := do
  let data ← acceptedBody r .registrationError "Registration failed with status "
  SystemRegistration.ofData lax data

/-- The answer for a name registered before, at the local time `now`. -/
def cachedRegistration (c : ATPClient) (a : Application) (systemId : Text) (now : Wall) :
    SystemRegistration where
  systemUri := c.config.exchangeUrl ++ "/systems/".toList ++ systemId
  systemId := systemId
  registeredAt := ⟨now, none⟩
  status := "active".toList
  capabilitiesRegistered := a.capabilities.length
  url := a.url
  urlVerified := false
  proofTtlSeconds := none

def recorded (c : ATPClient) (a : Application) (registration : SystemRegistration) : ATPClient :=
  { c with
    registeredSystems := c.registeredSystems.set a.name registration.systemId
    systemUris := c.systemUris.set registration.systemId registration.systemUri
    systemTypes := c.systemTypes.set registration.systemId a.systemType }

/-- `register_system`, with the client after it. -/
def registerSystem (lax : Lax) (c : ATPClient) (a : Application) (now : Wall) :
    Run (SystemRegistration × ATPClient) :=
  match c.registeredSystems.get a.name with
  | some systemId => pure (cachedRegistration c a systemId now, c)
  | none => translated "Network error during registration: " .registrationError do
      let r ← send (postRequest "/api/v1/register" (registerPayload a))
      let registration ← .lift (decodeRegistration lax r)
      pure (registration, recorded c a registration)

/-- `MinimalAdapter.register`'s own part: the default capabilities and no extensions, and the
system that the adapter commits for. -/
def adapterApplication (a : Application) : Application :=
  { a with
    capabilities := if a.capabilities = [] then [defaultClassification.dump] else a.capabilities
    extensions := [] }

def adopt (adapter : MinimalAdapter) (registration : SystemRegistration) (c : ATPClient) :
    MinimalAdapter :=
  { adapter with
    client := c
    systemId := some registration.systemId
    systemUri := some registration.systemUri }

def register (lax : Lax) (adapter : MinimalAdapter) (a : Application) (now : Wall) :
    Run (SystemRegistration × MinimalAdapter) := do
  let (registration, c) ← registerSystem lax adapter.client (adapterApplication a) now
  pure (registration, adopt adapter registration c)

end Source

section Machine

structure Job where
  application : Application
  viaAdapter : Bool

/-- Where an adapter's system URI comes from. -/
inductive Learned where
  | answered (registration : SystemRegistration)
  | cached (systemId : Text)

def Learned.systemId : Learned → Text
  | .answered registration => registration.systemId
  | .cached id => id

def Learned.uri (config : ATPConfig) : Learned → Text
  | .answered registration => registration.systemUri
  | .cached id => config.exchangeUrl ++ "/systems/".toList ++ id

/-- An adapter with its client, which may be called directly too. -/
structure State where
  adapter : MinimalAdapter
  jobs : List Job
  /-- The registrations that have succeeded, the newest first. -/
  answered : List (Application × SystemRegistration)
  learned : Option Learned

inductive Move where
  | register (a : Application) (now : Wall) (viaAdapter : Bool)
  | answer (i : Nat) (reply : Except Exc Response)

def start (config : ATPConfig) : State :=
  ⟨⟨config, ⟨config, Dict.empty, Dict.empty, Dict.empty⟩, none, none⟩, [], [], none⟩

abbrev State.client (s : State) : ATPClient := s.adapter.client

/-- The part of a call up to its await. -/
def State.begin (s : State) (a : Application) (now : Wall) (viaAdapter : Bool) : State :=
  match s.client.registeredSystems.get a.name with
  | none => { s with jobs := s.jobs ++ [⟨a, viaAdapter⟩] }
  | some systemId =>
    if viaAdapter then
      { s with
        adapter := adopt s.adapter (cachedRegistration s.client a systemId now) s.client
        learned := some (.cached systemId) }
    else s

def State.succeed (s : State) (job : Job) (registration : SystemRegistration) : State :=
  { s with
    adapter :=
      if job.viaAdapter then
        adopt s.adapter registration (recorded s.client job.application registration)
      else { s.adapter with client := recorded s.client job.application registration }
    answered := (job.application, registration) :: s.answered
    learned := if job.viaAdapter then some (.answered registration) else s.learned }

def step (lax : Lax) (s : State) : Move → State
  | .register a now viaAdapter =>
    s.begin (if viaAdapter then adapterApplication a else a) now viaAdapter
  | .answer i reply =>
    match s.jobs[i]? with
    | none => s
    | some job =>
      match reply >>= decodeRegistration lax with
      | .error _ => { s with jobs := s.jobs.eraseIdx i }
      | .ok registration =>
        { s with jobs := s.jobs.eraseIdx i }.succeed job registration

variable {lax : Lax} {s : State} {w : World} {h : List Event}

def World.answers (w : World) (h : List Event) (a : Application) : Except Exc Response :=
  w.reply h (postRequest "/api/v1/register" (registerPayload a))

theorem registerSystem_run (lax : Lax) (c : ATPClient) (a : Application) (now : Wall)
    (fresh : c.registeredSystems.get a.name = none) :
    ((registerSystem lax c a now).run w h).result.toOption =
      (World.answers w h a >>= decodeRegistration lax).toOption.map fun registration =>
        (registration, recorded c a registration) := by
  rw [registerSystem, fresh]
  rw [translated_result, run_bind, send, run_perform, World.answers]
  cases w.reply h (postRequest "/api/v1/register" (registerPayload a)) with
  | error e => rfl
  | ok r =>
    rw [next_ok, run_bind, run_lift, bind_ok]
    cases decodeRegistration lax r <;> rfl

theorem answer_last (s : State) (job : Job) (reply : Except Exc Response) :
    step lax { s with jobs := s.jobs ++ [job] } (.answer s.jobs.length reply) =
      match reply >>= decodeRegistration lax with
      | .error _ => s
      | .ok registration => s.succeed job registration := by
  have found : (s.jobs ++ [job])[s.jobs.length]? = some job := by simp
  have left : (s.jobs ++ [job]).eraseIdx s.jobs.length = s.jobs := by
    simp [List.eraseIdx_append_of_length_le]
  rw [step, found]
  dsimp only
  rw [left]

theorem answer_idle {s : State} {i : Nat} (past : s.jobs.length = i)
    (reply : Except Exc Response) : step lax s (.answer i reply) = s := by
  simp [step, ← past]

theorem registerSystem_alone (s : State) (a : Application) (now : Wall) :
    ([.register a now false, .answer s.jobs.length (World.answers w h a)].foldl (step lax)
        s).client =
      (((registerSystem lax s.client a now).run w h).result.toOption.map Prod.snd).getD
        s.client := by
  rw [List.foldl_cons, List.foldl_cons, List.foldl_nil, step, State.begin]
  simp only [Bool.false_eq_true, if_false]
  cases known : s.client.registeredSystems.get a.name with
  | some systemId =>
    dsimp only
    rw [answer_idle rfl, registerSystem, known]
    rfl
  | none =>
    dsimp only
    rw [answer_last, registerSystem_run lax s.client a now known]
    cases World.answers w h a >>= decodeRegistration lax <;> rfl

theorem register_alone (s : State) (a : Application) (now : Wall) :
    ([.register a now true, .answer s.jobs.length (World.answers w h (adapterApplication a))].foldl
        (step lax) s).adapter =
      (((register lax s.adapter a now).run w h).result.toOption.map Prod.snd).getD
        s.adapter := by
  rw [List.foldl_cons, List.foldl_cons, List.foldl_nil, step, State.begin]
  simp only [if_true]
  have composed : ((register lax s.adapter a now).run w h).result.toOption =
      ((registerSystem lax s.client (adapterApplication a) now).run w h).result.toOption.map
        fun x => (x.1, adopt s.adapter x.1 x.2) := by
    rw [register, run_bind]
    cases (registerSystem lax s.client (adapterApplication a) now).run w h with
    | mk result log => cases result <;> rfl
  rw [composed]
  cases known : s.client.registeredSystems.get (adapterApplication a).name with
  | some systemId =>
    dsimp only
    rw [answer_idle rfl, registerSystem, known]
    rfl
  | none =>
    dsimp only
    rw [answer_last, registerSystem_run lax s.client (adapterApplication a) now known]
    cases World.answers w h (adapterApplication a) >>= decodeRegistration lax <;> rfl

@[simp] theorem client_succeed (s : State) (job : Job) (registration : SystemRegistration) :
    (s.succeed job registration).client = recorded s.client job.application registration := by
  cases job with
  | mk a viaAdapter => cases viaAdapter <;> rfl

/-- A step starts or ends a call without effect, serves the adapter from the cache, or is
the answer that registers a system. -/
theorem step_cases (lax : Lax) (s : State) (m : Move) :
    (∃ jobs, step lax s m = { s with jobs }) ∨
    (∃ a systemId now, s.client.registeredSystems.get a.name = some systemId ∧
      step lax s m = { s with
        adapter := adopt s.adapter (cachedRegistration s.client a systemId now) s.client
        learned := some (.cached systemId) }) ∨
    ∃ i reply job registration jobs, m = .answer i reply ∧ s.jobs[i]? = some job ∧
      reply >>= decodeRegistration lax = .ok registration ∧
      step lax s m = { s with jobs }.succeed job registration := by
  cases m with
  | register a now viaAdapter =>
    rw [step, State.begin]
    cases known : s.client.registeredSystems.get
        (if viaAdapter then adapterApplication a else a).name with
    | none => exact .inl ⟨_, rfl⟩
    | some systemId =>
      cases viaAdapter with
      | false => exact .inl ⟨s.jobs, rfl⟩
      | true => exact .inr (.inl ⟨adapterApplication a, systemId, now, known, rfl⟩)
  | answer i reply =>
    rw [step]
    cases found : s.jobs[i]? with
    | none => exact .inl ⟨s.jobs, rfl⟩
    | some job =>
      dsimp only
      cases decoded : reply >>= decodeRegistration lax with
      | error e => exact .inl ⟨_, rfl⟩
      | ok registration =>
        exact .inr (.inr ⟨i, reply, job, registration, _, rfl, found, decoded, rfl⟩)

end Machine

section Caches

variable {lax : Lax} {s : State}

/-- Every registered id has a URI and a type, both of one registration that succeeded. -/
def Cached (s : State) : Prop :=
  ∀ name id, s.client.registeredSystems.get name = some id →
    ∃ x ∈ s.answered, x.2.systemId = id ∧ s.client.systemUris.get id = some x.2.systemUri ∧
      s.client.systemTypes.get id = some x.1.systemType

theorem cached_step (cached : Cached s) (m : Move) : Cached (step lax s m) := by
  rcases step_cases lax s m with ⟨jobs, stepped⟩ |
    ⟨a, systemId, now, _, stepped⟩ | ⟨i, reply, job, registration, jobs, _, _, _, stepped⟩
  · rw [stepped]
    exact cached
  · rw [stepped]
    exact cached
  · rw [stepped]
    unfold Cached
    rw [client_succeed]
    intro name id registered
    by_cases own : registration.systemId = id
    · refine ⟨(job.application, registration), List.mem_cons_self, own, ?_, ?_⟩
      · exact own ▸ Dict.get_set_self _ _ _
      · exact own ▸ Dict.get_set_self _ _ _
    · have known : s.client.registeredSystems.get name = some id := by
        by_cases same : job.application.name = name
        · have latest : some registration.systemId = some id :=
            (Dict.get_set_self _ _ _).symm.trans (same ▸ registered)
          exact absurd (Option.some.inj latest) own
        · exact (Dict.get_set_other _ same _).symm.trans registered
      obtain ⟨x, member, same, uri, type⟩ := cached name id known
      exact ⟨x, List.mem_cons_of_mem _ member, same, (Dict.get_set_other _ own _).trans uri,
        (Dict.get_set_other _ own _).trans type⟩

theorem client_of_not_registered {m : Move}
    (failed : ∀ i reply registration, m = .answer i reply →
      reply >>= decodeRegistration lax ≠ .ok registration) :
    (step lax s m).client = s.client := by
  rcases step_cases lax s m with ⟨jobs, stepped⟩ |
    ⟨a, systemId, now, _, stepped⟩ | ⟨i, reply, job, registration, jobs, same, _, decoded, _⟩
  · rw [stepped]
  · rw [stepped]
    rfl
  · exact absurd decoded (failed i reply registration same)

end Caches

section Identity

variable {lax : Lax} {s : State} {idOf : Text → Text}

/-- The id that the client's methods act under: the challenger's identity is fetched for
it, and it is the assessor and the committer in what is posted. -/
structure ActsAs (c : ATPClient) (id : Text) : Prop where
  challenger : ∀ lib agentUrl taskId verifying assessorTaskId, ∃ name,
    challenge lib c agentUrl taskId verifying assessorTaskId = (do
      let challenger ← fetchIdentity c.config.exchangeUrl id name
      .attempt (pursue lib c agentUrl taskId challenger verifying assessorTaskId)
        fun e => .raise (challengeError e))
  assessor : ∀ assessedSystemId assessedTaskId dimension assessment assessedAt assessorTaskId w h,
    ((reportAssessment c assessedSystemId assessedTaskId dimension assessment assessedAt
      assessorTaskId).run w h).log = h ++ [.send (postRequest "/api/v1/assess" (assessPayload id
        assessedSystemId assessedTaskId dimension assessment assessedAt assessorTaskId))]
  committer : ∀ t t' w log, t.committed = false → t.response.getD [] ≠ [] →
    (ATPTaskContext.commit t c).run w [] = ⟨.ok t', log⟩ →
      ∃ task expiresAt proofHash, log = .clock :: events task c id expiresAt proofHash

theorem actsAs_first {c : ATPClient} {name id : Text} (first : c.firstSystem = some (name, id)) :
    ActsAs c id where
  challenger := by
    intro lib agentUrl taskId verifying assessorTaskId
    exact ⟨name, by rw [challenge, first]⟩
  assessor := by
    intro assessedSystemId assessedTaskId dimension assessment assessedAt assessorTaskId w h
    exact reportAssessment_log first assessedSystemId assessedTaskId dimension assessment
      assessedAt assessorTaskId
  committer := by
    intro t t' w log uncommitted response run
    obtain ⟨systemId, now, hash, expiresAt, proofHash, present, _, logged⟩ :=
      commit_ok uncommitted response run
    rw [first, Option.map_some] at present
    obtain rfl := eq_of_filter rfl present
    exact ⟨_, expiresAt, proofHash, logged⟩

/-- The Exchange answers a registration of a name with the id of that name. -/
def AnswersById (lax : Lax) (idOf : Text → Text) (s : State) : Move → Prop
  | .answer i reply => ∀ job ∈ s.jobs[i]?, ∀ registration,
      reply >>= decodeRegistration lax = .ok registration →
        registration.systemId = idOf job.application.name
  | _ => True

/-- A client is registered under `first` from the first answer on. -/
structure Settled (idOf : Text → Text) (s : State) : Prop where
  first : s.answered ≠ [] → s.client.firstSystem ≠ none
  byName : ∀ p ∈ s.client.firstSystem, p.2 = idOf p.1

theorem firstSystem_recorded (c : ATPClient) (a : Application)
    (registration : SystemRegistration) : (recorded c a registration).firstSystem =
      some ((c.firstSystem.map fun p =>
        if p.1 = a.name then (a.name, registration.systemId) else p).getD
          (a.name, registration.systemId)) := Dict.head?_set _ _ _

theorem settled_step (settled : Settled idOf s) {m : Move} (answers : AnswersById lax idOf s m) :
    Settled idOf (step lax s m) := by
  rcases step_cases lax s m with ⟨jobs, stepped⟩ |
    ⟨a, systemId, now, _, stepped⟩ |
    ⟨i, reply, job, registration, jobs, rfl, found, decoded, stepped⟩
  · rw [stepped]
    exact ⟨settled.first, settled.byName⟩
  · rw [stepped]
    exact ⟨settled.first, settled.byName⟩
  · have id := answers job found registration decoded
    rw [stepped]
    refine ⟨by rw [client_succeed, firstSystem_recorded]; simp, ?_⟩
    rw [client_succeed, firstSystem_recorded]
    intro p first
    obtain rfl := Option.mem_some_iff.mp first
    cases known : s.client.firstSystem with
    | none => exact id
    | some q =>
      rw [Option.map_some, Option.getD_some]
      split
      · exact id
      · exact settled.byName q known

theorem firstSystem_step (settled : Settled idOf s) {m : Move}
    (answers : AnswersById lax idOf s m) {p : Text × Text} (known : s.client.firstSystem = some p) :
    (step lax s m).client.firstSystem = some p := by
  rcases step_cases lax s m with ⟨jobs, stepped⟩ |
    ⟨a, systemId, now, _, stepped⟩ |
    ⟨i, reply, job, registration, jobs, rfl, found, decoded, stepped⟩
  · rw [stepped]
    exact known
  · rw [stepped]
    exact known
  · rw [stepped, client_succeed, firstSystem_recorded, known, Option.map_some, Option.getD_some]
    split
    · next same =>
      rw [answers job found registration decoded, ← same, ← settled.byName p known]
    · rfl

/-- Over every interleaving of registrations, under one id for each name: a call that
fails leaves the caches alone, the caches are consistent in every state, and from the
first registration on the client acts under one id. -/
theorem registration_stable {config : ATPConfig} {moves : List Move}
    (answers : Along (step lax) (AnswersById lax idOf) (start config) moves) :
    (∀ s m, (∀ i reply registration, m = .answer i reply →
      reply >>= decodeRegistration lax ≠ .ok registration) →
        (step lax s m).client = s.client) ∧
    Throughout (step lax) Cached (start config) moves ∧
    ∀ first later, moves = first ++ later → (first.foldl (step lax) (start config)).answered ≠ [] →
      ∃ id, Throughout (step lax) (fun s => ActsAs s.client id)
        (first.foldl (step lax) (start config)) later := by
  refine ⟨fun _ _ failed => client_of_not_registered failed, ?_, ?_⟩
  · refine throughout_of_along (fun _ m _ cached => cached_step cached m) ?_ answers
    simp [Cached, start]
  · rintro first later rfl registered
    obtain ⟨before, after⟩ := along_append.mp answers
    have fresh : Settled idOf (start config) :=
      ⟨by simp [start], by simp [start, ATPClient.firstSystem, Dict.empty]⟩
    have keep : ∀ s m, AnswersById lax idOf s m → Settled idOf s → Settled idOf (step lax s m) :=
      fun _ _ ok settled => settled_step settled ok
    have settled := (throughout_of_along keep fresh before).final
    obtain ⟨⟨name, id⟩, known⟩ := Option.ne_none_iff_exists'.mp (settled.first registered)
    have stay : ∀ s m, AnswersById lax idOf s m →
        Settled idOf s ∧ s.client.firstSystem = some (name, id) →
          Settled idOf (step lax s m) ∧ (step lax s m).client.firstSystem = some (name, id) :=
      fun _ _ ok inv => ⟨settled_step inv.1 ok, firstSystem_step inv.1 ok inv.2⟩
    have stays := throughout_of_along stay ⟨settled, known⟩ after
    exact ⟨id, stays.mono fun _ inv => actsAs_first inv.2⟩

end Identity

section Sample

def strictLax : Lax where
  int := fun v => match v with
    | .int i => some i
    | _ => none
  bool := fun v => match v with
    | .bool b => some b
    | _ => none

def sampleRegistration (systemUri : Text) : SystemRegistration where
  systemUri := systemUri
  systemId := "s".toList
  registeredAt := noon
  status := "active".toList
  capabilitiesRegistered := 0
  url := none
  urlVerified := false
  proofTtlSeconds := none

def registrationReply (systemUri : Text) : Response := answer 201 (record
  [("system_uri", text systemUri), ("system_id", text "s".toList), ("registered_at", date noon),
   ("status", text "active".toList), ("capabilities_registered", .int 0)])

theorem decode_registrationReply (systemUri : Text) :
    decodeRegistration strictLax (registrationReply systemUri) =
      .ok (sampleRegistration systemUri) := by
  have body : acceptedBody (registrationReply systemUri) .registrationError
    "Registration failed with status " = .ok (record _) := rfl
  rw [decodeRegistration, body, bind_ok]
  have registered : IsoFormat.readBack noon = noon := rfl
  simp [SystemRegistration.ofData, isoField_date, valid, nullable, strictLax, sampleRegistration,
    registered]

def sampleApplication : Application where
  name := "me".toList
  systemType := "agent".toList
  capabilities := []
  extensions := []
  url := none
  proofTtlSeconds := none

def overlapping : List Move :=
  [.register sampleApplication noon.wall false, .register sampleApplication noon.wall false,
   .answer 0 (.ok (registrationReply "https://x/systems/s".toList)),
   .answer 0 (.error (foreign .requestError))]

theorem overlapping_stable :
    Throughout (step strictLax) Cached (start sampleClient.config) overlapping ∧
      ∃ id, Throughout (step strictLax) (fun s => ActsAs s.client id)
        ((overlapping.take 3).foldl (step strictLax) (start sampleClient.config))
        (overlapping.drop 3) := by
  have byId : ∀ s reply, (∀ registration, reply >>= decodeRegistration strictLax =
      .ok registration → registration.systemId = "s".toList) →
        ∀ i, AnswersById strictLax (fun _ => "s".toList) s (.answer i reply) :=
    fun _ _ same _ _ _ registration decoded => same registration decoded
  have answers : Along (step strictLax) (AnswersById strictLax fun _ => "s".toList)
      (start sampleClient.config) overlapping := by
    refine ⟨trivial, trivial, byId _ _ ?_ 0, byId _ _ (by simp) 0, trivial⟩
    intro registration decoded
    rw [bind_ok, decode_registrationReply] at decoded
    obtain rfl := Except.ok.inj decoded
    rfl
  obtain ⟨_, cached, settled⟩ := registration_stable answers
  refine ⟨cached, settled (overlapping.take 3) (overlapping.drop 3) rfl ?_⟩
  simp [overlapping, step, State.begin, start, Dict.empty, Dict.get, State.succeed,
    decode_registrationReply]

end Sample

end AgentTrust.Registration
