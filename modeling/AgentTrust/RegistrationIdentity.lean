import AgentTrust.Registration

/-! Registering a name again. A call for a name that a call has registered is answered from
the cache: it gives the id of that registration, changes nothing and sends nothing. Its URI
is built from the configuration, which the Exchange need not know. -/

namespace AgentTrust.RegistrationIdentity

open PyText Gregorian PyDateTime OrderedDict PyValue Models Effects Exchange Client Tasks
  HonestAgent Registration
open Effects.Run hiding pure bind

/-- A client between two calls, and all that was sent so far. -/
structure Session where
  client : ATPClient
  log : List Event

structure Call where
  application : Application
  now : Wall

variable (lax : Lax) (w : World)

/-- One call of `register_system` that is awaited. -/
def Session.call (s : Session) (i : Call) : Outcome Exc Event (SystemRegistration × ATPClient) :=
  (registerSystem lax s.client i.application i.now).run w s.log

def Session.answer (s : Session) (i : Call) : Except Exc SystemRegistration :=
  (s.call lax w i).result.map Prod.fst

def Session.step (s : Session) (i : Call) : Session :=
  ⟨((s.call lax w i).result.toOption.map Prod.snd).getD s.client, (s.call lax w i).log⟩

/-- Among the calls from `s` on, `registration` was the first that succeeded for its name,
and the name is asked for again when the session is `t`. -/
def Asked (s : Session) (calls : List Call) (registration : SystemRegistration) (t : Session)
    (again : Call) : Prop :=
  ∃ before first between after, calls = before ++ first :: (between ++ again :: after) ∧
    again.application.name = first.application.name ∧
    (before.foldl (Session.step lax w) s).client.registeredSystems.get first.application.name =
      none ∧
    (before.foldl (Session.step lax w) s).answer lax w first = .ok registration ∧
    t = (before ++ first :: between).foldl (Session.step lax w) s

/-- The call gives the identity of the registration, changes nothing and sends nothing. -/
def Repeats (registration : SystemRegistration) (t : Session) (again : Call) : Prop :=
  ∃ r, t.answer lax w again = .ok r ∧ r.systemId = registration.systemId ∧
    r.systemUri = registration.systemUri ∧ t.step lax w again = t

def configuredUri (config : ATPConfig) (registration : SystemRegistration) : Text :=
  config.exchangeUrl ++ "/systems/".toList ++ registration.systemId

section Steps

variable {lax : Lax} {w : World} {s : Session} {i : Call}

theorem call_cached {id : Text}
    (known : s.client.registeredSystems.get i.application.name = some id) :
    s.call lax w i =
      ⟨.ok (cachedRegistration s.client i.application id i.now, s.client), s.log⟩ := by
  rw [Session.call, registerSystem, known]
  rfl

theorem step_cached {id : Text}
    (known : s.client.registeredSystems.get i.application.name = some id) :
    s.step lax w i = s := by
  rw [Session.step, call_cached known]
  rfl

/-- A call finds its name, fails, or registers it. -/
theorem step_cases (lax : Lax) (w : World) (s : Session) (i : Call) :
    (s.step lax w i).client = s.client ∨
      ∃ registration, s.client.registeredSystems.get i.application.name = none ∧
        s.answer lax w i = .ok registration ∧
        (s.step lax w i).client = recorded s.client i.application registration := by
  cases known : s.client.registeredSystems.get i.application.name with
  | some id => exact .inl (congrArg Session.client (step_cached known))
  | none =>
    have run := registerSystem_run lax (w := w) (h := s.log) s.client i.application i.now
      known
    rw [Session.step, Session.answer, Session.call]
    cases decoded : (World.answers w s.log i.application >>= decodeRegistration lax).toOption with
    | none =>
      rw [decoded] at run
      exact .inl (by rw [run]; rfl)
    | some registration =>
      rw [decoded] at run
      refine .inr ⟨registration, rfl, ?_, by rw [run]; rfl⟩
      rw [toOption_eq_some.mp run]
      rfl

theorem config_step (s : Session) (i : Call) :
    (s.step lax w i).client.config = s.client.config := by
  rcases step_cases lax w s i with same | ⟨registration, _, _, written⟩
  · rw [same]
  · rw [written]
    rfl

theorem known_step {name id : Text} (known : s.client.registeredSystems.get name = some id) :
    (s.step lax w i).client.registeredSystems.get name = some id := by
  rcases step_cases lax w s i with same | ⟨registration, fresh, _, written⟩
  · rw [same]
    exact known
  · have other : i.application.name ≠ name := by
      rintro rfl
      rw [known] at fresh
      simp at fresh
    rw [written]
    exact (Dict.get_set_other _ other _).trans known

theorem config_run (s : Session) (calls : List Call) :
    (calls.foldl (Session.step lax w) s).client.config = s.client.config :=
  List.foldlRecOn (motive := fun t => t.client.config = s.client.config) calls
    (Session.step lax w) rfl fun t same i _ => (config_step t i).trans same

theorem known_run {name id : Text} (known : s.client.registeredSystems.get name = some id)
    (calls : List Call) :
    (calls.foldl (Session.step lax w) s).client.registeredSystems.get name = some id :=
  List.foldlRecOn (motive := fun t => t.client.registeredSystems.get name = some id) calls
    (Session.step lax w) known fun _ kept _ _ => known_step kept

theorem known_registered {registration : SystemRegistration}
    (fresh : s.client.registeredSystems.get i.application.name = none)
    (registered : s.answer lax w i = .ok registration) :
    (s.step lax w i).client.registeredSystems.get i.application.name =
      some registration.systemId := by
  have run := registerSystem_run lax (w := w) (h := s.log) s.client i.application i.now
    fresh
  rw [Session.answer, Session.call] at registered
  rw [Session.step, Session.call]
  cases result : ((registerSystem lax s.client i.application i.now).run w s.log).result with
  | error e =>
    rw [result] at registered
    simp [Except.map] at registered
  | ok answered =>
    rw [result] at registered run
    obtain rfl : answered.1 = registration := Except.ok.inj registered
    obtain ⟨found, _, rfl⟩ := Option.map_eq_some_iff.mp run.symm
    exact Dict.get_set_self _ _ _

end Steps

section Identity

variable {lax : Lax} {w : World} {s t : Session} {calls : List Call} {again : Call}
  {registration : SystemRegistration}

theorem asked_known (asked : Asked lax w s calls registration t again) :
    t.client.registeredSystems.get again.application.name = some registration.systemId ∧
      t.client.config = s.client.config := by
  obtain ⟨before, first, between, after, _, same, fresh, registered, rfl⟩ := asked
  refine ⟨?_, config_run s _⟩
  rw [same, List.foldl_append, List.foldl_cons]
  exact known_run (known_registered fresh registered) between

theorem asked_answer (asked : Asked lax w s calls registration t again) :
    t.answer lax w again = .ok
        (cachedRegistration t.client again.application registration.systemId again.now) ∧
      t.step lax w again = t := by
  obtain ⟨known, _⟩ := asked_known asked
  refine ⟨?_, step_cached known⟩
  rw [Session.answer, call_cached known]
  rfl

theorem repeats_iff (asked : Asked lax w s calls registration t again) :
    Repeats lax w registration t again ↔
      registration.systemUri = configuredUri s.client.config registration := by
  obtain ⟨answered, unchanged⟩ := asked_answer asked
  have uri : (cachedRegistration t.client again.application registration.systemId
      again.now).systemUri = configuredUri s.client.config registration := by
    rw [← (asked_known asked).2]
    rfl
  constructor
  · rintro ⟨r, same, _, kept, _⟩
    obtain rfl := Except.ok.inj (answered.symm.trans same)
    rw [← kept, uri]
  · intro configured
    exact ⟨_, answered, rfl, uri.trans configured.symm, unchanged⟩

/-- Along any calls, each name asked for again keeps its id, changes nothing and sends
nothing; it keeps its URI too exactly if the Exchange gave it the URI that the client builds. -/
theorem idempotent_iff (lax : Lax) (w : World) (s : Session) (calls : List Call) :
    (∀ registration t again, Asked lax w s calls registration t again →
      (t.answer lax w again).map SystemRegistration.systemId = .ok registration.systemId ∧
        t.step lax w again = t) ∧
    ((∀ registration t again, Asked lax w s calls registration t again →
        Repeats lax w registration t again) ↔
      ∀ registration t again, Asked lax w s calls registration t again →
        registration.systemUri = configuredUri s.client.config registration) := by
  constructor
  · intro registration t again asked
    obtain ⟨answered, unchanged⟩ := asked_answer asked
    rw [answered]
    exact ⟨rfl, unchanged⟩
  · exact forall₄_congr fun _ _ _ asked => repeats_iff asked

end Identity

section Sample

def twice : List Call := [⟨sampleApplication, noon.wall⟩, ⟨sampleApplication, noon.wall⟩]

def unregistered : Session := ⟨⟨sampleClient.config, Dict.empty, Dict.empty, Dict.empty⟩, []⟩

def registeringWorld (systemUri : Text) : World where
  reply := fun _ _ => .ok (registrationReply systemUri)
  save := fun _ _ => .ok ()
  now := fun _ => noon.wall

theorem registered_first (systemUri : Text) :
    unregistered.answer strictLax (registeringWorld systemUri) ⟨sampleApplication, noon.wall⟩ =
      .ok (sampleRegistration systemUri) := by
  have run := registerSystem_run strictLax (w := registeringWorld systemUri) (h := [])
    unregistered.client sampleApplication noon.wall rfl
  have replied : World.answers (registeringWorld systemUri) [] sampleApplication =
      .ok (registrationReply systemUri) := rfl
  rw [replied, bind_ok, decode_registrationReply] at run
  have result := toOption_eq_some.mp run
  rw [Session.answer, Session.call]
  exact congrArg (Except.map Prod.fst) result

theorem asked_twice (systemUri : Text) :
    Asked strictLax (registeringWorld systemUri) unregistered twice (sampleRegistration systemUri)
      (unregistered.step strictLax (registeringWorld systemUri) ⟨sampleApplication, noon.wall⟩)
      ⟨sampleApplication, noon.wall⟩ :=
  ⟨[], _, [], [], rfl, rfl, rfl, registered_first systemUri, rfl⟩

/-- Behind a proxy the second call for a name gives another URI than the first one. -/
theorem proxied_renamed : ∃ registration t again,
    Asked strictLax (registeringWorld "https://exchange/systems/s".toList) unregistered twice
      registration t again ∧
    ¬ Repeats strictLax (registeringWorld "https://exchange/systems/s".toList) registration t
      again := by
  refine ⟨_, _, _, asked_twice _, fun repeats => ?_⟩
  have configured := (repeats_iff (asked_twice _)).mp repeats
  exact absurd configured (by decide)

end Sample

end AgentTrust.RegistrationIdentity
