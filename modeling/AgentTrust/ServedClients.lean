import AgentTrust.HttpClients

/-! The HTTP client that a request is served, on one event loop. A context exit closes the held
client and keeps it, as does a `close` until it has waited. The next request is served that
client, unless no request before it recorded the loop. -/

namespace AgentTrust.ServedClients

open Runs HttpClients

section Serving

variable {Loop : Type}

def Closing (s : Connection Loop) (i : Step) : Prop :=
  (i = .exit ∨ i = .closeStart) ∧ s.httpClient.isSome

/-- The step replaces no client: it enters no context and ends no `close` that waited. -/
def Spares (s : Connection Loop) (i : Step) : Prop :=
  i ≠ .enter ∧ (i = .closeEnd → s.closing = 0)

def Made (s : Connection Loop) : Prop := Owned s ∧ ∀ c ∈ s.closed, c < s.created

def Stale (loop : Loop) (s : Connection Loop) : Prop :=
  s.clientLoop = some loop ∧ ∃ c, s.httpClient = some c ∧ c ∈ s.closed

variable {loop : Loop} {s : Connection Loop}

theorem made_aclose (made : Made s) : Made s.aclose := by
  refine ⟨made.1, fun c closed => ?_⟩
  rcases List.mem_append.mp closed with held | before
  · exact made.1 c (Option.mem_toList.mp held)
  · exact made.2 c before

theorem made_create (made : Made s) : Made s.create :=
  ⟨owned_create, fun c closed => Nat.lt_succ_of_lt (made.2 c closed)⟩

theorem closeStart_cases (s : Connection Loop) :
    s.httpClient.isSome ∧ closeStart s = { s.aclose with closing := s.closing + 1 } ∨
      s.httpClient = none ∧ closeStart s = s := by
  by_cases held : s.httpClient.isSome
  · exact .inl ⟨held, if_pos held⟩
  · exact .inr ⟨by simpa using held, if_neg held⟩

theorem not_stale_create (made : Made s) (owner : Option Loop) :
    ¬ Stale loop { s.create with clientLoop := owner } := by
  rintro ⟨_, c, held, closed⟩
  obtain rfl := Option.some.inj held
  exact Nat.lt_irrefl _ (made.2 _ closed)

theorem stale_aclose : Stale loop s.aclose ↔ s.httpClient.isSome ∧ s.clientLoop = some loop := by
  constructor
  · rintro ⟨own, c, held, _⟩
    change s.httpClient = some c at held
    exact ⟨by simp [held], own⟩
  · rintro ⟨held, own⟩
    obtain ⟨c, held⟩ := Option.isSome_iff_exists.mp held
    exact ⟨own, c, held, List.mem_append_left _ (Option.mem_toList.mpr held)⟩

variable [DecidableEq Loop]

def after (loop : Loop) (run : List Step) : Connection Loop := run.foldl (step loop) init

theorem after_concat (loop : Loop) (run : List Step) (i : Step) :
    after loop (run ++ [i]) = step loop (after loop run) i := by
  rw [after, List.foldl_append]
  rfl

def ServedClosed (loop : Loop) (s : Connection Loop) : Prop :=
  ∃ c, (getClient (some loop) s).httpClient = some c ∧ c ∈ s.closed

theorem getClient_cases (loop : Loop) (s : Connection Loop) :
    s.httpClient.isSome ∧ s.clientLoop = some loop ∧ getClient (some loop) s = s ∨
      ¬ (s.httpClient.isSome ∧ s.clientLoop = some loop) ∧
        getClient (some loop) s = { s.create with clientLoop := some loop } := by
  by_cases held : s.httpClient.isSome
  · by_cases own : s.clientLoop = some loop
    · exact .inl ⟨held, own, getClient_own held own⟩
    · exact .inr ⟨fun both => own both.2, getClient_foreign held own⟩
  · exact .inr ⟨fun both => held both.1, getClient_none (by simpa using held)⟩

theorem made_step (made : Made s) (i : Step) : Made (step loop s i) := by
  refine ⟨owned_step made.1 i, ?_⟩
  cases i with
  | enter => exact (made_create made).2
  | request =>
    change ∀ c ∈ (getClient _ s).closed, c < (getClient _ s).created
    obtain ⟨_, _, same⟩ | ⟨_, fresh⟩ := getClient_cases loop s
    · rw [same]
      exact made.2
    · rw [fresh]
      exact (made_create made).2
  | closeStart =>
    change ∀ c ∈ (closeStart s).closed, c < (closeStart s).created
    obtain ⟨_, closes⟩ | ⟨_, same⟩ := closeStart_cases s
    · rw [closes]
      exact (made_aclose made).2
    · rw [same]
      exact made.2
  | closeEnd =>
    change ∀ c ∈ (closeEnd s).closed, c < (closeEnd s).created
    unfold closeEnd
    split <;> exact made.2
  | exit => exact (made_aclose made).2

theorem servedClosed_iff (made : Made s) : ServedClosed loop s ↔ Stale loop s := by
  obtain ⟨_, own, same⟩ | ⟨foreign, fresh⟩ := getClient_cases loop s
  · rw [ServedClosed, same, Stale, and_iff_right own]
  · refine iff_of_false ?_ ?_
    · rintro ⟨c, held, closed⟩
      rw [fresh] at held
      exact not_stale_create made (some loop) ⟨rfl, c, held, closed⟩
    · rintro ⟨own, c, held, _⟩
      exact foreign ⟨by simp [held], own⟩

/-- A step leaves a stale client where it closes the held one or spares a stale one. -/
theorem stale_step (made : Made s) (i : Step) : Stale loop (step loop s i) ↔
    (Closing s i ∧ s.clientLoop = some loop) ∨ Stale loop s ∧ Spares s i := by
  have held_of_stale : Stale loop s → s.httpClient.isSome ∧ s.clientLoop = some loop := by
    rintro ⟨own, c, held, _⟩
    exact ⟨by simp [held], own⟩
  cases i with
  | enter =>
    refine iff_of_false (not_stale_create made s.clientLoop) ?_
    simp [Closing, Spares]
  | request =>
    change Stale loop (getClient _ s) ↔ _
    obtain ⟨_, _, same⟩ | ⟨foreign, fresh⟩ := getClient_cases loop s
    · rw [same]
      simp [Closing, Spares]
    · rw [fresh]
      refine iff_of_false (not_stale_create made (some loop)) ?_
      rintro (closing | ⟨stale, _⟩)
      · simp [Closing] at closing
      · exact foreign (held_of_stale stale)
  | closeStart =>
    change Stale loop (closeStart s) ↔ _
    obtain ⟨held, closes⟩ | ⟨none, same⟩ := closeStart_cases s
    · have stale : Stale loop (closeStart s) ↔ Stale loop s.aclose := by rw [closes]; rfl
      rw [stale, stale_aclose]
      refine ⟨fun both => .inl ⟨⟨.inr rfl, held⟩, both.2⟩, ?_⟩
      rintro (⟨_, own⟩ | ⟨stale, _⟩)
      · exact ⟨held, own⟩
      · exact held_of_stale stale
    · rw [same]
      simp [Closing, Spares, Stale, none]
  | closeEnd =>
    change Stale loop (closeEnd s) ↔ _
    by_cases quiet : s.closing = 0
    · rw [show closeEnd s = s from if_pos quiet]
      simp [Closing, Spares, quiet]
    · rw [show closeEnd s = { s with httpClient := none, closing := s.closing - 1 } from
        if_neg quiet]
      simp [Closing, Spares, Stale, quiet]
  | exit =>
    change Stale loop s.aclose ↔ _
    rw [stale_aclose]
    refine ⟨fun both => .inl ⟨⟨.inl rfl, both.1⟩, both.2⟩, ?_⟩
    rintro (⟨⟨_, held⟩, own⟩ | ⟨stale, _⟩)
    · exact ⟨held, own⟩
    · exact held_of_stale stale

theorem clientLoop_getClient : (getClient (some loop) s).clientLoop = some loop := by
  obtain ⟨_, own, same⟩ | ⟨_, fresh⟩ := getClient_cases loop s
  · rw [same, own]
  · rw [fresh]

theorem clientLoop_step (i : Step) :
    (step loop s i).clientLoop = some loop ↔ i = .request ∨ s.clientLoop = some loop := by
  cases i with
  | request => exact iff_of_true clientLoop_getClient (.inl rfl)
  | closeStart =>
    change (closeStart s).clientLoop = _ ↔ _
    unfold closeStart
    split <;> simp [Connection.aclose]
  | closeEnd =>
    change (closeEnd s).clientLoop = _ ↔ _
    unfold closeEnd
    split <;> simp
  | enter => simp [step, aenter, Connection.create]
  | exit => simp [step, aexit, Connection.aclose]

theorem clientLoop_after (loop : Loop) (run : List Step) :
    (after loop run).clientLoop = some loop ↔ .request ∈ run := by
  induction run using List.reverseRecOn with
  | nil => simp [after, init]
  | append_singleton run i ih =>
    rw [after_concat, clientLoop_step, ih, List.mem_append, List.mem_singleton, or_comm, eq_comm]

theorem made_after (loop : Loop) (run : List Step) : Made (after loop run) := by
  induction run using List.reverseRecOn with
  | nil => simp [after, init, Made, Owned]
  | append_singleton run i ih =>
    rw [after_concat]
    exact made_step ih i

/-- After a run a request is served a closed client exactly if, some time after a request, a
context exit or a `close` closed the held client, and no context was entered and no `close`
that waited ended since. -/
theorem served_closed_iff (loop : Loop) (run : List Step) :
    ServedClosed loop (after loop run) ↔ ∃ earlier i later, run = earlier ++ i :: later ∧
      Closing (after loop earlier) i ∧ .request ∈ earlier ∧
        Along (step loop) Spares (after loop (earlier ++ [i])) later := by
  rw [servedClosed_iff (made_after loop run)]
  refine (begun_and_kept_iff (I := Made) (fun _ i made => made_step made i)
    (fun _ i made => stale_step made i) (made_after loop []) ?_ run).trans ?_
  · rintro ⟨own, _⟩
    cases own
  · refine exists_congr fun earlier => exists_congr fun i => exists_congr fun later => ?_
    rw [← clientLoop_after loop earlier, after_concat]
    exact and_congr_right fun _ => and_assoc

end Serving

end AgentTrust.ServedClients
