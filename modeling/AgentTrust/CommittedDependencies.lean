import AgentTrust.PostedCommits

/-! The dependencies of a committed proof. A dependency is carried in requests with the
URL to challenge its agent at, and in proofs with the URI of its system and without that
URL. A task context appends a dependency as it is given, so what it commits is fit for a
proof where every dependency given to it was. -/

namespace AgentTrust.CommittedDependencies

open JsonTree JsonTree.Json PyText PyJson Gregorian PyDateTime OrderedDict PyValue Models Hashing
  Effects Exchange Client Storage Tasks Publication CommitPayload HonestAgent StoreAgreement
  TaskBlock
open Effects.Run hiding pure bind

section Contexts

def InProofContext (d : Dependency) : Prop := d.challengeUrl = none ∧ d.systemUri ≠ none

instance : DecidablePred InProofContext := fun d =>
  inferInstanceAs (Decidable (d.challengeUrl = none ∧ d.systemUri ≠ none))

def DumpInProofContext (v : JsonValue) : Prop :=
  getItem "challenge_url" v = .ok .null ∧ ∃ uri, getItem "system_uri" v = .ok uri ∧ uri ≠ .null

theorem opt_text_null {x : Option Text} : opt text x = .null ↔ x = none := by
  cases x <;> simp [opt, text]

theorem dumpInProofContext_iff (d : Dependency) :
    DumpInProofContext d.dump ↔ InProofContext d := by
  have url : getItem "challenge_url" d.dump = .ok (opt text d.challengeUrl) := by
    simp [DependencyOf.dump]
  have uri : getItem "system_uri" d.dump = .ok (opt text d.systemUri) := by
    simp [DependencyOf.dump]
  simp [DumpInProofContext, InProofContext, url, uri, opt_text_null]

def payloadDependencies (payload : JsonValue) : Except Exc JsonValue :=
  getItem "proof" payload >>= getItem "dependencies"

theorem payloadDependencies_commitPayload (systemId taskId proofHash : Text) (s : ProofSketch) :
    payloadDependencies (commitPayload systemId taskId s proofHash) =
      .ok (.arr (s.dependencies.map DependencyOf.dump)) := by
  simp [payloadDependencies, commitPayload, ProofSketchOf.dump, list]

/-- All that a commit from the log `h` on stored and posted is fit for a proof. -/
structure ContextKept (w : World) (h log : List Event) : Prop where
  stored : ∀ p, .save p ∈ log.drop h.length → w.save (h ++ [.clock]) p = .ok () →
    ∀ d ∈ p.proofData.dependencies, InProofContext d
  posted : ∀ payload items, .send (postRequest "/api/v1/commit" payload) ∈ log.drop h.length →
    payloadDependencies payload = .ok (.arr items) → ∀ v ∈ items, DumpInProofContext v

end Contexts

section Commits

variable {t : ATPTaskContext} {c : ATPClient} {w : World} {h : List Event}

theorem contextKept_silent {log : List Event} (silent : ∀ e ∈ log.drop h.length, e = .clock) :
    ContextKept w h log where
  stored := fun p saved => by simpa using silent _ saved
  posted := fun payload items sent => by simpa using silent _ sent

theorem commit_contextKept (uncommitted : t.committed = false)
    (response : t.response.getD [] ≠ []) :
    ContextKept w h ((t.commit c).run w h).log ↔
      (Accepted w h t c → ∀ d ∈ t.dependencies, InProofContext d) := by
  rw [accepted_iff uncommitted response]
  cases attempted : Caller.attempt (w.now h) (.context t c) with
  | none =>
    refine iff_of_true (contextKept_silent ?_) (by simp)
    rcases commit_idle attempted with same | clock
    · simp [same]
    · simp [clock]
  | some b =>
    obtain ⟨proofHash, _, logged⟩ := commit_logs attempted
    have dependencies : b.task.dependencies = t.dependencies := by
      obtain ⟨_, _, _, _, _, _, _, _, rfl⟩ := attempt_context.mp attempted
      rfl
    rw [logged]
    cases saved : w.save (h ++ [.clock]) b.proof with
    | error e =>
      refine iff_of_true ⟨?_, ?_⟩ (by simp [saved])
      · intro p logged
        simp at logged
        simp [logged, saved]
      · simp
    | ok u =>
      have taken : (∃ b', some b = some b' ∧ w.save (h ++ [.clock]) b'.proof = .ok ()) :=
        ⟨b, rfl, saved⟩
      constructor
      · rintro ⟨stored, _⟩ _
        rw [← dependencies]
        exact stored b.proof (by simp) saved
      · intro fit
        have fit := fit taken
        rw [← dependencies] at fit
        refine ⟨?_, ?_⟩
        · intro p logged _
          have proof : p = b.proof := by simpa using logged
          rw [proof]
          exact fit
        · intro payload items logged listed
          have body : payload = commitPayload b.systemId b.task.taskId b.sketch proofHash := by
            simpa [postRequest] using logged
          rw [body, payloadDependencies_commitPayload, Except.ok.injEq, Json.arr.injEq] at listed
          rw [← listed, List.forall_mem_map]
          exact fun d hd => (dumpInProofContext_iff d).mpr (fit d hd)

def argument : Call → Option Dependency
  | .setResponse _ => none
  | .addDependentProof (.storedProof _) _ => none
  | .addDependentProof (.dependency d) _ => some d

theorem dependency_inProofContext (call : Call) :
    (∀ d, call.dependency = some d → InProofContext d) ↔
      ∀ d, argument call = some d → InProofContext d := by
  cases call with
  | setResponse value => simp [Call.dependency, argument]
  | addDependentProof proof evaluations =>
    simp only [Call.dependency, Option.some.injEq, forall_eq']
    cases proof with
    | storedProof p => simp [argument, DependentProof.dependencyWith, InProofContext]
    | dependency given =>
      simp only [argument, Option.some.injEq, forall_eq', DependentProof.dependencyWith]
      split <;> exact Iff.rfl

theorem dependencies_inProofContext (calls : List Call) :
    (∀ d ∈ calls.filterMap Call.dependency, InProofContext d) ↔
      ∀ d ∈ calls.filterMap argument, InProofContext d := by
  have each : ∀ f : Call → Option Dependency, (∀ d ∈ calls.filterMap f, InProofContext d) ↔
      ∀ call ∈ calls, ∀ d, f call = some d → InProofContext d := by
    intro f
    simp only [List.mem_filterMap, forall_exists_index, and_imp]
    exact ⟨fun all call member d given => all d call member given,
      fun all d call member given => all call member d given⟩
  rw [each, each]
  exact forall₂_congr fun call _ => dependency_inProofContext call

/-- A body that ends and sets a response, in a block that can be committed. -/
structure Commits (w : World) (t : ATPTaskContext) (c : ATPClient) (s : Trace) : Prop where
  ended : s.raised = none
  response : (s.calls.foldl Call.apply t).response.getD [] ≠ []
  accepted : Accepted w s.log (s.calls.foldl Call.apply t) c

/-- What the exit of a block stores and posts is fit for a proof exactly where every
dependency that its body added is, if there is a commit at all. -/
theorem block_contextKept_iff (client c : ATPClient) (query : PyStr) (config : Option ATPConfig)
    (classification : Option Capability) (id : Uuid) (body : Body) (w : World) (h : List Event) :
    let t := newContext client query config classification id
    let s := body.trace w h
    ContextKept w s.log ((atpTask t c body).run w h).log ↔
      (Commits w t c s → ∀ d ∈ s.calls.filterMap argument, InProofContext d) := by
  intro t s
  have context : (s.calls.foldl Call.apply t).committed = false ∧
      (s.calls.foldl Call.apply t).dependencies = s.calls.filterMap Call.dependency := by
    rw [foldl_apply]
    exact ⟨rfl, rfl⟩
  rw [atpTask_log, ← dependencies_inProofContext, ← context.2]
  split
  · next both =>
    rw [commit_contextKept context.1 both.2]
    have ended : s.raised = none := Option.isNone_iff_eq_none.mp both.1
    exact ⟨fun kept commits => kept commits.accepted,
      fun kept accepted => kept ⟨ended, both.2, accepted⟩⟩
  · next neither =>
    refine iff_of_true (contextKept_silent (by simp [s])) fun commits => ?_
    exact absurd ⟨Option.isNone_iff_eq_none.mpr commits.ended, commits.response⟩ neither

def inboundDependency : Dependency where
  systemUri := none
  taskId := "t".toList
  challengeUrl := some "http://10.0.0.5:8100".toList
  evaluations := []

def inboundBody : Body :=
  .call (.addDependentProof (.dependency inboundDependency) none)
    (.call (.setResponse (.text (lit "4"))) .finish)

theorem inboundBody_posts_url : ¬ ContextKept acceptingWorld []
    ((atpTask (newContext sampleClient (lit "2+2?") none none sampleTask) sampleClient
      inboundBody).run acceptingWorld []).log := by
  intro kept
  let t := [.addDependentProof (.dependency inboundDependency) none,
    .setResponse (.text (lit "4"))].foldl Call.apply
      (newContext sampleClient (lit "2+2?") none none sampleTask)
  obtain ⟨hash, hashed⟩ : ∃ hash,
      computeDependenciesHash (t.dependencies.map .object) = .ok hash := ⟨_, rfl⟩
  have accepted : Accepted acceptingWorld [] t sampleClient :=
    ⟨"v".toList, hash, onePm, rfl, hashed, expiry_noon, rfl⟩
  have responded : t.response.getD [] ≠ [] := by decide
  rw [atpTask_log, if_pos ⟨rfl, responded⟩] at kept
  have fit := (commit_contextKept rfl responded).mp kept accepted inboundDependency
    (List.mem_singleton.mpr rfl)
  exact absurd fit.1 (by decide)

end Commits

end AgentTrust.CommittedDependencies
