import AgentTrust.ContentHash
import AgentTrust.Effects

/-! The two forms in which dependencies are hashed: model objects, and the dicts that
their JSON dumps are. Both become the same canonical records but for one field: the
time of an evaluation is rendered by the program for an object and was rendered by
the dump for a dict. -/

namespace AgentTrust.DependencyForms

open TextCode JsonTree JsonTree.Json PyText PyJson Gregorian PyDateTime IsoFormat OrderedDict
  PyValue Models Hashing Effects

section Datetimes

def zuluTail (us : Nat) : Text := if us = 0 then ['Z'] else '.' :: (fracText us ++ ['Z'])

theorem zuluText_eq (w : Wall) :
    zuluText w = secondsText w ++ zuluTail w.time.microsecond.val := rfl

theorem zulu_mem_zuluTail (us : Nat) : 'Z' ∈ zuluTail us := by
  unfold zuluTail
  split <;> simp

theorem zulu_not_mem_offsetText (o : Offset) : 'Z' ∉ offsetText o := by
  intro h
  rcases List.mem_cons.mp h with sign | zone
  · split at sign <;> simp at sign
  · exact absurd (zoneText_chars _ _ zone) (by decide)

theorem isoformat_ne_zuluText (d : DateTime) (w : Wall) : isoformat d ≠ zuluText w := by
  intro same
  rw [isoformat, zuluText_eq] at same
  have tails := (List.append_inj same (by simp)).2
  rcases List.mem_append.mp (tails ▸ zulu_mem_zuluTail _) with fraction | zone
  · exact absurd (microText_chars _ _ fraction) (by decide)
  · split at zone
    · exact zulu_not_mem_offsetText _ zone
    · simp at zone

end Datetimes

section Records

def evaluationRecord (e : DependencyEvaluation) (evaluatedAt : JsonValue) : JsonValue :=
  record (("evaluation_type", text e.evaluationType) ::
    (entry (truthy (opt text e.evaluationPolicy)) "evaluation_policy"
        (opt text e.evaluationPolicy) ++
      [("evaluation_result", text e.evaluationResult), ("evaluated_at", evaluatedAt)]))

def dependencyRecord (time : DateTime → JsonValue) (d : Dependency) : JsonValue :=
  record (("system_uri", opt text d.systemUri) :: ("task_id", text d.taskId) ::
    entry (d.evaluations ≠ []) "evaluations"
      (.arr (d.evaluations.map fun e => evaluationRecord e (time e.evaluatedAt))))

theorem depEvalToCanonical_dict (e : DependencyEvaluation) :
    depEvalToCanonical (σ := Text) (.dict e.dump) =
      .ok (evaluationRecord e (date e.evaluatedAt)) := by
  have fields : ∃ fs, e.dump = .obj fs := ⟨_, rfl⟩
  obtain ⟨fs, object⟩ := fields
  rw [object]
  unfold depEvalToCanonical
  dsimp only
  rw [← object]
  simp [DependencyEvaluationOf.dump, evaluationRecord]

theorem depEvalToCanonical_object {e : DependencyEvaluation} {w : Wall}
    (utc : e.evaluatedAt.utcWall = some w) :
    depEvalToCanonical (.object e) = .ok (evaluationRecord e (text (zuluText w))) := by
  simp only [depEvalToCanonical, formatDatetimeRfc3339nano, utc]
  rfl

def zuluDate (d : DateTime) : JsonValue := text ((d.utcWall.map zuluText).getD [])

theorem depToCanonical_dict (d : Dependency) :
    depToCanonical (σ := Text) (.dict d.dump) = .ok (dependencyRecord date d) := by
  have evaluations : (d.evaluations.map DependencyEvaluationOf.dump).mapM
      (fun ev => depEvalToCanonical (σ := Text) (.dict ev)) =
        .ok (d.evaluations.map fun e => evaluationRecord e (date e.evaluatedAt)) := by
    rw [List.mapM_map]
    exact mapM_ok fun e _ => depEvalToCanonical_dict e
  obtain ⟨fs, object⟩ : ∃ fs, d.dump = .obj fs := ⟨_, rfl⟩
  rw [object]
  unfold depToCanonical
  dsimp only
  rw [← object]
  by_cases none : d.evaluations = []
  · simp [DependencyOf.dump, list, none, truthy, dependencyRecord, entry]
  · simp [DependencyOf.dump, list, none, truthy, iterate, evaluations, dependencyRecord]

theorem depToCanonical_object {d : Dependency}
    (utc : ∀ e ∈ d.evaluations, ∃ w, e.evaluatedAt.utcWall = some w) :
    depToCanonical (.object d) = .ok (dependencyRecord zuluDate d) := by
  have evaluations : d.evaluations.mapM (fun ev => depEvalToCanonical (.object ev)) =
      .ok (d.evaluations.map fun e => evaluationRecord e (zuluDate e.evaluatedAt)) := by
    refine mapM_ok fun e he => ?_
    obtain ⟨w, shifted⟩ := utc e he
    rw [depEvalToCanonical_object shifted, zuluDate, shifted]
    rfl
  simp only [depToCanonical, evaluations, bind_ok]
  rfl

theorem utc_of_depToCanonical_object {d : Dependency} {v : JsonValue}
    (ok : depToCanonical (.object d) = .ok v) :
    ∀ e ∈ d.evaluations, ∃ w, e.evaluatedAt.utcWall = some w := by
  intro e he
  obtain ⟨vs, evaluations, _⟩ := bind_eq_ok.mp ok
  obtain ⟨x, canonical⟩ := ok_of_mapM_ok evaluations he
  obtain ⟨t, formatted, _⟩ := bind_eq_ok.mp canonical
  unfold formatDatetimeRfc3339nano at formatted
  split at formatted
  · next w shifted => exact ⟨w, shifted⟩
  · simp at formatted

end Records

section Texts

variable {deps : List Dependency}

def canonicalText (time : DateTime → JsonValue) (deps : List Dependency) : Text :=
  dumps (.arr (deps.map (dependencyRecord time)))

theorem dependenciesText_dict (deps : List Dependency) :
    dependenciesText (σ := Text) (deps.map fun d => .dict d.dump) =
      .ok (canonicalText date deps) := by
  have canonical : (deps.map fun d => Form.dict d.dump).mapM (depToCanonical (σ := Text)) =
      .ok (deps.map (dependencyRecord date)) := by
    rw [List.mapM_map]
    exact mapM_ok fun d _ => depToCanonical_dict d
  rw [dependenciesText, canonical]
  rfl

theorem dependenciesText_object
    (utc : ∀ d ∈ deps, ∀ e ∈ d.evaluations, ∃ w, e.evaluatedAt.utcWall = some w) :
    dependenciesText (deps.map .object) = .ok (canonicalText zuluDate deps) := by
  have canonical : (deps.map Form.object).mapM depToCanonical =
      .ok (deps.map (dependencyRecord zuluDate)) := by
    rw [List.mapM_map]
    exact mapM_ok fun d hd => depToCanonical_object (utc d hd)
  rw [dependenciesText, canonical]
  rfl

theorem utc_of_dependenciesText_object {t : Text}
    (ok : dependenciesText (deps.map .object) = .ok t) :
    ∀ d ∈ deps, ∀ e ∈ d.evaluations, ∃ w, e.evaluatedAt.utcWall = some w := by
  intro d hd
  obtain ⟨vs, canonical, _⟩ := bind_eq_ok.mp ok
  obtain ⟨v, object⟩ := ok_of_mapM_ok canonical (List.mem_map_of_mem hd)
  exact utc_of_depToCanonical_object object

theorem scalar_entry {present : Bool} {k : String} {v : JsonValue} (h : scalarStrings v)
    {p : String × JsonValue} (hp : p ∈ entry present k v) : scalarStrings p.2 := by
  unfold entry at hp
  split at hp
  · rw [List.mem_singleton.mp hp]
    exact h
  · simp at hp

theorem scalar_evaluationRecord (e : DependencyEvaluation) (t : Text) :
    scalarStrings (evaluationRecord e (text t)) := by
  refine scalarStrings_record fun p hp => ?_
  simp only [List.mem_cons, List.mem_append, List.not_mem_nil, or_false] at hp
  rcases hp with rfl | hp | rfl | rfl
  · exact scalarText_raw _
  · exact scalar_entry (scalarStrings_optText _) hp
  · exact scalarText_raw _
  · exact scalarText_raw _

theorem scalar_dependencyRecord (time : DateTime → Text) (d : Dependency) :
    scalarStrings (dependencyRecord (fun t => text (time t)) d) := by
  have evaluations : scalarStrings (.arr (d.evaluations.map fun e =>
      evaluationRecord e (text (time e.evaluatedAt)))) := by
    simp only [scalarStrings, stringsAll_arr, List.all_eq_true, List.mem_map]
    rintro _ ⟨e, _, rfl⟩
    exact scalar_evaluationRecord e _
  refine scalarStrings_record fun p hp => ?_
  rcases List.mem_cons.mp hp with rfl | hp
  · exact scalarStrings_optText _
  · rcases List.mem_cons.mp hp with rfl | hp
    · exact scalarText_raw _
    · exact scalar_entry evaluations hp

theorem nodup_evaluationRecord (e : DependencyEvaluation) (v : JsonValue) :
    ((("evaluation_type", text e.evaluationType) ::
      (entry (truthy (opt text e.evaluationPolicy)) "evaluation_policy"
          (opt text e.evaluationPolicy) ++
        [("evaluation_result", text e.evaluationResult), ("evaluated_at", v)])).map
          Prod.fst).Nodup := by
  unfold entry
  split <;> simp

theorem nodup_dependencyRecord (d : Dependency) (v : JsonValue) :
    ((("system_uri", opt text d.systemUri) :: ("task_id", text d.taskId) ::
      entry (d.evaluations ≠ []) "evaluations" v).map Prod.fst).Nodup := by
  unfold entry
  split <;> simp

/-- Evaluations with one canonical record, for times that agree: to have no policy is to
have the empty one. -/
structure EvaluationsAgree (R : DateTime → DateTime → Prop) (a b : DependencyEvaluation) :
    Prop where
  evaluationType : a.evaluationType = b.evaluationType
  evaluationPolicy : a.evaluationPolicy.getD [] = b.evaluationPolicy.getD []
  evaluationResult : a.evaluationResult = b.evaluationResult
  evaluatedAt : R a.evaluatedAt b.evaluatedAt

/-- Dependencies with one canonical record: the challenge URL has no part in it. -/
structure DependenciesAgree (R : DateTime → DateTime → Prop) (a b : Dependency) : Prop where
  systemUri : a.systemUri = b.systemUri
  taskId : a.taskId = b.taskId
  evaluations : List.Forall₂ (EvaluationsAgree R) a.evaluations b.evaluations

theorem entry_policy (policy : Option Text) :
    entry (truthy (opt text policy)) "evaluation_policy" (opt text policy) =
      if policy.getD [] = [] then [] else [("evaluation_policy", text (policy.getD []))] := by
  rcases policy with _ | ⟨_ | ⟨c, t⟩⟩ <;> rfl

theorem sortKeys_text (t : Text) : sortKeys keyLe (text t) = text t := rfl

theorem text_inj {a b : Text} : text a = text b ↔ a = b := by
  simp [text, raw_injective.eq_iff]

theorem sortKeys_evaluationRecord {f g : DateTime → Text} {a b : DependencyEvaluation} :
    sortKeys keyLe (evaluationRecord a (text (f a.evaluatedAt))) =
        sortKeys keyLe (evaluationRecord b (text (g b.evaluatedAt))) ↔
      EvaluationsAgree (fun s t => f s = g t) a b := by
  constructor
  · intro same
    have fields := lookup_of_sortKeys_eq same (nodup_evaluationRecord a _)
      (nodup_evaluationRecord b _)
    have type := fields "evaluation_type"
    have policy := fields "evaluation_policy"
    have result := fields "evaluation_result"
    have time := fields "evaluated_at"
    simp only [entry_policy] at type policy result time
    by_cases ha : a.evaluationPolicy.getD [] = [] <;>
      by_cases hb : b.evaluationPolicy.getD [] = [] <;>
      simp [ha, hb, sortKeys_text, text_inj] at type policy result time
    · exact ⟨type, ha.trans hb.symm, result, time⟩
    · exact ⟨type, policy, result, time⟩
  · rintro ⟨type, policy, result, time⟩
    rw [evaluationRecord, evaluationRecord, entry_policy, entry_policy, type, policy, result, time]

theorem map_eq_map_iff {α β γ : Type} {f : α → γ} {g : β → γ} {xs : List α} {ys : List β} :
    xs.map f = ys.map g ↔ List.Forall₂ (fun a b => f a = g b) xs ys := by
  rw [← List.forall₂_eq_eq_eq, List.forall₂_map_left_iff, List.forall₂_map_right_iff]

theorem opt_text_inj {a b : Option Text} : opt text a = opt text b ↔ a = b := by
  cases a <;> cases b <;> simp [opt, text, raw_injective.eq_iff]

theorem sortKeys_optText (x : Option Text) : sortKeys keyLe (opt text x) = opt text x := by
  cases x <;> rfl

theorem sortKeys_evaluations {f g : DateTime → Text} {xs ys : List DependencyEvaluation} :
    sortKeys keyLe (.arr (xs.map fun e => evaluationRecord e (text (f e.evaluatedAt)))) =
        sortKeys keyLe (.arr (ys.map fun e => evaluationRecord e (text (g e.evaluatedAt)))) ↔
      List.Forall₂ (EvaluationsAgree fun s t => f s = g t) xs ys := by
  rw [sortKeys_arr, sortKeys_arr, Json.arr.injEq, List.map_map, List.map_map, map_eq_map_iff]
  simp only [Function.comp_apply, sortKeys_evaluationRecord]

theorem sortKeys_dependencyRecord {f g : DateTime → Text} {a b : Dependency} :
    sortKeys keyLe (dependencyRecord (fun t => text (f t)) a) =
        sortKeys keyLe (dependencyRecord (fun t => text (g t)) b) ↔
      DependenciesAgree (fun s t => f s = g t) a b := by
  constructor
  · intro same
    have fields := lookup_of_sortKeys_eq same (nodup_dependencyRecord a _)
      (nodup_dependencyRecord b _)
    have uri := fields "system_uri"
    have task := fields "task_id"
    have evaluations := fields "evaluations"
    simp [sortKeys_optText, opt_text_inj, sortKeys_text, text_inj] at uri task
    refine ⟨uri, task, sortKeys_evaluations.mp ?_⟩
    by_cases ha : a.evaluations = [] <;> by_cases hb : b.evaluations = [] <;>
      simp [entry, ha, hb, -sortKeys_arr] at evaluations
    · rw [ha, hb]
      rfl
    · exact evaluations
  · rintro ⟨uri, task, evaluations⟩
    have lengths := evaluations.length_eq
    have empty : a.evaluations = [] ↔ b.evaluations = [] := by
      rw [← List.length_eq_zero_iff, ← List.length_eq_zero_iff, lengths]
    have records := sortKeys_evaluations.mpr evaluations
    rw [dependencyRecord, dependencyRecord, uri, task]
    by_cases hb : b.evaluations = []
    · simp [entry, empty.mpr hb, hb, record, sortKeys_obj]
    · have ha : a.evaluations ≠ [] := fun h => hb (empty.mp h)
      simp only [record, sortKeys_obj, entry, ha, hb, ne_eq, not_false_eq_true, decide_true,
        if_true, List.map_cons, List.map_nil, records]

theorem scalar_records (f : DateTime → Text) (deps : List Dependency) :
    scalarStrings (.arr (deps.map (dependencyRecord fun t => text (f t)))) := by
  simp only [scalarStrings, stringsAll_arr, List.all_eq_true, List.mem_map]
  rintro _ ⟨d, _, rfl⟩
  exact scalar_dependencyRecord f d

/-- The canonical text binds the list of dependencies, with every time in it. -/
theorem canonicalText_eq_iff {f g : DateTime → Text} {xs ys : List Dependency} :
    canonicalText (fun t => text (f t)) xs = canonicalText (fun t => text (g t)) ys ↔
      List.Forall₂ (DependenciesAgree fun s t => f s = g t) xs ys := by
  have lists : canonicalText (fun t => text (f t)) xs = canonicalText (fun t => text (g t)) ys ↔
      xs.map (fun d => sortKeys keyLe (dependencyRecord (fun t => text (f t)) d)) =
        ys.map fun d => sortKeys keyLe (dependencyRecord (fun t => text (g t)) d) := by
    have texts : canonicalText (fun t => text (f t)) xs = canonicalText (fun t => text (g t)) ys ↔
        sortKeys keyLe (.arr (xs.map (dependencyRecord fun t => text (f t)))) =
          sortKeys keyLe (.arr (ys.map (dependencyRecord fun t => text (g t)))) := by
      constructor
      · exact sortKeys_eq_of_dumps_eq (scalar_records f xs) (scalar_records g ys)
      · intro same
        rw [canonicalText, canonicalText, dumps_eq_iff, wireForm, wireForm, same]
    rw [texts, sortKeys_arr, sortKeys_arr, Json.arr.injEq, List.map_map, List.map_map]
    rfl
  rw [lists, map_eq_map_iff]
  simp only [sortKeys_dependencyRecord]

theorem dependenciesText_unevaluated (unevaluated : ∀ d ∈ deps, d.evaluations = []) :
    dependenciesText (deps.map .object) =
      dependenciesText (σ := Text) (deps.map fun d => .dict d.dump) := by
  have vacuous {P : DependencyEvaluation → Prop} : ∀ d ∈ deps, ∀ e ∈ d.evaluations, P e :=
    fun d hd e he => absurd (unevaluated d hd ▸ he) List.not_mem_nil
  rw [dependenciesText_dict, dependenciesText_object vacuous]
  refine congrArg Except.ok (canonicalText_eq_iff.mpr (List.forall₂_same.mpr fun d hd => ?_))
  exact ⟨rfl, rfl, List.forall₂_same.mpr (vacuous d hd)⟩

/-- The two forms of a list of dependencies hash alike exactly when nothing in it has an
evaluation. -/
theorem forms_hash_alike_iff
    (injective : Set.InjOn sha256 {t | dependenciesText (deps.map .object) = .ok t ∨
      dependenciesText (σ := Text) (deps.map fun d => .dict d.dump) = .ok t}) :
    computeDependenciesHash (deps.map .object) =
        computeDependenciesHash (σ := Text) (deps.map fun d => .dict d.dump) ↔
      ∀ d ∈ deps, d.evaluations = [] := by
  constructor
  · intro same d hd
    unfold computeDependenciesHash at same
    rw [dependenciesText_dict] at same injective
    cases object : dependenciesText (deps.map .object) with
    | error err =>
      rw [object] at same
      simp [Except.map] at same
    | ok t =>
      rw [object] at same injective
      have hashes : sha256 t = sha256 (canonicalText date deps) :=
        List.append_cancel_left (Except.ok.inj same)
      have texts := injective (.inl rfl) (.inr rfl) hashes
      have utc := utc_of_dependenciesText_object object
      have rendered := Except.ok.inj (object.symm.trans (dependenciesText_object utc))
      refine List.eq_nil_iff_forall_not_mem.mpr fun e he => ?_
      have agree := List.forall₂_same.mp (canonicalText_eq_iff.mp (rendered.symm.trans texts)) d hd
      have times := (List.forall₂_same.mp agree.evaluations e he).evaluatedAt
      obtain ⟨w, shifted⟩ := utc d hd e he
      rw [shifted] at times
      exact isoformat_ne_zuluText _ _ times.symm
  · intro unevaluated
    rw [computeDependenciesHash, computeDependenciesHash,
      dependenciesText_unevaluated unevaluated]

def sampleDependency : Dependency where
  systemUri := some "https://x/systems/s".toList
  taskId := "t".toList
  challengeUrl := none
  evaluations := [
    { evaluationType := "integrity".toList
      evaluationPolicy := none
      evaluationResult := "verified".toList
      evaluatedAt := noon }]

/-- Noon is dumped with `+00:00` and hashed with `Z`. -/
theorem evaluation_hashes_differ :
    computeDependenciesHash ([sampleDependency].map .object) ≠
      computeDependenciesHash (σ := Text) ([sampleDependency].map fun d => .dict d.dump) := by
  have differ : (computeDependenciesHash ([sampleDependency].map .object)).toOption ≠
      (computeDependenciesHash (σ := Text)
        ([sampleDependency].map fun d => .dict d.dump)).toOption := by
    decide +kernel
  exact fun same => differ (congrArg Except.toOption same)

theorem unevaluated_hashes_alike :
    computeDependenciesHash ([{ sampleDependency with evaluations := [] }].map .object) =
      computeDependenciesHash (σ := Text)
        ([{ sampleDependency with evaluations := [] }].map fun d => .dict d.dump) := by
  have unevaluated : ∀ d ∈ [{ sampleDependency with evaluations := [] }],
      d.evaluations = [] := by simp
  refine (forms_hash_alike_iff ?_).mpr unevaluated
  rw [dependenciesText_unevaluated unevaluated]
  rintro a (ha | ha) b (hb | hb) _ <;> exact Except.ok.inj (ha.symm.trans hb)

end Texts

section Identity

theorem forall_of_forall₂ {α β : Type} {R : α → β → Prop} {P : α → Prop} {Q : β → Prop}
    {xs : List α} {ys : List β} (related : List.Forall₂ R xs ys) (holds : ∀ a ∈ xs, P a)
    (carry : ∀ a b, R a b → P a → Q b) : ∀ b ∈ ys, Q b := by
  induction related with
  | nil => simp
  | @cons a b xs ys head _ ih =>
    obtain ⟨first, rest⟩ := List.forall_mem_cons.mp holds
    exact List.forall_mem_cons.mpr ⟨carry a b head first, ih rest⟩

theorem utcWall_eq_ofMicros (d : DateTime) : d.utcWall = Wall.ofMicros d.instant := by
  unfold DateTime.utcWall DateTime.instant
  cases d.offset with
  | none => rw [Int.sub_zero, Wall.ofMicros_micros]
  | some o => rfl

theorem zuluDate_eq_iff {s t : DateTime} {w : Wall} (shifted : s.utcWall = some w) :
    (s.utcWall.map zuluText).getD [] = (t.utcWall.map zuluText).getD [] ↔
      s.instant = t.instant := by
  constructor
  · intro same
    rw [shifted] at same
    cases other : t.utcWall with
    | none =>
      rw [other] at same
      exact absurd (congrArg List.length same) (by simp [zuluText])
    | some v =>
      rw [other] at same
      obtain rfl : w = v := zuluText_injective same
      exact (DateTime.micros_utcWall shifted).symm.trans (DateTime.micros_utcWall other)
  · intro same
    rw [utcWall_eq_ofMicros s, utcWall_eq_ofMicros t, same]

/-- The text hashed identifies the list of dependencies, up to what is no part of it: the
challenge URLs, an empty policy, and how the instant of an evaluation is written. -/
theorem dependenciesText_eq_iff {xs ys : List Dependency} {hashed : Text}
    (computed : dependenciesText (xs.map .object) = .ok hashed) :
    dependenciesText (ys.map .object) = .ok hashed ↔
      List.Forall₂ (DependenciesAgree fun s t => s.instant = t.instant) xs ys := by
  have utc := utc_of_dependenciesText_object computed
  obtain rfl : canonicalText zuluDate xs = hashed :=
    Except.ok.inj ((dependenciesText_object utc).symm.trans computed)
  constructor
  · intro computed'
    have utc' := utc_of_dependenciesText_object computed'
    have same := Except.ok.inj (computed'.symm.trans (dependenciesText_object utc'))
    refine ((List.forall₂_and_left _ _).mpr ⟨utc, canonicalText_eq_iff.mp same⟩).imp ?_
    rintro a b ⟨times, uri, task, evaluations⟩
    refine ⟨uri, task, ((List.forall₂_and_left _ _).mpr ⟨times, evaluations⟩).imp ?_⟩
    rintro e e' ⟨⟨w, shifted⟩, type, policy, result, time⟩
    exact ⟨type, policy, result, (zuluDate_eq_iff shifted).mp time⟩
  · intro agree
    have rendered : ∀ {s t : DateTime}, s.instant = t.instant → s.utcWall = t.utcWall := by
      intro s t same
      rw [utcWall_eq_ofMicros, utcWall_eq_ofMicros, same]
    have utc' : ∀ d ∈ ys, ∀ e ∈ d.evaluations, ∃ w, e.evaluatedAt.utcWall = some w := by
      refine forall_of_forall₂ agree utc fun a b same times => ?_
      exact forall_of_forall₂ same.evaluations times fun e e' same ⟨w, shifted⟩ =>
        ⟨w, rendered same.evaluatedAt ▸ shifted⟩
    rw [dependenciesText_object utc']
    refine congrArg Except.ok (canonicalText_eq_iff.mpr (agree.imp ?_)).symm
    rintro a b ⟨uri, task, evaluations⟩
    refine ⟨uri, task, evaluations.imp ?_⟩
    rintro e e' ⟨type, policy, result, time⟩
    exact ⟨type, policy, result, by rw [rendered time]⟩

def parisDependency : Dependency :=
  { sampleDependency with
    challengeUrl := some "https://paris/".toList
    evaluations := sampleDependency.evaluations.map fun e =>
      { e with
        evaluationPolicy := some []
        evaluatedAt := ⟨january 13, some ⟨3600000000, by decide⟩⟩ } }

theorem parisDependency_hashed_alike :
    ∃ hashed, dependenciesText ([sampleDependency].map .object) = .ok hashed ∧
      dependenciesText ([parisDependency].map .object) = .ok hashed := by
  have computed : dependenciesText ([sampleDependency].map .object) =
      .ok (canonicalText zuluDate [sampleDependency]) := by
    refine dependenciesText_object fun d hd e he => ?_
    obtain rfl := List.mem_singleton.mp hd
    obtain rfl := List.mem_singleton.mp he
    exact ⟨noon.wall, utcWall_utcAt noon.wall⟩
  refine ⟨_, computed, (dependenciesText_eq_iff computed).mpr (.cons ⟨rfl, rfl, ?_⟩ .nil)⟩
  exact .cons ⟨rfl, rfl, rfl, by decide⟩ .nil

end Identity

end AgentTrust.DependencyForms
