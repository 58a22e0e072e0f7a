import AgentTrust.Hashing

/-! What the proof hash binds. Its message joins free-form fields, hashes and a
timestamp text with `|`, in two arities. Read from the right, the timestamp and the
hash fields come apart; the system URI and the task id only do so where the task id
holds no `|`. The timestamp text names the wall reading, and names the instant
exactly for timestamps in UTC. -/

namespace AgentTrust.ProofHash

open TextCode PyText Gregorian PyDateTime PyValue Sha256 Models Hashing

section Fields

structure ProofFields where
  systemUri : PyStr
  taskId : PyStr
  invocationHash : PyStr
  outcomeHash : PyStr
  dependenciesHash : Option PyStr
  timestamp : DateTime

namespace ProofFields

def message (f : ProofFields) : PyStr :=
  proofMessage f.systemUri f.taskId f.invocationHash f.outcomeHash f.dependenciesHash f.timestamp

/-- The dependencies hash in use: `None` and `""` select the legacy formula. -/
def dependencies (f : ProofFields) : Option PyStr := f.dependenciesHash.filter (· ≠ [])

def identity (f : ProofFields) : PyStr := f.systemUri ++ pipe :: f.taskId

def front (f : ProofFields) : PyStr :=
  match f.dependencies with
  | some h => (f.identity ++ pipe :: f.invocationHash) ++ pipe :: f.outcomeHash ++ pipe :: h
  | none => (f.identity ++ pipe :: f.invocationHash) ++ pipe :: f.outcomeHash

end ProofFields

def prefixedHash (digits : Text) (h : PyStr) : Bool :=
  h.take 7 = raw hashPrefix && (h.drop 7).length = 64 &&
    (h.drop 7).all fun c => (raw digits).contains c

def wellFormedHash (h : PyStr) : Bool := prefixedHash hexChars h

structure ProofFields.WellFormed (f : ProofFields) : Prop where
  invocationHash : wellFormedHash f.invocationHash
  outcomeHash : wellFormedHash f.outcomeHash
  dependencies : ∀ h ∈ f.dependencies, wellFormedHash h
  utc : f.timestamp.offset = some utcOffset

structure ProofFields.Delimited (f : ProofFields) : Prop where
  invocationHash : pipe ∉ f.invocationHash
  outcomeHash : pipe ∉ f.outcomeHash
  dependencies : ∀ h ∈ f.dependencies, pipe ∉ h
  utc : f.timestamp.offset = some utcOffset

/-- Equal field by field, an absent and an empty dependencies hash identified. -/
structure ProofFields.Same (f g : ProofFields) : Prop where
  systemUri : f.systemUri = g.systemUri
  taskId : f.taskId = g.taskId
  invocationHash : f.invocationHash = g.invocationHash
  outcomeHash : f.outcomeHash = g.outcomeHash
  dependencies : f.dependencies = g.dependencies
  timestamp : f.timestamp = g.timestamp

/-- A task id without `|`, and no system URI with `|` before a task id that is itself
a hash. -/
def ProofFields.Unambiguous (f : ProofFields) : Prop :=
  pipe ∉ f.taskId ∧ (pipe ∉ f.systemUri ∨ ¬ wellFormedHash f.taskId)

end Fields

section Decoding

variable {f g : ProofFields}

theorem pipe_not_mem_hash {digits : Text} {h : PyStr} (wf : prefixedHash digits h)
    (absent : '|' ∉ digits) : pipe ∉ h := by
  simp only [prefixedHash, Bool.and_eq_true, decide_eq_true_eq, List.all_eq_true,
    List.contains_iff_mem] at wf
  intro member
  rw [← List.take_append_drop 7 h, List.mem_append, wf.1.1] at member
  rcases member with member | member
  · exact absurd member (by decide)
  · obtain ⟨c, hc, same⟩ := List.mem_map.mp (wf.2 _ member)
    exact absent (ofChar_injective same ▸ hc)

theorem ProofFields.WellFormed.delimited (hf : f.WellFormed) : f.Delimited where
  invocationHash := pipe_not_mem_hash hf.invocationHash (by decide)
  outcomeHash := pipe_not_mem_hash hf.outcomeHash (by decide)
  dependencies := fun h hd => pipe_not_mem_hash (hf.dependencies h hd) (by decide)
  utc := hf.utc

theorem prefixedHash_sha256 {digits : Text} (hex : ∀ c ∈ hexChars, c ∈ digits) (t : Text) :
    prefixedHash digits (raw (hashPrefix ++ sha256 t)) := by
  have split : raw (hashPrefix ++ sha256 t) = raw hashPrefix ++ raw (sha256 t) := List.map_append
  have width : (raw hashPrefix).length = 7 := by decide
  have take : (raw (hashPrefix ++ sha256 t)).take 7 = raw hashPrefix := by
    rw [split, List.take_left' width]
  have drop : (raw (hashPrefix ++ sha256 t)).drop 7 = raw (sha256 t) := by
    rw [split, List.drop_left' width]
  have member : ∀ c ∈ raw (sha256 t), c ∈ raw digits := by
    intro c hc
    obtain ⟨x, hx, rfl⟩ := List.mem_map.mp hc
    exact List.mem_map_of_mem (hex x (hex_of_mem_sha256 hx))
  simp only [prefixedHash, take, drop, Bool.and_eq_true, decide_eq_true_eq, List.all_eq_true,
    List.contains_iff_mem]
  exact ⟨⟨trivial, by simp [raw]⟩, member⟩

theorem pipe_not_mem_secondsText (w : Wall) : '|' ∉ secondsText w := by
  have digits : ∀ w n, '|' ∉ zfill w n := fun w n h =>
    absurd (digit_of_mem_zfill h) (by decide)
  simp [secondsText, dateText, clockText, digits]

theorem pipe_not_mem_timestampText (t : DateTime) : pipe ∉ raw (timestampText t) := by
  have digits : ∀ n, '|' ∉ fracText n := fun n h =>
    absurd (digit_of_mem_zfill ((List.rdropWhile_prefix _ _).subset h)) (by decide)
  have plain : '|' ∉ timestampText t := by
    rw [timestampText, zuluText, List.mem_append]
    rintro (h | h)
    · exact pipe_not_mem_secondsText _ h
    · split at h <;> simp [digits] at h
  intro h
  obtain ⟨c, hc, same⟩ := List.mem_map.mp h
  exact plain (ofChar_injective same ▸ hc)

theorem message_eq (f : ProofFields) :
    f.message = f.front ++ pipe :: raw (timestampText f.timestamp) := by
  unfold ProofFields.message ProofFields.front proofMessage ProofFields.dependencies
    ProofFields.identity
  generalize f.dependenciesHash.filter (· ≠ []) = used
  cases used <;> simp

theorem timestampText_inj {t u : DateTime} (ht : t.offset = some utcOffset)
    (hu : u.offset = some utcOffset) (same : timestampText t = timestampText u) : t = u :=
  DateTime.ext (zuluText_injective same) (ht.trans hu.symm)

theorem front_eq_of_message (same : f.message = g.message) :
    f.front = g.front ∧ timestampText f.timestamp = timestampText g.timestamp := by
  rw [message_eq, message_eq] at same
  obtain ⟨front, text⟩ := append_sep_inj_last (pipe_not_mem_timestampText _)
    (pipe_not_mem_timestampText _) same
  exact ⟨front, raw_injective text⟩

theorem fields_of_front_legacy (hf : f.Delimited) (hg : g.Delimited)
    (legacy : f.dependencies = none) (legacy' : g.dependencies = none)
    (same : f.front = g.front) :
    f.identity = g.identity ∧ f.invocationHash = g.invocationHash ∧
      f.outcomeHash = g.outcomeHash := by
  simp only [ProofFields.front, legacy, legacy'] at same
  obtain ⟨rest, outcome⟩ := append_sep_inj_last hf.outcomeHash hg.outcomeHash same
  obtain ⟨identity, invocation⟩ := append_sep_inj_last hf.invocationHash hg.invocationHash rest
  exact ⟨identity, invocation, outcome⟩

theorem fields_of_front_new (hf : f.Delimited) (hg : g.Delimited) {d e : PyStr}
    (hd : f.dependencies = some d) (he : g.dependencies = some e) (same : f.front = g.front) :
    f.identity = g.identity ∧ f.invocationHash = g.invocationHash ∧
      f.outcomeHash = g.outcomeHash ∧ d = e := by
  simp only [ProofFields.front, hd, he] at same
  obtain ⟨rest, last⟩ := append_sep_inj_last (hf.dependencies d hd) (hg.dependencies e he) same
  obtain ⟨rest, outcome⟩ := append_sep_inj_last hf.outcomeHash hg.outcomeHash rest
  obtain ⟨identity, invocation⟩ := append_sep_inj_last hf.invocationHash hg.invocationHash rest
  exact ⟨identity, invocation, outcome, last⟩

theorem mixed_front (hf : f.Delimited) (hg : g.Delimited) {d : PyStr}
    (hd : f.dependencies = some d) (legacy : g.dependencies = none) (task : pipe ∉ g.taskId)
    (same : f.front = g.front) : g.taskId = f.invocationHash ∧ pipe ∈ g.systemUri := by
  simp only [ProofFields.front, hd, legacy] at same
  obtain ⟨rest, _⟩ := append_sep_inj_last (hf.dependencies d hd) hg.outcomeHash same
  obtain ⟨rest, _⟩ := append_sep_inj_last hf.outcomeHash hg.invocationHash rest
  obtain ⟨uri, taskId⟩ := append_sep_inj_last hf.invocationHash task rest
  exact ⟨taskId.symm, uri ▸ by simp [ProofFields.identity]⟩

theorem identity_inj (hf : pipe ∉ f.taskId) (hg : pipe ∉ g.taskId)
    (same : f.identity = g.identity) : f.systemUri = g.systemUri ∧ f.taskId = g.taskId :=
  append_sep_inj_last hf hg same

theorem fields_of_message (hf : f.Delimited) (hg : g.Delimited)
    (formula : f.dependencies.isSome = g.dependencies.isSome) (same : f.message = g.message) :
    f.identity = g.identity ∧ f.invocationHash = g.invocationHash ∧
      f.outcomeHash = g.outcomeHash ∧ f.dependencies = g.dependencies := by
  obtain ⟨front, _⟩ := front_eq_of_message same
  cases hd : f.dependencies with
  | none =>
    have legacy : g.dependencies = none := by simpa [hd] using formula
    obtain ⟨identity, invocation, outcome⟩ := fields_of_front_legacy hf hg hd legacy front
    exact ⟨identity, invocation, outcome, legacy.symm⟩
  | some d =>
    obtain ⟨e, he⟩ : ∃ e, g.dependencies = some e :=
      Option.isSome_iff_exists.mp (formula ▸ by simp [hd])
    obtain ⟨identity, invocation, outcome, last⟩ := fields_of_front_new hf hg hd he front
    exact ⟨identity, invocation, outcome, by rw [he, last]⟩

/-- The task id of `f` is no hash of `g` behind a system URI that holds `|`. -/
def ProofFields.NotMixed (f g : ProofFields) : Prop :=
  pipe ∉ f.systemUri ∨ f.taskId ≠ g.invocationHash

theorem formula_of_message (hf : f.Delimited) (hg : g.Delimited) (taskf : pipe ∉ f.taskId)
    (taskg : pipe ∉ g.taskId) (uf : f.NotMixed g) (ug : g.NotMixed f)
    (same : f.message = g.message) : f.dependencies.isSome = g.dependencies.isSome := by
  obtain ⟨front, _⟩ := front_eq_of_message same
  cases hd : f.dependencies with
  | none =>
    cases he : g.dependencies with
    | none => rfl
    | some e =>
      obtain ⟨hash, inside⟩ := mixed_front hg hf he hd taskf front.symm
      exact (uf.elim (fun absent => absent inside) fun apart => apart hash).elim
  | some d =>
    cases he : g.dependencies with
    | some e => rfl
    | none =>
      obtain ⟨hash, inside⟩ := mixed_front hf hg hd he taskg front
      exact (ug.elim (fun absent => absent inside) fun apart => apart hash).elim

theorem same_of_message (hf : f.Delimited) (hg : g.Delimited)
    (formula : f.dependencies.isSome = g.dependencies.isSome) (taskf : pipe ∉ f.taskId)
    (taskg : pipe ∉ g.taskId) (same : f.message = g.message) : f.Same g := by
  obtain ⟨identity, invocation, outcome, dependencies⟩ := fields_of_message hf hg formula same
  obtain ⟨uri, task⟩ := identity_inj taskf taskg identity
  exact ⟨uri, task, invocation, outcome, dependencies,
    timestampText_inj hf.utc hg.utc (front_eq_of_message same).2⟩

theorem ProofFields.Unambiguous.notMixed (uf : f.Unambiguous) (hg : g.WellFormed) :
    f.NotMixed g :=
  uf.2.imp_right fun plain same => plain (same ▸ hg.invocationHash)

/-- The proof hash binds its fields: always the timestamp; with one formula every hash
and the joined text of the free-form fields; everything where task ids are plain. -/
theorem message_binds (hf : f.WellFormed) (hg : g.WellFormed) (same : f.message = g.message) :
    f.timestamp = g.timestamp ∧
    (f.dependencies.isSome = g.dependencies.isSome →
      f.identity = g.identity ∧ f.invocationHash = g.invocationHash ∧
        f.outcomeHash = g.outcomeHash ∧ f.dependencies = g.dependencies ∧
        (pipe ∉ f.taskId → pipe ∉ g.taskId → f.Same g)) ∧
    (f.Unambiguous → g.Unambiguous → f.Same g) := by
  refine ⟨timestampText_inj hf.utc hg.utc (front_eq_of_message same).2, ?_, ?_⟩
  · intro formula
    obtain ⟨identity, invocation, outcome, dependencies⟩ :=
      fields_of_message hf.delimited hg.delimited formula same
    exact ⟨identity, invocation, outcome, dependencies,
      fun taskf taskg => same_of_message hf.delimited hg.delimited formula taskf taskg same⟩
  · intro uf ug
    have formula := formula_of_message hf.delimited hg.delimited uf.1 ug.1 (uf.notMixed hg)
      (ug.notMixed hf) same
    exact same_of_message hf.delimited hg.delimited formula uf.1 ug.1 same

def zeroHash : PyStr := raw (hashPrefix ++ List.replicate 64 '0')

theorem wellFormed_zeroHash : wellFormedHash zeroHash := by decide

def fieldsAt (systemUri taskId : PyStr) (dependenciesHash : Option PyStr) : ProofFields :=
  ⟨systemUri, taskId, zeroHash, zeroHash, dependenciesHash, noon⟩

theorem fieldsAt_wellFormed (systemUri taskId : PyStr) {dependenciesHash : Option PyStr}
    (h : ∀ h ∈ dependenciesHash, h = zeroHash ∨ h = []) :
    (fieldsAt systemUri taskId dependenciesHash).WellFormed where
  invocationHash := wellFormed_zeroHash
  outcomeHash := wellFormed_zeroHash
  dependencies := fun d hd => by
    obtain ⟨given, present⟩ := Option.mem_filter_iff.mp hd
    rcases h d given with rfl | rfl
    · exact wellFormed_zeroHash
    · simp at present
  utc := rfl

/-- A `|` moves between the free-form fields, and a legacy message can be a new one. -/
theorem message_collision :
    (fieldsAt (lit "a|b") (lit "c") none).WellFormed ∧
    (fieldsAt (lit "a") (lit "b|c") none).WellFormed ∧
    (fieldsAt (lit "a|b") (lit "c") none).message =
      (fieldsAt (lit "a") (lit "b|c") none).message ∧
    ¬ (fieldsAt (lit "a|b") (lit "c") none).Same (fieldsAt (lit "a") (lit "b|c") none) ∧
    (fieldsAt (lit "a") (lit "b") (some zeroHash)).WellFormed ∧
    (fieldsAt (lit "a|b") zeroHash none).WellFormed ∧
    (fieldsAt (lit "a") (lit "b") (some zeroHash)).message =
      (fieldsAt (lit "a|b") zeroHash none).message := by
  refine ⟨fieldsAt_wellFormed _ _ (by simp), fieldsAt_wellFormed _ _ (by simp), rfl, ?_,
    fieldsAt_wellFormed _ _ (by simp), fieldsAt_wellFormed _ _ (by simp), rfl⟩
  intro same
  exact absurd same.systemUri (by decide)

theorem message_binds_noon :
    (fieldsAt (lit "https://x/systems/s") (lit "t") none).Same
      (fieldsAt (lit "https://x/systems/s") (lit "t") (some [])) := by
  have wellFormed : ∀ dependenciesHash ∈ [none, some []],
      (fieldsAt (lit "https://x/systems/s") (lit "t") dependenciesHash).WellFormed := by
    intro dependenciesHash given
    refine fieldsAt_wellFormed _ _ fun h present => .inr ?_
    rcases List.mem_pair.mp given with rfl | rfl
    · simp at present
    · exact (Option.some.inj present).symm
  exact (message_binds (wellFormed none (by simp)) (wellFormed (some []) (by simp)) rfl).2.2
    ⟨by decide, .inl (by decide)⟩ ⟨by decide, .inl (by decide)⟩

end Decoding

section Instants

theorem formatDatetime_eq_timestampText {t : DateTime} (aware : t.offset.isSome) :
    formatDatetimeRfc3339nano t = .ok (timestampText t) ↔ t.offset = some utcOffset := by
  obtain ⟨o, offset⟩ := Option.isSome_iff_exists.mp aware
  constructor
  · intro same
    unfold formatDatetimeRfc3339nano at same
    split at same
    · next w shifted =>
      have wall : w = t.wall := zuluText_injective (Except.ok.inj same)
      have instant := DateTime.micros_utcWall shifted
      rw [wall, DateTime.instant, offset] at instant
      rw [offset, Option.some.injEq]
      apply Subtype.ext
      simp only at instant
      change o.val = 0
      omega
    · simp at same
  · intro utc
    have here : t = utcAt t.wall := DateTime.ext rfl utc
    have shifted : t.utcWall = some t.wall := by
      rw [here]
      exact utcWall_utcAt t.wall
    rw [formatDatetimeRfc3339nano, shifted]
    rfl

theorem eq_of_instant_utc {t u : DateTime} (ht : t.offset = some utcOffset)
    (hu : u.offset = some utcOffset) (same : t.instant = u.instant) : t = u := by
  have wall : t.wall = u.wall := by
    apply Wall.micros_injective
    simp only [DateTime.instant, ht, hu, utcOffset, Int.sub_zero, Int.natCast_inj] at same
    exact same
  exact DateTime.ext wall (ht.trans hu.symm)

theorem timestamp_of_proofMessage {systemUri taskId invocationHash outcomeHash : PyStr}
    {dependenciesHash : Option PyStr} {t u : DateTime}
    (same : proofMessage systemUri taskId invocationHash outcomeHash dependenciesHash t =
      proofMessage systemUri taskId invocationHash outcomeHash dependenciesHash u) :
    timestampText t = timestampText u :=
  (front_eq_of_message (f := ⟨systemUri, taskId, invocationHash, outcomeHash, dependenciesHash, t⟩)
    (g := ⟨systemUri, taskId, invocationHash, outcomeHash, dependenciesHash, u⟩) same).2

/-- The proof hash depends on the instant alone exactly for timestamps in UTC. -/
theorem proofHash_instant_iff (systemUri taskId invocationHash outcomeHash : PyStr)
    (dependenciesHash : Option PyStr) {t u : DateTime} (ht : t.offset.isSome)
    (hu : u.offset.isSome) :
    (formatDatetimeRfc3339nano t = .ok (timestampText t) ∧
      formatDatetimeRfc3339nano u = .ok (timestampText u) ∧
      (t.instant = u.instant →
        computeProofHashParts systemUri taskId invocationHash outcomeHash dependenciesHash t =
          computeProofHashParts systemUri taskId invocationHash outcomeHash dependenciesHash u) ∧
      (t.instant ≠ u.instant →
        proofMessage systemUri taskId invocationHash outcomeHash dependenciesHash t ≠
          proofMessage systemUri taskId invocationHash outcomeHash dependenciesHash u)) ↔
    t.offset = some utcOffset ∧ u.offset = some utcOffset := by
  rw [formatDatetime_eq_timestampText ht, formatDatetime_eq_timestampText hu]
  constructor
  · rintro ⟨utc, utc', _⟩
    exact ⟨utc, utc'⟩
  · rintro ⟨utc, utc'⟩
    refine ⟨utc, utc', fun same => ?_, fun apart same => ?_⟩
    · rw [eq_of_instant_utc utc utc' same]
    · exact apart (by rw [timestampText_inj utc utc' (timestamp_of_proofMessage same)])

def noonEast : DateTime := ⟨january 14, some ⟨7200000000, by decide⟩⟩

theorem timestampText_east :
    noonEast.instant = noon.instant ∧
    formatDatetimeRfc3339nano noonEast ≠ .ok (timestampText noonEast) ∧
    proofMessage (lit "s") (lit "t") zeroHash zeroHash none noonEast ≠
      proofMessage (lit "s") (lit "t") zeroHash zeroHash none noon := by
  refine ⟨by decide, fun same => ?_, fun same => ?_⟩
  · exact absurd ((formatDatetime_eq_timestampText rfl).mp same) (by decide)
  · exact absurd (timestamp_of_proofMessage same) (by decide)

theorem proofHash_instant_noon :
    ¬ (formatDatetimeRfc3339nano noon = .ok (timestampText noon) ∧
      formatDatetimeRfc3339nano noonEast = .ok (timestampText noonEast) ∧
      (noon.instant = noonEast.instant →
        computeProofHashParts (lit "s") (lit "t") zeroHash zeroHash none noon =
          computeProofHashParts (lit "s") (lit "t") zeroHash zeroHash none noonEast) ∧
      (noon.instant ≠ noonEast.instant →
        proofMessage (lit "s") (lit "t") zeroHash zeroHash none noon ≠
          proofMessage (lit "s") (lit "t") zeroHash zeroHash none noonEast)) := by
  rw [proofHash_instant_iff (lit "s") (lit "t") zeroHash zeroHash none rfl rfl]
  decide

end Instants

end AgentTrust.ProofHash
