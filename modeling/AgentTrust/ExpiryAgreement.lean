import AgentTrust.HonestAgent
import AgentTrust.StoredJson

/-! Three readings of one expiry. `get` compares the instant that the text of a row
denotes; `list` and a GC pass compare the text itself with that of the clock. For a row
in UTC they differ at the expiry instant alone; for one in another zone wherever its
reading and its instant lie on different sides of the clock. -/

namespace AgentTrust.ExpiryAgreement

open JsonTree PyText PyJson Gregorian PyDateTime IsoFormat IsoOrder OrderedDict PyValue Models
  Exchange Storage SQLiteProofStore Tasks Publication HonestAgent StoredJson

variable {lib : Library}

section Table

def saveAll (lib : Library) (proofs : List StoredProof) : SQLiteProofStore :=
  proofs.foldl (fun store p => (save lib store p).toOption.getD store) Dict.empty

def WrittenFor (lib : Library) (proofs : List StoredProof) (taskId : Text) (row : Row) : Prop :=
  ∃ p ∈ proofs, p.proofData.task.taskId = taskId ∧ rowOf lib p = some row

theorem saveAll_row {proofs : List StoredProof} {taskId : Text} {row : Row}
    (present : Dict.get (saveAll lib proofs) taskId = some row) :
    WrittenFor lib proofs taskId row := by
  induction proofs using List.reverseRecOn with
  | nil => simp [saveAll] at present
  | append_singleton proofs p ih =>
    have older : Dict.get (saveAll lib proofs) taskId = some row →
        WrittenFor lib (proofs ++ [p]) taskId row := by
      intro present
      obtain ⟨q, member, written⟩ := ih present
      exact ⟨q, by simp [member], written⟩
    unfold saveAll at present
    rw [List.foldl_append] at present
    change Dict.get ((save lib (saveAll lib proofs) p).toOption.getD (saveAll lib proofs))
      taskId = some row at present
    cases saved : save lib (saveAll lib proofs) p with
    | error e =>
      rw [saved] at present
      exact older present
    | ok store =>
      rw [saved] at present
      obtain ⟨written, row_of, rfl⟩ := save_eq_ok saved
      by_cases same : p.proofData.task.taskId = taskId
      · change Dict.get (Dict.set _ _ _) taskId = some row at present
        rw [← same, Dict.get_set_self] at present
        obtain rfl := Option.some.inj present
        exact ⟨p, by simp, same, row_of⟩
      · exact older ((Dict.get_set_other _ same _).symm.trans present)

end Table

section Readings

variable {store : SQLiteProofStore} {taskId json : Text} {w now : Wall} {o : Offset}

def Expired (r : Except Exc (Option StoredProof)) : Prop :=
  ∃ e, r = .error e ∧ e.cls = .proofExpiredError

def Restored (lib : Library) (row : Row) : Prop := ∃ p, decodeRow lib row = .ok p

theorem mem_list_iff (now : Wall)
    (present : Dict.get store taskId = some ⟨json, isoformat ⟨w, some o⟩⟩) :
    taskId ∈ list store now ↔
      now.micros < w.micros ∨ now.micros = w.micros ∧ o ≠ utcOffset := by
  rw [mem_list, present, ← now_textBefore]
  simp

theorem collected_iff (now : Wall)
    (present : Dict.get store taskId = some ⟨json, isoformat ⟨w, some o⟩⟩) :
    Dict.get (gcPass store now) taskId = none ↔ w.micros < now.micros := by
  rw [get_gcPass, present, ← textBefore_now (o := o)]
  simp

theorem expired_iff (lib : Library) (now : Wall)
    (present : Dict.get store taskId = some ⟨json, isoformat ⟨w, some o⟩⟩) :
    Expired (get lib store taskId now).1 ↔
      (w.micros : Int) - (readOffset o).val < now.micros := by
  have instant : (readBack ⟨w, some o⟩).instant = (w.micros : Int) - (readOffset o).val := rfl
  rw [get_of_row present (rowExpiry_isoformat rfl json) rfl, instant]
  by_cases late : (w.micros : Int) - (readOffset o).val < now.micros
  · simp [late, Expired, expired]
  · cases decoded : decodeRow lib ⟨json, isoformat ⟨w, some o⟩⟩ with
    | ok p => simp [late, Expired, Except.map, Except.mapError]
    | error e => simp [late, Expired, Except.map, Except.mapError, failed]

theorem returned_iff (lib : Library) (now : Wall)
    (present : Dict.get store taskId = some ⟨json, isoformat ⟨w, some o⟩⟩) :
    (∃ q, (get lib store taskId now).1 = .ok (some q)) ↔
      Restored lib ⟨json, isoformat ⟨w, some o⟩⟩ ∧
        ¬ (w.micros : Int) - (readOffset o).val < now.micros := by
  have instant : (readBack ⟨w, some o⟩).instant = (w.micros : Int) - (readOffset o).val := rfl
  rw [get_of_row present (rowExpiry_isoformat rfl json) rfl, instant, Restored]
  by_cases late : (w.micros : Int) - (readOffset o).val < now.micros
  · simp [late]
  · cases decoded : decodeRow lib ⟨json, isoformat ⟨w, some o⟩⟩ with
    | ok p => simp [late, Except.map, Except.mapError]
    | error e => simp [late, Except.map, Except.mapError]

theorem kept_iff (now : Wall)
    (present : Dict.get store taskId = some ⟨json, isoformat ⟨w, some o⟩⟩) :
    Dict.get (gcPass store now) taskId = some ⟨json, isoformat ⟨w, some o⟩⟩ ↔
      ¬ w.micros < now.micros := by
  rw [← collected_iff now present, get_gcPass, present]
  simp [Option.filter_some]

end Readings

section Agreement

/-- What `list`, `get` and a GC pass say of a row at `now` fits together, and no pass deletes
a proof that has not expired. -/
structure Agree (lib : Library) (store : SQLiteProofStore) (taskId : Text) (now : Wall) : Prop where
  listed : taskId ∈ list store now ↔ ∃ p, (get lib store taskId now).1 = .ok (some p)
  collected : Dict.get (gcPass store now) taskId = none ↔ Expired (get lib store taskId now).1
  live : ∀ p row, Dict.get store taskId = some row → rowOf lib p = some row →
    now.micros < p.expiresAt.instant → Dict.get (gcPass store now) taskId = some row

/-- The reading of an expiry and its instant lie on one side of the clock. -/
def SameSide (w : Wall) (o : Offset) (now : Wall) : Prop :=
  if o = utcOffset then w ≠ now
  else (w.micros < now.micros ↔ (w.micros : Int) - (readOffset o).val < now.micros) ∧
    (w.micros < now.micros → (w.micros : Int) - o.val ≤ now.micros)

def Passed (w : Wall) (o : Offset) (now : Wall) : Prop :=
  if o = utcOffset then w.micros ≤ now.micros
  else w.micros < now.micros ∧ (w.micros : Int) - (readOffset o).val < now.micros ∧
    (w.micros : Int) - o.val ≤ now.micros

/-- The row's own text decides which of the two the clock has to meet. -/
def Settled (lib : Library) (row : Row) (now : Wall) : Prop :=
  ∃ w o, row.expiresAt = isoformat ⟨w, some o⟩ ∧
    (Restored lib row → SameSide w o now) ∧ (¬ Restored lib row → Passed w o now)

theorem settled_iff (lib : Library) (now : Wall) :
    Settled lib ⟨json, isoformat ⟨w, some o⟩⟩ now ↔
      (Restored lib ⟨json, isoformat ⟨w, some o⟩⟩ → SameSide w o now) ∧
        (¬ Restored lib ⟨json, isoformat ⟨w, some o⟩⟩ → Passed w o now) := by
  constructor
  · rintro ⟨v, p, text, settled⟩
    obtain ⟨rfl, same⟩ := DateTime.mk.inj (isoformat_injective text)
    obtain rfl := Option.some.inj same
    exact settled
  · exact fun settled => ⟨w, o, rfl, settled⟩

theorem ne_iff_micros (w now : Wall) : w ≠ now ↔ w.micros ≠ now.micros :=
  Wall.micros_injective.ne_iff.symm

theorem sameSide_iff (w now : Wall) (o : Offset) : SameSide w o now ↔
    ((now.micros < w.micros ∨ now.micros = w.micros ∧ o ≠ utcOffset) ↔
      ¬ (w.micros : Int) - (readOffset o).val < now.micros) ∧
    (w.micros < now.micros ↔ (w.micros : Int) - (readOffset o).val < now.micros) ∧
    (now.micros < (w.micros : Int) - o.val → ¬ w.micros < now.micros) := by
  unfold SameSide
  by_cases utc : o = utcOffset
  · have read : (readOffset utcOffset).val = 0 := rfl
    have zero : utcOffset.val = 0 := rfl
    rw [if_pos utc, ne_iff_micros, utc, read, zero]
    simp only [ne_eq, not_true_eq_false, and_false, or_false]
    omega
  · rw [if_neg utc]
    simp only [ne_eq, utc, not_false_eq_true, and_true]
    omega

theorem passed_iff (w now : Wall) (o : Offset) : Passed w o now ↔
    ¬ (now.micros < w.micros ∨ now.micros = w.micros ∧ o ≠ utcOffset) ∧
    (w.micros < now.micros ↔ (w.micros : Int) - (readOffset o).val < now.micros) ∧
    (now.micros < (w.micros : Int) - o.val → ¬ w.micros < now.micros) := by
  unfold Passed
  by_cases utc : o = utcOffset
  · have read : (readOffset utcOffset).val = 0 := rfl
    have zero : utcOffset.val = 0 := rfl
    rw [if_pos utc, utc, read, zero]
    simp only [ne_eq, not_true_eq_false, and_false, or_false]
    omega
  · rw [if_neg utc]
    simp only [ne_eq, utc, not_false_eq_true, and_true]
    omega

/-- Over any table of saved proofs the three agree on a row exactly as `Settled` says. -/
theorem agree_iff {proofs : List StoredProof} (aware : ∀ p ∈ proofs, p.expiresAt.offset.isSome)
    {taskId : Text} {row : Row} (present : Dict.get (saveAll lib proofs) taskId = some row)
    (now : Wall) : Agree lib (saveAll lib proofs) taskId now ↔ Settled lib row now := by
  obtain ⟨p, member, _, row_of⟩ := saveAll_row present
  obtain ⟨json, text⟩ := row
  obtain ⟨o, offset⟩ := Option.isSome_iff_exists.mp (aware p member)
  obtain ⟨_, expiresAt⟩ := rowOf_eq_some row_of
  have shape : p.expiresAt = ⟨p.expiresAt.wall, some o⟩ := DateTime.ext rfl offset
  generalize p.expiresAt.wall = w at shape
  obtain rfl : text = isoformat ⟨w, some o⟩ := by
    rw [← shape]
    exact expiresAt
  have live : (∀ q row, Dict.get (saveAll lib proofs) taskId = some row →
      rowOf lib q = some row → now.micros < q.expiresAt.instant →
        Dict.get (gcPass (saveAll lib proofs) now) taskId = some row) ↔
      (now.micros < (w.micros : Int) - o.val → ¬ w.micros < now.micros) := by
    constructor
    · intro live early
      refine (kept_iff now present).mp (live p _ present row_of ?_)
      rw [shape]
      exact early
    · intro live q row held written early
      obtain rfl := Option.some.inj (present.symm.trans held)
      have own : ⟨w, some o⟩ = q.expiresAt := isoformat_injective (rowOf_eq_some written).2
      rw [← own] at early
      exact (kept_iff now present).mpr (live early)
  have agreement : Agree lib (saveAll lib proofs) taskId now ↔
      (taskId ∈ list (saveAll lib proofs) now ↔
        ∃ p, (get lib (saveAll lib proofs) taskId now).1 = .ok (some p)) ∧
      (Dict.get (gcPass (saveAll lib proofs) now) taskId = none ↔
        Expired (get lib (saveAll lib proofs) taskId now).1) ∧
      ∀ q row, Dict.get (saveAll lib proofs) taskId = some row → rowOf lib q = some row →
        now.micros < q.expiresAt.instant →
          Dict.get (gcPass (saveAll lib proofs) now) taskId = some row :=
    ⟨fun ⟨listed, collected, live⟩ => ⟨listed, collected, live⟩,
      fun ⟨listed, collected, live⟩ => ⟨listed, collected, live⟩⟩
  rw [agreement, live, mem_list_iff now present, collected_iff now present,
    returned_iff lib now present, expired_iff lib now present, settled_iff, sameSide_iff,
    passed_iff]
  by_cases restored : Restored lib ⟨json, isoformat ⟨w, some o⟩⟩
  · simp only [restored, true_and, not_true_eq_false, false_implies, and_true, true_implies]
  · simp only [restored, false_and, iff_false, not_false_eq_true, false_implies, true_and,
      true_implies]

end Agreement

section Sample

def sampleUntil (expiresAt : DateTime) : StoredProof := sampleTaskDone.storedProof expiresAt

theorem sampleUntil_scalar (expiresAt : DateTime) :
    scalarStrings ((sampleUntil expiresAt).dump) := by
  have invocation : scalarStrings (.obj sampleTaskDone.invocation) := by decide
  have outcome : scalarStrings (.obj sampleTaskDone.outcome) := by decide
  exact scalarStrings_storedProof invocation outcome

theorem sampleUntil_shallow (expiresAt : DateTime) :
    (sampleUntil expiresAt).dump.depth ≤ textLibrary.nesting := by
  have depth : (sampleUntil expiresAt).dump.depth = 5 := rfl
  have limit : textLibrary.nesting = 200 := rfl
  rw [depth, limit]
  decide

theorem sampleUntil_saved (expiresAt : DateTime) :
    Dict.get (saveAll textLibrary [sampleUntil expiresAt]) sampleTask.str =
      some ⟨jsonText ((sampleUntil expiresAt).dump), isoformat expiresAt⟩ := by
  have row_of : rowOf textLibrary (sampleUntil expiresAt) =
      some ⟨jsonText ((sampleUntil expiresAt).dump), isoformat expiresAt⟩ := by
    exact rowOf_textLibrary (sampleUntil_scalar expiresAt)
  have table : saveAll textLibrary [sampleUntil expiresAt] =
      (save textLibrary Dict.empty (sampleUntil expiresAt)).toOption.getD Dict.empty := rfl
  rw [table, save_rowOf row_of]
  exact Dict.get_set_self _ _ _

theorem sampleUntil_restored {expiresAt : DateTime} (whole : MinuteZone expiresAt) :
    Restored textLibrary ⟨jsonText (sampleUntil expiresAt).dump, isoformat expiresAt⟩ := by
  have zones : (sampleUntil expiresAt).MinuteZones := by
    refine ⟨fun d hd => absurd hd List.not_mem_nil, ?_⟩
    simp only [List.forall_mem_cons, List.not_mem_nil, false_implies, implies_true, and_true]
    exact ⟨minuteZone_utcAt _, minuteZone_utcAt _, whole⟩
  have parsed := textLibrary_parseJson (textLibrary_dumpJson (sampleUntil_scalar expiresAt))
    (sampleUntil_shallow expiresAt)
  refine ⟨sampleUntil expiresAt, ?_⟩
  rw [decodeRow, parsed, Option.bind_some, StoredProofOf.validate_dump
    (StoredProofOf.readable_of_minuteZones readsIso_textLibrary.reads zones)]

/-- An expiry in UTC at one o'clock, looked at at noon. -/
theorem onePm_agrees :
    Agree textLibrary (saveAll textLibrary [sampleUntil onePm]) sampleTask.str noon.wall := by
  refine (agree_iff ?_ (sampleUntil_saved onePm) noon.wall).mpr ?_
  · simp only [List.mem_singleton, forall_eq]
    rfl
  · have restored := sampleUntil_restored (minuteZone_utcAt onePm.wall)
    refine ⟨onePm.wall, utcOffset, rfl, fun _ => ?_, fun not => absurd restored not⟩
    exact (sameSide_iff _ _ _).mpr (by decide)

def noonWest : DateTime := ⟨january 12, some ⟨-18000000000, by decide⟩⟩

/-- A GC pass at one o'clock deletes it, four hours before it expires. -/
theorem noonWest_collected :
    (noonWest.offset.isSome ∧
      Restored textLibrary ⟨jsonText (sampleUntil noonWest).dump, isoformat noonWest⟩) ∧
      (january 13).micros < noonWest.instant ∧
      Dict.get (saveAll textLibrary [sampleUntil noonWest]) sampleTask.str ≠ none ∧
      Dict.get (gcPass (saveAll textLibrary [sampleUntil noonWest]) (january 13))
        sampleTask.str = none ∧
      ¬ Agree textLibrary (saveAll textLibrary [sampleUntil noonWest]) sampleTask.str
        (january 13) := by
  have early : ((january 13).micros : Int) < noonWest.instant := by decide
  have collected : Dict.get (gcPass (saveAll textLibrary [sampleUntil noonWest]) (january 13))
      sampleTask.str = none := (collected_iff _ (sampleUntil_saved noonWest)).mpr (by decide)
  refine ⟨⟨rfl, sampleUntil_restored (by decide)⟩, early, ?_, collected, ?_⟩
  · rw [sampleUntil_saved]
    simp
  · intro agree
    have written : rowOf textLibrary (sampleUntil noonWest) =
        some ⟨jsonText (sampleUntil noonWest).dump, isoformat noonWest⟩ :=
      rowOf_textLibrary (sampleUntil_scalar noonWest)
    have kept := agree.live _ _ (sampleUntil_saved noonWest) written early
    rw [collected] at kept
    simp at kept

end Sample

end AgentTrust.ExpiryAgreement
