import AgentTrust.StoreRefinement
import AgentTrust.WriteHistory

/-! What the stores answer, told by the history of the operations on them alone. The proof
saved last under an id is returned until it expires, unless the id was deleted since; once
it has expired the first look reports it and later ones find nothing. Collections at any
other time leave no trace in the answers. -/

namespace AgentTrust.StoreHistory

open JsonTree PyText PyJson Gregorian PyDateTime IsoOrder OrderedDict PyValue Models Exchange
  Storage Tasks Publication HonestAgent ExpiryAgreement StoredJson StoreRefinement WriteHistory
open Storage.SQLiteProofStore (rowOf_eq_some)

section History

/-- The clock has passed the expiry; a naive expiry is never passed. -/
def late (now : Wall) (p : StoredProof) : Bool :=
  p.expiresAt.offset.isSome && decide (p.expiresAt.instant < now.micros)

def effect (taskId : Text) : Op × Wall → Effect StoredProof
  | (.save p, _) => if p.proofData.task.taskId = taskId then .put p else .keep fun _ => true
  | (.get id, now) => .keep fun p => !(decide (id = taskId) && late now p)
  | (.delete id, _) => if id = taskId then .remove else .keep fun _ => true
  | (.collect, now) => .keep fun p => !late now p

def Replaces (taskId : Text) (op : Op × Wall) : Prop :=
  (∃ p, op.1 = .save p ∧ p.proofData.task.taskId = taskId) ∨ op.1 = .delete taskId

def Notices (taskId : Text) (p : StoredProof) (op : Op × Wall) : Prop :=
  (op.1 = .get taskId ∨ op.1 = .collect) ∧ late op.2 p

/-- The run saves `p` under the id, and `later` are the operations that follow, none of which
saves or deletes the id. -/
structure SavedThen (run : List (Op × Wall)) (taskId : Text) (p : StoredProof)
    (later : List (Op × Wall)) : Prop where
  named : p.proofData.task.taskId = taskId
  saved : ∃ earlier now, run = earlier ++ (.save p, now) :: later
  kept : ∀ op ∈ later, ¬ Replaces taskId op

/-- `p` is the proof saved last under the id, and the id was not deleted since. -/
def SavedLast (run : List (Op × Wall)) (taskId : Text) (p : StoredProof) : Prop :=
  ∃ later, SavedThen run taskId p later

theorem effect_eq_put_iff {taskId : Text} {op : Op × Wall} {p : StoredProof} :
    effect taskId op = .put p ↔ op.1 = .save p ∧ p.proofData.task.taskId = taskId := by
  obtain ⟨op, now⟩ := op
  cases op with
  | save q =>
    by_cases same : q.proofData.task.taskId = taskId
    · simp only [effect, same, if_true, Effect.put.injEq, Op.save.injEq]
      exact ⟨fun h => ⟨h, h ▸ same⟩, fun h => h.1⟩
    · simp only [effect, same, if_false, reduceCtorEq, Op.save.injEq, false_iff, not_and]
      exact fun h => h ▸ same
  | get id => simp [effect]
  | delete id => by_cases same : id = taskId <;> simp [effect, same]
  | collect => simp [effect]

theorem passes_iff {taskId : Text} {op : Op × Wall} {p : StoredProof} :
    (effect taskId op).Passes p ↔ ¬ Replaces taskId op ∧ ¬ Notices taskId p op := by
  obtain ⟨op, now⟩ := op
  cases op with
  | save q =>
    by_cases same : q.proofData.task.taskId = taskId <;>
      simp [effect, same, Effect.Passes, Replaces, Notices]
  | get id =>
    by_cases same : id = taskId <;> simp [effect, same, Effect.Passes, Replaces, Notices]
  | delete id =>
    by_cases same : id = taskId <;> simp [effect, same, Effect.Passes, Replaces, Notices]
  | collect => simp [effect, Effect.Passes, Replaces, Notices]

theorem cellAfter_iff {run : List (Op × Wall)} {taskId : Text} {p : StoredProof} :
    cellAfter (effect taskId) run = some p ↔
      ∃ later, SavedThen run taskId p later ∧ ∀ op ∈ later, ¬ Notices taskId p op := by
  rw [cellAfter_eq_some_iff]
  refine exists_congr fun later => ?_
  constructor
  · rintro ⟨⟨earlier, op, split, put⟩, passed⟩
    obtain ⟨saves, same⟩ := effect_eq_put_iff.mp put
    refine ⟨⟨same, ⟨earlier, op.2, ?_⟩, fun op inside => ?_⟩, fun op inside => ?_⟩
    · rw [split, ← saves]
    · exact (passes_iff.mp (passed op inside)).1
    · exact (passes_iff.mp (passed op inside)).2
  · rintro ⟨⟨same, ⟨earlier, now, split⟩, kept⟩, unnoticed⟩
    have put : effect taskId (.save p, now) = .put p := effect_eq_put_iff.mpr ⟨rfl, same⟩
    refine ⟨⟨earlier, (.save p, now), split, put⟩, fun op inside => ?_⟩
    exact passes_iff.mpr ⟨kept op inside, unnoticed op inside⟩

end History

section InMemory

variable {store : InMemoryProofStore} {taskId : Text} {now : Wall} {p : StoredProof}

/-- What `get` raises on a proof whose expiry has no time zone. -/
def incomparable : Exc :=
  ⟨.storageError, msg "Failed to retrieve proof: " ++ (foreign .typeError).text⟩

theorem get_eq (store : InMemoryProofStore) (taskId : Text) (now : Wall) :
    InMemoryProofStore.get store taskId now =
    match Dict.get store taskId with
    | none => (.ok none, store)
    | some p =>
      if p.expiresAt.offset.isSome then
        if late now p then
          (.error (expired taskId p.expiresAt), InMemoryProofStore.delete store taskId)
        else (.ok (some p), store)
      else (.error incomparable, store) := by
  cases present : Dict.get store taskId with
  | none => rw [InMemoryProofStore.get, present]
  | some p =>
    by_cases aware : p.expiresAt.offset.isSome
    · rw [InMemoryProofStore.get_of_proof present aware]
      by_cases passed : p.expiresAt.instant < now.micros <;> simp [late, aware, passed]
    · have naive : before p.expiresAt (utcAt now) = .error (foreign .typeError) :=
        if_neg (by simpa [utcAt] using aware)
      rw [InMemoryProofStore.get, present]
      simp only [naive, aware, Bool.false_eq_true, if_false]
      rfl

theorem late_aware (passed : late now p) : p.expiresAt.offset.isSome :=
  (Bool.and_eq_true_iff.mp passed).1

theorem get_after_get (id : Text) : Dict.get (InMemoryProofStore.get store id now).2 taskId =
    (Dict.get store taskId).filter fun p => !(decide (id = taskId) && late now p) := by
  have result := get_eq store id now
  by_cases same : id = taskId
  · obtain rfl := same
    cases present : Dict.get store id with
    | none =>
      rw [present] at result
      rw [result, Option.filter_none]
      exact present
    | some p =>
      rw [present] at result
      rw [result, Option.filter_some]
      by_cases passed : late now p
      · simp [late_aware passed, passed, InMemoryProofStore.delete]
      · by_cases aware : p.expiresAt.offset.isSome <;> simp [aware, passed, present]
  · have other :
        Dict.get (InMemoryProofStore.get store id now).2 taskId = Dict.get store taskId := by
      rw [result]
      split
      · rfl
      · split
        · split
          · exact Dict.get_erase_other store same
          · rfl
        · rfl
    simp [other, same]

theorem get_after_gets (ids : List Text) :
    Dict.get (ids.foldl (fun left id => (InMemoryProofStore.get left id now).2) store) taskId =
      (Dict.get store taskId).filter fun p => !(decide (taskId ∈ ids) && late now p) := by
  induction ids generalizing store with
  | nil => simp
  | cons id ids ih =>
    rw [List.foldl_cons, ih, get_after_get, Option.filter_filter]
    congr 1
    funext p
    by_cases first : id = taskId
    · cases late now p <;> simp [first]
    · simp [first, Ne.symm first]

theorem get_after_collect : Dict.get (InMemoryProofStore.garbageCollect store now) taskId =
    (Dict.get store taskId).filter fun p => !late now p := by
  rw [InMemoryProofStore.garbageCollect, get_after_gets]
  by_cases listed : taskId ∈ InMemoryProofStore.list store
  · simp [listed]
  · have absent : Dict.get store taskId = none := by
      rw [InMemoryProofStore.list, Dict.mem_keys, ← Option.isSome_iff_exists] at listed
      simpa using listed
    rw [absent, Option.filter_none, Option.filter_none]

theorem get_after_step (op : Op × Wall) : Dict.get (inMemoryStep store op).2 taskId =
    (effect taskId op).apply (Dict.get store taskId) := by
  obtain ⟨op, now⟩ := op
  cases op with
  | save p =>
    by_cases same : p.proofData.task.taskId = taskId
    · simp [inMemoryStep, InMemoryProofStore.save, effect, same, Effect.apply]
    · simp [inMemoryStep, InMemoryProofStore.save, effect, same, Effect.apply, Dict.get_set_other]
  | get id => exact get_after_get id
  | delete id =>
    by_cases same : id = taskId
    · simp [inMemoryStep, InMemoryProofStore.delete, effect, same, Effect.apply]
    · simp [inMemoryStep, InMemoryProofStore.delete, effect, same, Effect.apply,
        Dict.get_erase_other]
  | collect => exact get_after_collect

def after (run : List (Op × Wall)) : InMemoryProofStore :=
  run.foldl (fun store op => (inMemoryStep store op).2) Dict.empty

theorem get_after (run : List (Op × Wall)) (taskId : Text) :
    Dict.get (after run) taskId = cellAfter (effect taskId) run := by
  induction run using List.reverseRecOn with
  | nil => rfl
  | append_singleton run op ih =>
    rw [cellAfter_append_singleton, after, List.foldl_append]
    exact (get_after_step op).trans (congrArg _ ih)

variable {run : List (Op × Wall)}

theorem not_notices_of_live (latest : ∀ op ∈ run, op.2.micros ≤ now.micros)
    {later : List (Op × Wall)} (then_ : SavedThen run taskId p later)
    (live : (now.micros : Int) ≤ p.expiresAt.instant) : ∀ op ∈ later, ¬ Notices taskId p op := by
  rintro op inside ⟨_, passed⟩
  obtain ⟨earlier, at_, split⟩ := then_.saved
  have before_ := latest op (by simp [split, inside])
  have expired := of_decide_eq_true (Bool.and_eq_true_iff.mp passed).2
  omega

theorem get_after_eq_some_iff {p : StoredProof} : Dict.get (after run) taskId = some p ↔
    ∃ later, SavedThen run taskId p later ∧ ∀ op ∈ later, ¬ Notices taskId p op := by
  rw [get_after]
  exact cellAfter_iff

theorem get_returned_iff (latest : ∀ op ∈ run, op.2.micros ≤ now.micros) :
    (InMemoryProofStore.get (after run) taskId now).1 = .ok (some p) ↔
      SavedLast run taskId p ∧ p.expiresAt.offset.isSome ∧
        (now.micros : Int) ≤ p.expiresAt.instant := by
  rw [get_eq (after run) taskId now]
  constructor
  · intro returned
    cases present : Dict.get (after run) taskId with
    | none => simp [present] at returned
    | some q =>
      obtain ⟨later, then_, _⟩ := get_after_eq_some_iff.mp present
      simp only [present] at returned
      split at returned
      · next aware =>
        split at returned
        · simp at returned
        · next live =>
          obtain rfl := Option.some.inj (Except.ok.inj returned)
          refine ⟨⟨later, then_⟩, aware, ?_⟩
          simpa [late, aware] using live
      · simp at returned
  · rintro ⟨⟨later, then_⟩, aware, live⟩
    have present := get_after_eq_some_iff.mpr ⟨later, then_, not_notices_of_live latest then_ live⟩
    simp [present, aware, late, not_lt.mpr live]

theorem get_raised_iff {e : Exc} : (InMemoryProofStore.get (after run) taskId now).1 = .error e ↔
    ∃ p later, SavedThen run taskId p later ∧
      (p.expiresAt.offset = none ∧ e = incomparable ∨
        late now p ∧ (∀ op ∈ later, ¬ Notices taskId p op) ∧ e = expired taskId p.expiresAt) := by
  rw [get_eq (after run) taskId now]
  constructor
  · intro raised
    cases present : Dict.get (after run) taskId with
    | none => simp [present] at raised
    | some q =>
      obtain ⟨later, then_, unnoticed⟩ := get_after_eq_some_iff.mp present
      refine ⟨q, later, then_, ?_⟩
      simp only [present] at raised
      split at raised
      · split at raised
        · next passed => exact .inr ⟨passed, unnoticed, (Except.error.inj raised).symm⟩
        · simp at raised
      · next naive => exact .inl ⟨by simpa using naive, (Except.error.inj raised).symm⟩
  · rintro ⟨p, later, then_, ⟨naive, rfl⟩ | ⟨passed, unnoticed, rfl⟩⟩
    · have unnoticed : ∀ op ∈ later, ¬ Notices taskId p op :=
        fun op _ noticed => by simpa [naive] using late_aware noticed.2
      simp [get_after_eq_some_iff.mpr ⟨later, then_, unnoticed⟩, naive]
    · simp [get_after_eq_some_iff.mpr ⟨later, then_, unnoticed⟩, late_aware passed, passed]

/-- The answers of the in-memory store after any run, at a reading not before those of the
run. -/
theorem get_history (latest : ∀ op ∈ run, op.2.micros ≤ now.micros) (taskId : Text) :
    (∀ p, (InMemoryProofStore.get (after run) taskId now).1 = .ok (some p) ↔
      SavedLast run taskId p ∧ p.expiresAt.offset.isSome ∧
        (now.micros : Int) ≤ p.expiresAt.instant) ∧
    (∀ e, (InMemoryProofStore.get (after run) taskId now).1 = .error e ↔
      ∃ p later, SavedThen run taskId p later ∧
        (p.expiresAt.offset = none ∧ e = incomparable ∨
          late now p ∧ (∀ op ∈ later, ¬ Notices taskId p op) ∧
            e = expired taskId p.expiresAt)) ∧
    (taskId ∈ InMemoryProofStore.list (after run) ↔
      ∃ p later, SavedThen run taskId p later ∧ ∀ op ∈ later, ¬ Notices taskId p op) := by
  refine ⟨fun p => get_returned_iff latest, fun e => get_raised_iff, ?_⟩
  rw [InMemoryProofStore.list, Dict.mem_keys]
  exact exists_congr fun p => get_after_eq_some_iff

end InMemory

section SQLite

variable {lib : Library} {run : List (Op × Wall)} {taskId : Text} {now : Wall}

def tableAfter (lib : Library) (run : List (Op × Wall)) : SQLiteProofStore :=
  run.foldl (fun table op => (sqliteStep lib table op).2) Dict.empty

theorem mirrors_after (documented : Documented lib) (saves : ∀ op ∈ run, Saves lib op) :
    Mirrors lib (after run) (tableAfter lib run) := by
  induction run using List.reverseRecOn with
  | nil => exact mirrors_empty
  | append_singleton run op ih =>
    have earlier := ih fun op inside => saves op (by simp [inside])
    rw [after, tableAfter, List.foldl_append, List.foldl_append]
    exact (mirrors_step documented earlier (saves op (by simp))).2

theorem savedThen_storable (saves : ∀ op ∈ run, Saves lib op) {p : StoredProof}
    {later : List (Op × Wall)} (then_ : SavedThen run taskId p later) : Storable lib p := by
  obtain ⟨earlier, at_, split⟩ := then_.saved
  exact saves (.save p, at_) (by simp [split]) p rfl

theorem mem_list_mirrors {store : InMemoryProofStore} {table : SQLiteProofStore}
    (mirrors : Mirrors lib store table) : taskId ∈ SQLiteProofStore.list table now ↔
      ∃ p, Dict.get store taskId = some p ∧ (now.micros : Int) < p.expiresAt.instant := by
  rw [SQLiteProofStore.mem_list, mirrors.rows]
  cases present : Dict.get store taskId with
  | none => simp
  | some p =>
    have storable := mirrors.storable taskId p present
    obtain ⟨row, row_of⟩ := Option.isSome_iff_exists.mp storable.encodable
    have expiry : p.expiresAt = utcAt p.expiresAt.wall := DateTime.ext rfl storable.expiresAt
    have order : textBefore (isoformat (utcAt now)) row.expiresAt ↔
        now.micros < p.expiresAt.wall.micros := by
      rw [(rowOf_eq_some row_of).2, expiry]
      exact now_textBefore.trans (by simp [utcAt])
    rw [Option.bind_some, row_of]
    simp only [Option.some.injEq, exists_eq_left', order]
    rw [expiry, instant_utcAt]
    exact Int.ofNat_lt.symm

theorem sqlite_returned_iff (documented : Documented lib) (saves : ∀ op ∈ run, Saves lib op)
    (latest : ∀ op ∈ run, op.2.micros ≤ now.micros) {p : StoredProof} :
    (SQLiteProofStore.get lib (tableAfter lib run) taskId now).1 = .ok (some p) ↔
      SavedLast run taskId p ∧ (now.micros : Int) ≤ p.expiresAt.instant := by
  rw [(mirrors_get documented (mirrors_after documented saves) taskId now).1,
    get_returned_iff latest]
  refine and_congr_right fun ⟨later, then_⟩ => ?_
  simp [(savedThen_storable saves then_).expiresAt]

theorem sqlite_raised_iff (documented : Documented lib) (saves : ∀ op ∈ run, Saves lib op)
    {e : Exc} : (SQLiteProofStore.get lib (tableAfter lib run) taskId now).1 = .error e ↔
      ∃ p later, SavedThen run taskId p later ∧ late now p ∧
        (∀ op ∈ later, ¬ Notices taskId p op) ∧ e = expired taskId p.expiresAt := by
  rw [(mirrors_get documented (mirrors_after documented saves) taskId now).1, get_raised_iff]
  refine exists₂_congr fun p later => and_congr_right fun then_ => ?_
  simp [(savedThen_storable saves then_).expiresAt]

theorem sqlite_listed_iff (documented : Documented lib) (saves : ∀ op ∈ run, Saves lib op)
    (latest : ∀ op ∈ run, op.2.micros ≤ now.micros) :
    taskId ∈ SQLiteProofStore.list (tableAfter lib run) now ↔
      ∃ p, SavedLast run taskId p ∧ (now.micros : Int) < p.expiresAt.instant := by
  rw [mem_list_mirrors (mirrors_after documented saves)]
  refine exists_congr fun p => and_congr_left fun live => ?_
  rw [get_after_eq_some_iff]
  refine exists_congr fun later => and_iff_left_of_imp fun then_ => ?_
  exact not_notices_of_live latest then_ live.le

/-- The answers of the SQLite store after any run of proofs that it can hold. -/
theorem sqlite_history (documented : Documented lib) (saves : ∀ op ∈ run, Saves lib op)
    (latest : ∀ op ∈ run, op.2.micros ≤ now.micros) (taskId : Text) :
    (∀ p, (SQLiteProofStore.get lib (tableAfter lib run) taskId now).1 = .ok (some p) ↔
      SavedLast run taskId p ∧ (now.micros : Int) ≤ p.expiresAt.instant) ∧
    (∀ e, (SQLiteProofStore.get lib (tableAfter lib run) taskId now).1 = .error e ↔
      ∃ p later, SavedThen run taskId p later ∧ late now p ∧
        (∀ op ∈ later, ¬ Notices taskId p op) ∧ e = expired taskId p.expiresAt) ∧
    (taskId ∈ SQLiteProofStore.list (tableAfter lib run) now ↔
      ∃ p, SavedLast run taskId p ∧ (now.micros : Int) < p.expiresAt.instant) :=
  ⟨fun _ => sqlite_returned_iff documented saves latest,
    fun _ => sqlite_raised_iff documented saves, sqlite_listed_iff documented saves latest⟩

end SQLite

section Sample

def sampleSaves : List (Op × Wall) :=
  [(.save (sampleUntil onePm), january 12), (.collect, january 13)]

theorem sampleSaves_savedLast : SavedLast sampleSaves sampleTask.str (sampleUntil onePm) := by
  refine ⟨[(.collect, january 13)], rfl, ⟨[], january 12, rfl⟩, ?_⟩
  simp [Replaces]

theorem sampleSaves_latest : ∀ op ∈ sampleSaves, op.2.micros ≤ (january 13).micros := by
  have earlier : (january 12).micros ≤ (january 13).micros := by decide
  simpa [sampleSaves] using earlier

theorem sampleSaves_returned :
    (InMemoryProofStore.get (after sampleSaves) sampleTask.str (january 13)).1 =
      .ok (some (sampleUntil onePm)) :=
  ((get_history sampleSaves_latest sampleTask.str).1 _).mpr
    ⟨sampleSaves_savedLast, rfl, by decide⟩

theorem sampleSaves_read :
    (SQLiteProofStore.get textLibrary (tableAfter textLibrary sampleSaves) sampleTask.str
      (january 13)).1 = .ok (some (sampleUntil onePm)) := by
  have saves : ∀ op ∈ sampleSaves, Saves textLibrary op := by
    intro op member p saved
    obtain rfl : p = sampleUntil onePm := by
      simp only [sampleSaves, List.mem_cons, List.not_mem_nil, or_false] at member
      rcases member with rfl | rfl <;> simp_all
    exact sampleUntil_storable onePm.wall
  exact ((sqlite_history textLibrary_documented saves sampleSaves_latest sampleTask.str).1 _).mpr
    ⟨sampleSaves_savedLast, by decide⟩

end Sample

end AgentTrust.StoreHistory
