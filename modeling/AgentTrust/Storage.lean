import AgentTrust.Client
import AgentTrust.IsoOrder

/-! The two proof stores as state machines over their contents: a dict of proofs, and
a table of JSON texts with the expiry as ISO text. An operation returns its result
and the contents after it. -/

namespace AgentTrust.Storage

open PyText PyDateTime Gregorian OrderedDict PyValue Models IsoFormat IsoOrder

/-- `a < b` on datetimes; comparing naive with aware is a `TypeError`. -/
def before (a b : DateTime) : Except Exc Bool :=
  if a.offset.isSome = b.offset.isSome then .ok (decide (a.instant < b.instant))
  else .error (foreign .typeError)

theorem before_aware {a b : DateTime} (aware : a.offset.isSome = b.offset.isSome) :
    before a b = .ok (decide (a.instant < b.instant)) := if_pos aware

def expired (taskId : Text) (expiresAt : DateTime) : Exc :=
  ⟨.proofExpiredError, msg "Proof for task " ++ [.text (raw taskId), .text (lit " expired at "),
    .date expiresAt]⟩

section InMemory

abbrev InMemoryProofStore := Dict Text StoredProof

namespace InMemoryProofStore

def save (store : InMemoryProofStore) (proof : StoredProof) : InMemoryProofStore :=
  store.set proof.proofData.task.taskId proof

def delete (store : InMemoryProofStore) (taskId : Text) : InMemoryProofStore :=
  store.erase taskId

def get (store : InMemoryProofStore) (taskId : Text) (now : Wall) :
    Except Exc (Option StoredProof) × InMemoryProofStore :=
  match Dict.get store taskId with
  | none => (.ok none, store)
  | some proof =>
    match before proof.expiresAt (utcAt now) with
    | .error e => (.error ⟨.storageError, msg "Failed to retrieve proof: " ++ e.text⟩, store)
    | .ok true => (.error (expired taskId proof.expiresAt), delete store taskId)
    | .ok false => (.ok (some proof), store)

def list (store : InMemoryProofStore) : List Text := store.entries.map Prod.fst

/-- One cycle of `garbage_collect`, all at one clock reading. -/
def garbageCollect (store : InMemoryProofStore) (now : Wall) : InMemoryProofStore :=
  (list store).foldl (fun left taskId => (get left taskId now).2) store

end InMemoryProofStore

end InMemory

section SQLite

structure Row where
  proofJson : Text
  expiresAt : Text

/-- The table `atp_proofs`, whose primary key is the task id. -/
abbrev SQLiteProofStore := Dict Text Row

namespace SQLiteProofStore

/-- `save`; without an encodable dump it raises before it opens the database. -/
def save (lib : Library) (store : SQLiteProofStore) (proof : StoredProof) :
    Except Exc SQLiteProofStore :=
  match lib.dumpJson proof.dump with
  | none => .error (foreign .valueError)
  | some json => .ok (store.set proof.proofData.task.taskId ⟨json, isoformat proof.expiresAt⟩)

def delete (store : SQLiteProofStore) (taskId : Text) : SQLiteProofStore := store.erase taskId

/-- `expires_at` of a row, a naive one read as UTC. -/
def rowExpiry (row : Row) : Except Exc DateTime :=
  match fromisoformat (raw row.expiresAt) with
  | none => .error (foreign .valueError)
  | some d => .ok ⟨d.wall, some (d.offset.getD utcOffset)⟩

/-- `StoredProof.model_validate_json`. -/
def decodeRow (lib : Library) (row : Row) : Except Exc StoredProof :=
  match (lib.parseJson row.proofJson).bind (StoredProofOf.validate lib) with
  | some proof => .ok proof
  | none => .error (foreign .valueError)

def failed (e : Exc) : Exc := ⟨.storageError, msg "Failed to retrieve proof: " ++ e.text⟩

def get (lib : Library) (store : SQLiteProofStore) (taskId : Text) (now : Wall) :
    Except Exc (Option StoredProof) × SQLiteProofStore :=
  match Dict.get store taskId with
  | none => (.ok none, store)
  | some row =>
    match rowExpiry row with
    | .error e => (.error (failed e), store)
    | .ok expiresAt =>
      match before expiresAt (utcAt now) with
      | .error e => (.error (failed e), store)
      | .ok true => (.error (expired taskId expiresAt), delete store taskId)
      | .ok false =>
        match decodeRow lib row with
        | .error e => (.error (failed e), store)
        | .ok proof => (.ok (some proof), store)

/-- `SELECT task_id FROM atp_proofs WHERE expires_at > ?`, in some order of the rows. -/
def list (store : SQLiteProofStore) (now : Wall) : List Text :=
  (store.entries.filter fun p => textBefore (isoformat (utcAt now)) p.2.expiresAt).map Prod.fst

/-- `DELETE FROM atp_proofs WHERE expires_at < ?` with the text `cutoff`. -/
def deleteBefore (store : SQLiteProofStore) (cutoff : Text) : SQLiteProofStore :=
  store.filter fun _ row => !textBefore row.expiresAt cutoff

def gcPass (store : SQLiteProofStore) (now : Wall) : SQLiteProofStore :=
  deleteBefore store (isoformat (utcAt now))

end SQLiteProofStore

end SQLite

section Proofs

namespace InMemoryProofStore

variable {store : InMemoryProofStore} {p : StoredProof} {taskId : Text} {now : Wall}

theorem get_of_proof (present : Dict.get store taskId = some p)
    (aware : p.expiresAt.offset.isSome) :
    get store taskId now =
      if p.expiresAt.instant < now.micros then
        (.error (expired taskId p.expiresAt), delete store taskId)
      else (.ok (some p), store) := by
  have compared : before p.expiresAt (utcAt now) =
      .ok (decide (p.expiresAt.instant < now.micros)) := by
    rw [before_aware (by rw [aware]; rfl), instant_utcAt]
  unfold get
  rw [present]
  simp only [compared]
  by_cases late : p.expiresAt.instant < now.micros
  · simp only [late, decide_true, if_true]
  · simp only [late, decide_false, if_false]

def Aware (store : InMemoryProofStore) : Prop :=
  ∀ taskId p, Dict.get store taskId = some p → p.expiresAt.offset.isSome

def timely (now : Wall) (p : StoredProof) : Bool := !decide (p.expiresAt.instant < now.micros)

theorem get_get (aware : Aware store) (id : Text) :
    Dict.get (get store id now).2 taskId =
      if id = taskId then (Dict.get store taskId).filter (timely now)
      else Dict.get store taskId := by
  cases present : Dict.get store id with
  | none =>
    have same : (get store id now).2 = store := by rw [get, present]
    rw [same]
    split
    · next h => rw [← h, present, Option.filter_none]
    · rfl
  | some p =>
    rw [get_of_proof present (aware id p present)]
    by_cases h : id = taskId
    · rw [if_pos h, ← h, present, Option.filter_some]
      by_cases late : p.expiresAt.instant < now.micros
      · rw [if_pos late, delete, Dict.get_erase_self]
        simp [timely, late]
      · rw [if_neg late, present]
        simp [timely, late]
    · rw [if_neg h]
      split
      · exact Dict.get_erase_other store h
      · rfl

theorem aware_get (aware : Aware store) (id : Text) : Aware (get store id now).2 := by
  intro taskId p present
  rw [get_get aware] at present
  split at present
  · exact aware taskId p (Option.filter_eq_some_iff.mp present).1
  · exact aware taskId p present

theorem get_foldl_get (aware : Aware store) (ids : List Text) :
    Dict.get (ids.foldl (fun left id => (get left id now).2) store) taskId =
      if taskId ∈ ids then (Dict.get store taskId).filter (timely now)
      else Dict.get store taskId := by
  induction ids generalizing store with
  | nil => rfl
  | cons id ids ih =>
    rw [List.foldl_cons, ih (aware_get aware id), get_get aware]
    by_cases first : id = taskId
    · by_cases again : taskId ∈ ids <;> simp [first, again, Option.filter_filter]
    · simp [first, Ne.symm first]

theorem get_garbageCollect (aware : Aware store) :
    Dict.get (garbageCollect store now) taskId = (Dict.get store taskId).filter (timely now) := by
  rw [garbageCollect, get_foldl_get aware]
  split
  · rfl
  · next absent =>
    have none : Dict.get store taskId = none := by
      rw [list, Dict.mem_keys, ← Option.isSome_iff_exists] at absent
      simpa using absent
    rw [none, Option.filter_none]

end InMemoryProofStore

end Proofs

section Rows

namespace SQLiteProofStore

variable {lib : Library} {store : SQLiteProofStore} {p : StoredProof} {taskId : Text} {row : Row}
  {now : Wall}

def rowOf (lib : Library) (p : StoredProof) : Option Row :=
  (lib.dumpJson p.dump).map fun json => ⟨json, isoformat p.expiresAt⟩

theorem rowOf_eq_some (row_of : rowOf lib p = some row) :
    lib.dumpJson p.dump = some row.proofJson ∧ row.expiresAt = isoformat p.expiresAt := by
  obtain ⟨json, dumped, rfl⟩ := Option.map_eq_some_iff.mp row_of
  exact ⟨dumped, rfl⟩

theorem save_rowOf (row_of : rowOf lib p = some row) :
    save lib store p = .ok (store.set p.proofData.task.taskId row) := by
  obtain ⟨json, dumped, rfl⟩ := Option.map_eq_some_iff.mp row_of
  rw [save, dumped]

theorem save_no_row (row_of : rowOf lib p = none) :
    save lib store p = .error (foreign .valueError) := by
  rw [save, Option.map_eq_none_iff.mp row_of]

theorem save_eq_ok {saved : SQLiteProofStore} (h : save lib store p = .ok saved) :
    ∃ row, rowOf lib p = some row ∧ saved = store.set p.proofData.task.taskId row := by
  cases row_of : rowOf lib p with
  | some row => exact ⟨row, rfl, (Except.ok.inj ((save_rowOf row_of).symm.trans h)).symm⟩
  | none =>
    rw [save_no_row row_of] at h
    simp at h

theorem rowExpiry_isoformat {d : DateTime} (aware : d.offset.isSome) (json : Text) :
    rowExpiry ⟨json, isoformat d⟩ = .ok (readBack d) := by
  obtain ⟨o, offset⟩ := Option.isSome_iff_exists.mp aware
  rw [rowExpiry, fromisoformat_isoformat]
  exact congrArg Except.ok (DateTime.ext rfl (by rw [readBack, offset]; rfl))

theorem get_of_row {expiresAt : DateTime} (present : Dict.get store taskId = some row)
    (expiry : rowExpiry row = .ok expiresAt) (aware : expiresAt.offset.isSome) :
    get lib store taskId now =
      if expiresAt.instant < now.micros then
        (.error (expired taskId expiresAt), delete store taskId)
      else ((decodeRow lib row).map some |>.mapError failed, store) := by
  have compared : before expiresAt (utcAt now) = .ok (decide (expiresAt.instant < now.micros)) := by
    rw [before_aware (by rw [aware]; rfl), instant_utcAt]
  unfold get
  rw [present]
  simp only [expiry, compared]
  by_cases late : expiresAt.instant < now.micros
  · simp only [late, decide_true, if_true]
  · simp only [late, decide_false, if_false]
    cases decodeRow lib row <;> rfl

theorem mem_list : taskId ∈ list store now ↔ ∃ row, Dict.get store taskId = some row ∧
    textBefore (isoformat (utcAt now)) row.expiresAt := by
  simp [list, ← Dict.mem_entries]

theorem get_gcPass : Dict.get (gcPass store now) taskId = (Dict.get store taskId).filter
    fun row => !textBefore row.expiresAt (isoformat (utcAt now)) := Dict.get_filter _ _ _

end SQLiteProofStore

end Rows

end AgentTrust.Storage
