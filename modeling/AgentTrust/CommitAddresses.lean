import AgentTrust.Client

/-! The address of a commit query. The ids are written between fixed segments as they
are, and the path of the URL ends at its first `?` or `#`, so an id that holds one of them
cuts the path short. Which addresses share a path is read off the ids, as far as the HTTP
client sends a path as it is written. -/

namespace AgentTrust.CommitAddresses

open PyText PyValue Exchange Client

section Paths

def endsPath (c : CodePoint) : Bool := c = ofChar '?' || c = ofChar '#'

/-- The path of a URL: all before its first `?` or `#`. -/
def urlPath (url : PyStr) : PyStr := url.takeWhile fun c => !endsPath c

def Plain (s : PyStr) : Prop := ∀ c ∈ s, endsPath c = false

instance : DecidablePred Plain := fun s => List.decidableBAll (fun c => endsPath c = false) s

theorem urlPath_plain {s : PyStr} (plain : Plain s) : urlPath s = s :=
  List.takeWhile_eq_self_iff.mpr fun c hc => by simp [plain c hc]

theorem urlPath_append_plain {s : PyStr} (plain : Plain s) (t : PyStr) :
    urlPath (s ++ t) = s ++ urlPath t :=
  List.takeWhile_append_of_pos fun c hc => by simp [plain c hc]

theorem urlPath_append_cut {s : PyStr} (cut : ¬ Plain s) (t : PyStr) :
    urlPath (s ++ t) = urlPath s := by
  rw [urlPath, List.takeWhile_append, if_neg]
  · rfl
  · intro whole
    apply cut
    have self := (List.takeWhile_prefix (fun c => !endsPath c)).eq_of_length whole
    intro c hc
    simpa using List.takeWhile_eq_self_iff.mp self c hc

def unreserved (c : CodePoint) : Bool :=
  (0x30 ≤ c.val && c.val ≤ 0x39) || (0x41 ≤ c.val && c.val ≤ 0x5A) ||
    (0x61 ≤ c.val && c.val ≤ 0x7A) || (lit "-._~").contains c

/-- A path of unreserved characters without a segment that leads elsewhere. -/
def Kept (path : PyStr) : Prop :=
  (path.all fun c => unreserved c || c = ofChar '/') ∧
    lit "." ∉ path.splitOn (ofChar '/') ∧ lit ".." ∉ path.splitOn (ofChar '/')

/-- What the HTTP client does with a URL: `sent` is the path of the request that it builds,
below that of its base URL, if it takes the URL. Queries and fragments have no part in it,
and a path that needs neither escapes nor shortening stays as it is. -/
structure SendsPaths (sent : PyStr → Option PyStr) : Prop where
  shared : ∀ url url' p q, urlPath url = urlPath url' → sent url = some p → sent url' = some q →
    p = q
  kept : ∀ url p, Kept (urlPath url) → sent url = some p → p = urlPath url

def asWritten (url : PyStr) : Option PyStr := some (urlPath url)

theorem sendsPaths_asWritten : SendsPaths asWritten where
  shared := by
    intro url url' p q same first second
    exact (Option.some.inj first).symm.trans (same.trans (Option.some.inj second))
  kept := fun _ _ _ sent => (Option.some.inj sent).symm

theorem mem_of_mem_urlPath {s : PyStr} {c : CodePoint} (h : c ∈ urlPath s) : c ∈ s :=
  (List.takeWhile_prefix _).subset h

end Paths

section Addresses

/-- What the verifier asks for: a segment of a system URI, and any task id. -/
@[ext] structure TaskAddress where
  systemId : PyStr
  taskId : PyStr
  nonempty : systemId ≠ []
  segment : ofChar '/' ∉ systemId

def TaskAddress.url (a : TaskAddress) : PyStr := (commitRequest a.systemId a.taskId).url

def TaskAddress.path (a : TaskAddress) : PyStr := urlPath a.url

def systemsPath : PyStr := lit "/api/v1/systems/"

def tasksPath : PyStr := lit "/tasks/"

def commitPath : PyStr := lit "/commit"

variable {a b : TaskAddress}

theorem path_cut (cut : ¬ Plain a.systemId) : a.path = systemsPath ++ urlPath a.systemId := by
  have whole : a.url =
      systemsPath ++ (a.systemId ++ (tasksPath ++ (a.taskId ++ commitPath))) := by
    simp [TaskAddress.url, commitRequest, systemsPath, tasksPath, commitPath]
  rw [TaskAddress.path, whole, urlPath_append_plain (by decide), urlPath_append_cut cut]

theorem path_plain (plain : Plain a.systemId) :
    a.path = systemsPath ++ (a.systemId ++ (tasksPath ++ urlPath (a.taskId ++ commitPath))) := by
  have whole : a.url =
      systemsPath ++ (a.systemId ++ (tasksPath ++ (a.taskId ++ commitPath))) := by
    simp [TaskAddress.url, commitRequest, systemsPath, tasksPath, commitPath]
  rw [TaskAddress.path, whole, urlPath_append_plain (by decide), urlPath_append_plain plain,
    urlPath_append_plain (by decide)]

theorem urlPath_task (taskId : PyStr) :
    urlPath (taskId ++ commitPath) =
      if Plain taskId then taskId ++ commitPath else urlPath taskId := by
  split
  · next plain => rw [urlPath_append_plain plain, urlPath_plain (by decide)]
  · next cut => rw [urlPath_append_cut cut]

/-- Two addresses of which an id is cut short where the other one goes on. -/
inductive Confused (a b : TaskAddress) : Prop where
  | system (cut : ¬ Plain a.systemId) (cut' : ¬ Plain b.systemId)
      (front : urlPath a.systemId = urlPath b.systemId)
  | task (system : a.systemId = b.systemId) (cut : ¬ Plain a.taskId) (cut' : ¬ Plain b.taskId)
      (front : urlPath a.taskId = urlPath b.taskId)
  | commit (system : a.systemId = b.systemId) (cut : ¬ Plain a.taskId) (plain : Plain b.taskId)
      (front : urlPath a.taskId = b.taskId ++ commitPath)

theorem path_eq_of_system (system : a.systemId = b.systemId)
    (ends : urlPath (a.taskId ++ commitPath) = urlPath (b.taskId ++ commitPath)) :
    a.path = b.path := by
  by_cases plain : Plain a.systemId
  · rw [path_plain plain, path_plain (system ▸ plain), system, ends]
  · rw [path_cut plain, path_cut (system ▸ plain), system]

theorem Confused.path_eq (h : Confused a b) : a.path = b.path := by
  cases h with
  | system cut cut' front => rw [path_cut cut, path_cut cut', front]
  | task system cut cut' front =>
    refine path_eq_of_system system ?_
    rw [urlPath_task, urlPath_task, if_neg cut, if_neg cut', front]
  | commit system cut plain front =>
    refine path_eq_of_system system ?_
    rw [urlPath_task, urlPath_task, if_neg cut, if_pos plain, front]

theorem path_ne (plain : Plain a.systemId) (cut : ¬ Plain b.systemId) : a.path ≠ b.path := by
  intro same
  rw [path_plain plain, path_cut cut] at same
  have rest := List.append_cancel_left same
  have slash : ofChar '/' ∈ urlPath b.systemId := by
    rw [← rest]
    simp [tasksPath, lit, raw]
  exact b.segment (mem_of_mem_urlPath slash)

theorem path_plain_eq (plain : Plain a.systemId) (plain' : Plain b.systemId)
    (same : a.path = b.path) :
    a.systemId = b.systemId ∧
      urlPath (a.taskId ++ commitPath) = urlPath (b.taskId ++ commitPath) := by
  rw [path_plain plain, path_plain plain'] at same
  have rest := List.append_cancel_left same
  have separator : tasksPath = ofChar '/' :: lit "tasks/" := rfl
  rw [separator] at rest
  obtain ⟨system, tasks⟩ := TextCode.append_sep_inj a.segment b.segment rest
  exact ⟨system, List.append_cancel_left tasks⟩

theorem path_eq_iff : a.path = b.path ↔ a = b ∨ Confused a b ∨ Confused b a := by
  constructor
  · intro same
    by_cases ha : Plain a.systemId <;> by_cases hb : Plain b.systemId
    · obtain ⟨system, ends⟩ := path_plain_eq ha hb same
      rw [urlPath_task, urlPath_task] at ends
      by_cases ta : Plain a.taskId <;> by_cases tb : Plain b.taskId
      · rw [if_pos ta, if_pos tb] at ends
        exact .inl (TaskAddress.ext system (List.append_cancel_right ends))
      · rw [if_pos ta, if_neg tb] at ends
        exact .inr (.inr (.commit system.symm tb ta ends.symm))
      · rw [if_neg ta, if_pos tb] at ends
        exact .inr (.inl (.commit system ta tb ends))
      · rw [if_neg ta, if_neg tb] at ends
        exact .inr (.inl (.task system ta tb ends))
    · exact absurd same (path_ne ha hb)
    · exact absurd same.symm (path_ne hb ha)
    · rw [path_cut ha, path_cut hb] at same
      exact .inr (.inl (.system ha hb (List.append_cancel_left same)))
  · rintro (rfl | confused | confused)
    · rfl
    · exact confused.path_eq
    · exact confused.path_eq.symm

variable {sent : PyStr → Option PyStr}

def NamesTask (sent : PyStr → Option PyStr) (a b : TaskAddress) : Prop :=
  ∀ p, sent a.url = some p → sent b.url = some p → a = b

/-- Two paths that are not the same as written and that the HTTP client sends as one. -/
def Merged (sent : PyStr → Option PyStr) (a b : TaskAddress) : Prop :=
  a.path ≠ b.path ∧ ∃ p, sent a.url = some p ∧ sent b.url = some p

/-- One address, or two whose paths are sent as they are and that no cut confuses. -/
def Apart (a b : TaskAddress) : Prop :=
  a = b ∨ Kept a.path ∧ Kept b.path ∧ ¬ (Confused a b ∨ Confused b a)

theorem not_merged_of_kept (http : SendsPaths sent) (kept : Kept a.path) (kept' : Kept b.path) :
    ¬ Merged sent a b := by
  rintro ⟨distinct, p, first, second⟩
  exact distinct ((http.kept _ _ kept first).symm.trans (http.kept _ _ kept' second))

theorem namesTask_of_not_merged (distinct : ¬ (Confused a b ∨ Confused b a))
    (split : ¬ Merged sent a b) : NamesTask sent a b := by
  intro p first second
  have paths : a.path = b.path := by
    by_contra other
    exact split ⟨other, p, first, second⟩
  exact (path_eq_iff.mp paths).resolve_right distinct

theorem namesTask_of_apart (http : SendsPaths sent) (apart : Apart a b) : NamesTask sent a b := by
  rcases apart with same | ⟨kept, kept', distinct⟩
  · exact fun _ _ _ => same
  · exact namesTask_of_not_merged distinct (not_merged_of_kept http kept kept')

theorem not_confused (http : SendsPaths sent) (built : (sent a.url).isSome)
    (built' : (sent b.url).isSome) (names : NamesTask sent a b) (other : a ≠ b) :
    ¬ (Confused a b ∨ Confused b a) := by
  intro confused
  obtain ⟨p, first⟩ := Option.isSome_iff_exists.mp built
  obtain ⟨q, second⟩ := Option.isSome_iff_exists.mp built'
  have paths : a.path = b.path := path_eq_iff.mpr (.inr confused)
  obtain rfl := http.shared _ _ _ _ paths first second
  exact other (names p first second)

theorem namesTask_iff (http : SendsPaths sent) (built : (sent a.url).isSome)
    (built' : (sent b.url).isSome) :
    NamesTask sent a b ↔ a = b ∨ ¬ (Confused a b ∨ Confused b a) ∧ ¬ Merged sent a b := by
  constructor
  · intro names
    by_cases same : a = b
    · exact .inl same
    · refine .inr ⟨not_confused http built built' names same, ?_⟩
      rintro ⟨_, p, first, second⟩
      exact same (names p first second)
  · rintro (same | ⟨distinct, split⟩)
    · exact fun _ _ _ => same
    · exact namesTask_of_not_merged distinct split

/-- Two commit queries address different tasks exactly where no `?` or `#` in an id confuses
them and the HTTP client does not send their paths as one; where it sends both as they are
written, the ids alone decide. -/
theorem path_names_task_iff (http : SendsPaths sent) (a b : TaskAddress) :
    (Apart a b → NamesTask sent a b) ∧
      ((sent a.url).isSome → (sent b.url).isSome →
        (NamesTask sent a b ↔ a = b ∨ ¬ (Confused a b ∨ Confused b a) ∧ ¬ Merged sent a b) ∧
        (Kept a.path → Kept b.path → (NamesTask sent a b ↔ Apart a b))) := by
  refine ⟨namesTask_of_apart http, fun built built' =>
    ⟨namesTask_iff http built built', fun kept kept' => ⟨fun names => ?_, namesTask_of_apart http⟩⟩⟩
  by_cases same : a = b
  · exact .inl same
  · exact .inr ⟨kept, kept', not_confused http built built' names same⟩

/-- The task id that a proof discloses to be answered with the commit of another task. -/
def shadow (a : TaskAddress) (rest : PyStr) : TaskAddress :=
  { a with taskId := a.taskId ++ (commitPath ++ ofChar '?' :: rest) }

theorem shadow_path (plain : Plain a.taskId) (rest : PyStr) : (shadow a rest).path = a.path := by
  refine Confused.path_eq (.commit rfl ?_ plain ?_)
  · intro whole
    exact absurd (whole (ofChar '?') (by simp [shadow])) (by decide)
  · change urlPath (a.taskId ++ (commitPath ++ ofChar '?' :: rest)) = _
    rw [urlPath_append_plain plain, urlPath_append_plain (by decide)]
    simp [urlPath, endsPath]

def sampleAddress : TaskAddress := ⟨lit "v", lit "t", by decide, by decide⟩

theorem sampleAddress_kept : Kept sampleAddress.path := by
  have path : sampleAddress.path = lit "/api/v1/systems/v/tasks/t/commit" := rfl
  have segments : (lit "/api/v1/systems/v/tasks/t/commit").splitOn (ofChar '/') =
    [[], lit "api", lit "v1", lit "systems", lit "v", lit "tasks", lit "t", lit "commit"] := rfl
  rw [Kept, path, segments]
  decide

theorem otherAddress_kept :
    Kept ({ sampleAddress with taskId := lit "u" } : TaskAddress).path := by
  have path : ({ sampleAddress with taskId := lit "u" } : TaskAddress).path =
    lit "/api/v1/systems/v/tasks/u/commit" := rfl
  have segments : (lit "/api/v1/systems/v/tasks/u/commit").splitOn (ofChar '/') =
    [[], lit "api", lit "v1", lit "systems", lit "v", lit "tasks", lit "u", lit "commit"] := rfl
  rw [Kept, path, segments]
  decide

theorem sampleAddress_named :
    NamesTask asWritten sampleAddress { sampleAddress with taskId := lit "u" } := by
  refine (path_names_task_iff sendsPaths_asWritten _ _).1
    (.inr ⟨sampleAddress_kept, otherAddress_kept, ?_⟩)
  have whole : Plain sampleAddress.systemId := by decide
  have task : Plain sampleAddress.taskId := by decide
  have task' : Plain (lit "u") := by decide
  rintro (confused | confused)
  · cases confused with
    | system cut => exact cut whole
    | task _ cut => exact cut task
    | commit _ cut => exact cut task
  · cases confused with
    | system cut => exact cut whole
    | task _ cut => exact cut task'
    | commit _ cut => exact cut task'

theorem sampleAddress_shadowed :
    SendsPaths asWritten ∧
      asWritten (shadow sampleAddress (lit "x")).url = some sampleAddress.path ∧
      asWritten sampleAddress.url = some sampleAddress.path ∧
      shadow sampleAddress (lit "x") ≠ sampleAddress :=
  ⟨sendsPaths_asWritten, congrArg some (shadow_path (by decide) _), rfl,
    fun same => absurd (congrArg TaskAddress.taskId same) (by decide)⟩

end Addresses

end AgentTrust.CommitAddresses
