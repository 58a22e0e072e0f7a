import AgentTrust.DependencyForms

/-! The canonical JSON of the protocol, and what is hashed in its place. Canonical text has
sorted keys, no blanks, and strings in UTF-8 of which only quotes, backslashes and control
characters are escaped. The program escapes all that is not printable ASCII, so the two
texts of a value are one exactly where all its strings are below U+007F. -/

namespace AgentTrust.CanonicalJson

open TextCode JsonTree JsonTree.Json JsonText PyText PyJson PyDateTime OrderedDict PyValue Sha256
  Models Hashing DependencyForms Effects

section Strings

def controlEscape (n : Nat) : List Char :=
  if n = 0x08 then ['\\', 'b'] else if n = 0x09 then ['\\', 't'] else if n = 0x0A then ['\\', 'n']
  else if n = 0x0C then ['\\', 'f'] else if n = 0x0D then ['\\', 'r']
  else ['\\', 'u', '0', '0', (n / 16).digitChar, (n % 16).digitChar]

def canonicalChar (c : Char) : List Char :=
  if c = '"' then ['\\', '"'] else if c = '\\' then ['\\', '\\']
  else if c.toNat < 0x20 then controlEscape c.toNat else [c]

def canonicalString (t : Text) : Text := '"' :: (t.flatMap canonicalChar ++ ['"'])

theorem canonicalChar_ascii {c : Char} (ascii : c.toNat < 0x7F) :
    canonicalChar c = escapeUnit ⟨c.toNat, by omega⟩ := by
  have table : ∀ n : Fin 0x7F,
      canonicalChar (Char.ofNat n) = escapeUnit (n.castLE (by decide)) := by
    decide +kernel
  simpa using table ⟨c.toNat, ascii⟩

theorem canonicalChar_plain {c : Char} (other : 0x7F ≤ c.toNat) : canonicalChar c = [c] := by
  have quote : c ≠ '"' := by
    rintro rfl
    exact absurd other (by decide)
  have backslash : c ≠ '\\' := by
    rintro rfl
    exact absurd other (by decide)
  rw [canonicalChar, if_neg quote, if_neg backslash, if_neg (by omega)]

theorem printable_digitChar {d : Nat} (h : d < 16) : printable d.digitChar := by
  have table : ∀ d < 16, printable d.digitChar := by decide
  exact table d h

theorem printable_escapeUnit (u : CodeUnit) : (escapeUnit u).all printable := by
  have bound := u.isLt
  unfold escapeUnit
  split_ifs with h1 h2 h3 h4 h5 h6 h7 h8
  all_goals try rfl
  · simp only [List.all_cons, List.all_nil, Bool.and_true, printable, toNat_printable h8.2,
      Bool.and_eq_true, decide_eq_true_eq]
    exact h8
  · simp only [List.all_cons, List.all_nil, Bool.and_true]
    rw [printable_digitChar (by omega), printable_digitChar (by omega),
      printable_digitChar (by omega), printable_digitChar (by omega)]
    rfl

theorem canonicalChar_apart {c d : Char} {r s : List Char} (ascii : c.toNat < 0x7F)
    (other : 0x7F ≤ d.toNat) : canonicalChar c ++ r ≠ d :: s := by
  intro same
  obtain ⟨e, t, head, _⟩ := escapeUnit_head ⟨c.toNat, by omega⟩
  have printed := printable_escapeUnit ⟨c.toNat, by omega⟩
  rw [canonicalChar_ascii ascii, head, List.cons_append] at same
  rw [head, List.all_cons, (List.cons.inj same).1, Bool.and_eq_true] at printed
  simp only [printable, Bool.and_eq_true, decide_eq_true_eq] at printed
  omega

theorem canonicalChar_selfDelimiting : SelfDelimiting canonicalChar := by
  intro c d r s same
  by_cases hc : c.toNat < 0x7F <;> by_cases hd : d.toNat < 0x7F
  · rw [canonicalChar_ascii hc, canonicalChar_ascii hd] at same
    obtain ⟨units, rest⟩ := escapeUnit_selfDelimiting same
    exact ⟨Char.toNat_inj.mp (Fin.mk.inj units), rest⟩
  · rw [canonicalChar_plain (not_lt.mp hd)] at same
    exact absurd same (canonicalChar_apart hc (not_lt.mp hd))
  · rw [canonicalChar_plain (not_lt.mp hc)] at same
    exact absurd same.symm (canonicalChar_apart hd (not_lt.mp hc))
  · rw [canonicalChar_plain (not_lt.mp hc), canonicalChar_plain (not_lt.mp hd)] at same
    exact List.cons.inj same

theorem canonicalChar_head (c : Char) : ∃ d t, canonicalChar c = d :: t ∧ d ≠ '"' := by
  by_cases ascii : c.toNat < 0x7F
  · rw [canonicalChar_ascii ascii]
    exact escapeUnit_head _
  · refine ⟨c, [], canonicalChar_plain (not_lt.mp ascii), ?_⟩
    rintro rfl
    exact absurd ascii (by decide)

theorem canonicalString_selfDelimiting : SelfDelimiting canonicalString := by
  intro s t r u same
  exact canonicalChar_selfDelimiting.flatMap_closed '"' canonicalChar_head (List.cons.inj same).2

/-- Strings as canonical JSON writes them, floats by their `repr`. -/
def canonicalLexicon : Lexicon Text PyFloat where
  quote := canonicalString
  number := PyFloat.text
  quote_selfDelimiting := canonicalString_selfDelimiting
  quote_head := fun _ => ⟨_, rfl⟩
  number_injective := PyFloat.text_injective
  number_head := PyFloat.head_text
  number_plain := PyFloat.plain_text
  number_not_int := PyFloat.text_not_int

end Strings

section Values

def unicode (s : PyStr) : Text := s.map fun c => Char.ofNat c.val

def canonicalJson (x : JsonValue) : Text :=
  render canonicalLexicon ((sortKeys keyLe x).map unicode)

def canonicalBytes (x : JsonValue) : Option (List UInt8) :=
  if scalarStrings x then some (utf8 (canonicalJson x)) else none

def belowDel (s : PyStr) : Bool := s.all fun c => c.val < 0x7F

theorem scalarText_of_belowDel {s : PyStr} (low : belowDel s) : scalarText s := by
  rw [scalarText, List.all_eq_true]
  intro c hc
  have bound := List.all_eq_true.mp low c hc
  simp only [decide_eq_true_eq] at bound
  simp only [isScalar, Bool.or_eq_true, decide_eq_true_eq]
  omega

theorem quoteUnits_eq_canonicalString {s : PyStr} (low : belowDel s) :
    quoteUnits (utf16 s) = canonicalString (unicode s) := by
  have each : ∀ c ∈ s, (codeUnits c).flatMap escapeUnit = canonicalChar (Char.ofNat c.val) := by
    intro c hc
    have bound := List.all_eq_true.mp low c hc
    simp only [decide_eq_true_eq] at bound
    have value : (Char.ofNat c.val).toNat = c.val := toNat_ofNat (.inl (by omega))
    rw [canonicalChar_ascii (by omega), codeUnits, dif_pos (by omega)]
    simp only [List.flatMap_cons, List.flatMap_nil, List.append_nil, value]
  rw [quoteUnits, canonicalString, utf16, unicode, List.flatMap_assoc, List.flatMap_map]
  rw [List.flatMap_congr each]

theorem printable_pyFloat (f : PyFloat) : f.text.all printable := by
  have table : "+-.eENaInfity".toList.all printable := by decide
  rw [List.all_eq_true]
  intro c hc
  have char := List.all_eq_true.mp f.chars c hc
  simp only [floatChar, Bool.or_eq_true] at char
  rcases char with digit | listed
  · exact printable_digit digit
  · exact List.all_eq_true.mp table c (by simpa using listed)

theorem printable_dumps (x : JsonValue) : (dumps x).all printable := by
  rw [dumps_eq_render]
  refine printable_render printable_pyFloat (fun us => ?_) _
  change (quoteUnits us).all printable
  rw [quoteUnits, List.all_cons, List.all_append, List.all_flatMap]
  simp [printable_escapeUnit, printable]

theorem belowDel_of_printable {s : PyStr} (scalar : scalarText s)
    (printed : (canonicalString (unicode s)).all printable) : belowDel s := by
  rw [belowDel, List.all_eq_true]
  intro c hc
  rw [decide_eq_true_eq]
  by_contra high
  have value : (Char.ofNat c.val).toNat = c.val :=
    congrArg Fin.val (ofChar_ofNat (List.all_eq_true.mp scalar c hc))
  have written : Char.ofNat c.val ∈ canonicalString (unicode s) := by
    refine List.mem_cons_of_mem _ (List.mem_append_left _ (List.mem_flatMap.mpr
      ⟨Char.ofNat c.val, List.mem_map_of_mem hc, ?_⟩))
    rw [canonicalChar_plain (by omega)]
    exact List.mem_singleton.mpr rfl
  have bound := List.all_eq_true.mp printed _ written
  simp only [printable, Bool.and_eq_true, decide_eq_true_eq] at bound
  omega

theorem dumps_eq_canonicalJson_iff {x : JsonValue} (scalar : scalarStrings x) :
    dumps x = canonicalJson x ↔ x.stringsAll belowDel := by
  have sorted : ∀ P : PyStr → Bool, (sortKeys keyLe x).stringsAll P = x.stringsAll P :=
    fun P => (Reorder.stringsAll_eq P (reorder_sortKeys keyLe x)).symm
  constructor
  · intro same
    have printed := printable_dumps x
    rw [same, canonicalJson] at printed
    have strings := stringsAll_of_render _ printed
    rw [stringsAll_map, sorted] at strings
    exact stringsAll_of_both (fun s => belowDel_of_printable) x scalar strings
  · intro low
    rw [dumps_eq_render, wireForm, canonicalJson]
    exact render_map_congr (L := asciiLexicon) (M := canonicalLexicon) (fun _ => rfl)
      (fun s low => quoteUnits_eq_canonicalString low) _
      ((sorted belowDel).trans low)

theorem dumps_canonical_iff (x : JsonValue) :
    some (utf8 (dumps x)) = canonicalBytes x ↔ x.stringsAll belowDel := by
  rw [canonicalBytes]
  split
  · next scalar =>
    rw [Option.some.injEq, utf8_injective.eq_iff, dumps_eq_canonicalJson_iff scalar]
  · next surrogate =>
    refine iff_of_false (by simp) fun low => surrogate ?_
    exact stringsAll_of_both (fun s low _ => scalarText_of_belowDel low) x low low

end Values

section Dependencies

def optionalMembers : List String := ["evaluations", "evaluation_policy"]

def omitEmpty (fields : List (String × JsonValue)) : JsonValue :=
  record (fields.filter fun p => p.1 ∉ optionalMembers || truthy p.2)

def member (k : String) (v : JsonValue) : JsonValue := (getOr k .null v).toOption.getD .null

theorem member_of_getOr {k : String} {v x : JsonValue} (h : getOr k .null v = .ok x) :
    member k v = x := by
  rw [member, h]
  rfl

theorem member_of_getItem {k : String} {v x : JsonValue} (h : getItem k v = .ok x) :
    member k v = x := member_of_getOr (getOr_of_getItem h .null)

def canonicalEvaluation : Form DependencyEvaluation → JsonValue
  | .object e => omitEmpty
    [("evaluation_type", text e.evaluationType), ("evaluation_policy", opt text e.evaluationPolicy),
     ("evaluation_result", text e.evaluationResult), ("evaluated_at", zuluDate e.evaluatedAt)]
  | .dict v => omitEmpty
    [("evaluation_type", member "evaluation_type" v),
     ("evaluation_policy", member "evaluation_policy" v),
     ("evaluation_result", member "evaluation_result" v),
     ("evaluated_at", member "evaluated_at" v)]

def canonicalEvaluations : JsonValue → JsonValue
  | .arr evaluations => .arr (evaluations.map fun v => canonicalEvaluation (.dict v))
  | v => v

def canonicalDependency : Form Dependency → JsonValue
  | .object d => omitEmpty
    [("system_uri", opt text d.systemUri), ("task_id", text d.taskId),
     ("evaluations", .arr (d.evaluations.map fun e => canonicalEvaluation (.object e)))]
  | .dict v => omitEmpty
    [("system_uri", member "system_uri" v), ("task_id", member "task_id" v),
     ("evaluations", canonicalEvaluations (member "evaluations" v))]

def canonicalDependencies (deps : List (Form Dependency)) : JsonValue :=
  .arr (deps.map canonicalDependency)

theorem eq_map_of_mapM_ok {α β ε : Type} {f : α → Except ε β} {g : α → β} {xs : List α}
    {ys : List β} (h : ∀ x ∈ xs, ∀ y, f x = .ok y → y = g x) (ok : xs.mapM f = .ok ys) :
    ys = xs.map g := by
  have each : xs.mapM f = .ok (xs.map g) := mapM_ok fun x hx => by
    obtain ⟨y, result⟩ := ok_of_mapM_ok ok hx
    rw [result, h x hx y result]
  exact Except.ok.inj (ok.symm.trans each)

theorem omitEmpty_evaluation (type policy result time : JsonValue) :
    omitEmpty [("evaluation_type", type), ("evaluation_policy", policy),
        ("evaluation_result", result), ("evaluated_at", time)] =
      record (("evaluation_type", type) :: (entry (truthy policy) "evaluation_policy" policy ++
        [("evaluation_result", result), ("evaluated_at", time)])) := by
  cases present : truthy policy <;> simp [omitEmpty, optionalMembers, entry, present]

theorem omitEmpty_dependency (uri task evaluations : JsonValue) :
    omitEmpty [("system_uri", uri), ("task_id", task), ("evaluations", evaluations)] =
      record (("system_uri", uri) :: ("task_id", task) ::
        entry (truthy evaluations) "evaluations" evaluations) := by
  cases present : truthy evaluations <;> simp [omitEmpty, optionalMembers, entry, present]

theorem zuluDate_of_formatted {d : DateTime} {t : Text}
    (formatted : formatDatetimeRfc3339nano d = .ok t) : zuluDate d = text t := by
  unfold formatDatetimeRfc3339nano at formatted
  split at formatted
  · next w shifted =>
    rw [zuluDate, shifted, ← Except.ok.inj formatted]
    rfl
  · simp at formatted

theorem depEvalToCanonical_eq {form : Form DependencyEvaluation} {v : JsonValue}
    (ok : depEvalToCanonical form = .ok v) : v = canonicalEvaluation form := by
  cases form with
  | object e =>
    obtain ⟨t, formatted, built⟩ := bind_eq_ok.mp ok
    rw [canonicalEvaluation, omitEmpty_evaluation, zuluDate_of_formatted formatted]
    exact (Except.ok.inj built).symm
  | dict w =>
    cases w with
    | obj fields =>
      obtain ⟨type, htype, ok⟩ := bind_eq_ok.mp ok
      obtain ⟨policy, hpolicy, ok⟩ := bind_eq_ok.mp ok
      obtain ⟨result, hresult, ok⟩ := bind_eq_ok.mp ok
      obtain ⟨time, htime, built⟩ := bind_eq_ok.mp ok
      rw [canonicalEvaluation, omitEmpty_evaluation, member_of_getItem htype,
        member_of_getOr hpolicy, member_of_getItem hresult, member_of_getItem htime]
      exact (Except.ok.inj built).symm
    | _ => simp [depEvalToCanonical] at ok

theorem stored_evaluations {stored : JsonValue} {evals canonical : List JsonValue}
    (listed : (if truthy stored then iterate stored else .ok []) = .ok evals)
    (ok : (evals.mapM fun ev => depEvalToCanonical (σ := Text) (.dict ev)) = .ok canonical) :
    entry (evals ≠ []) "evaluations" (.arr canonical) =
      entry (truthy (canonicalEvaluations stored)) "evaluations" (canonicalEvaluations stored) := by
  have strings : ∀ s : PyStr, .str s ∉ evals := by
    intro s hs
    obtain ⟨v, built⟩ := ok_of_mapM_ok ok hs
    simp [depEvalToCanonical] at built
  split at listed
  · next present =>
    cases stored with
    | arr xs =>
      obtain rfl : xs = evals := Except.ok.inj listed
      rw [eq_map_of_mapM_ok (fun x _ y => depEvalToCanonical_eq) ok, canonicalEvaluations]
      cases xs <;> rfl
    | obj fields =>
      obtain rfl : fields.map (fun p => .str p.1) = evals := Except.ok.inj listed
      cases fields with
      | nil => simp [truthy] at present
      | cons p fields => exact absurd (by simp) (strings p.1)
    | str s =>
      obtain rfl : s.map (fun c => .str [c]) = evals := Except.ok.inj listed
      cases s with
      | nil => simp [truthy] at present
      | cons c s => exact absurd (by simp) (strings [c])
    | _ => simp [iterate] at listed
  · next empty =>
    obtain rfl : [] = evals := Except.ok.inj listed
    have falsy : truthy (canonicalEvaluations stored) = false := by
      cases stored with
      | arr xs =>
        obtain rfl : xs = [] := by simpa [truthy] using empty
        rfl
      | _ => exact Bool.eq_false_iff.mpr empty
    simp [entry, falsy]

theorem depToCanonical_eq {form : Form Dependency} {v : JsonValue}
    (ok : depToCanonical form = .ok v) : v = canonicalDependency form := by
  cases form with
  | object d =>
    obtain ⟨canonical, evaluations, built⟩ := bind_eq_ok.mp ok
    rw [canonicalDependency, omitEmpty_dependency,
      ← eq_map_of_mapM_ok (fun e _ y => depEvalToCanonical_eq) evaluations]
    have present : truthy (.arr canonical) = decide (d.evaluations ≠ []) := by
      rw [eq_map_of_mapM_ok (fun e _ y => depEvalToCanonical_eq) evaluations]
      cases d.evaluations <;> rfl
    rw [present]
    exact (Except.ok.inj built).symm
  | dict w =>
    cases w with
    | obj fields =>
      obtain ⟨uri, huri, ok⟩ := bind_eq_ok.mp ok
      obtain ⟨task, htask, ok⟩ := bind_eq_ok.mp ok
      obtain ⟨stored, hstored, ok⟩ := bind_eq_ok.mp ok
      obtain ⟨evals, listed, ok⟩ :
          ∃ evals, (if truthy stored then iterate stored else .ok []) = .ok evals ∧ (do
            let evaluations ← evals.mapM fun ev => depEvalToCanonical (σ := Text) (.dict ev)
            return record (("system_uri", uri) :: ("task_id", task) ::
              entry (evals ≠ []) "evaluations" (.arr evaluations))) = .ok v := by
        dsimp only at ok
        split at ok
        · next present =>
          obtain ⟨evals, listed, ok⟩ := bind_eq_ok.mp ok
          exact ⟨evals, (if_pos present).trans listed, ok⟩
        · next empty => exact ⟨[], if_neg empty, ok⟩
      obtain ⟨canonical, evaluations, built⟩ := bind_eq_ok.mp ok
      rw [canonicalDependency, omitEmpty_dependency, member_of_getItem huri,
        member_of_getItem htask, member_of_getOr hstored,
        ← stored_evaluations listed evaluations]
      exact (Except.ok.inj built).symm
    | _ => simp [depToCanonical] at ok

theorem dependenciesText_eq {deps : List (Form Dependency)} {t : Text}
    (computed : dependenciesText deps = .ok t) : t = dumps (canonicalDependencies deps) := by
  obtain ⟨canonical, forms, built⟩ := bind_eq_ok.mp computed
  rw [canonicalDependencies, ← eq_map_of_mapM_ok (fun d _ v => depToCanonical_eq) forms]
  exact (Except.ok.inj built).symm

end Dependencies

section Hashes

def hashedBytes (data : JsonValue) : Option (List UInt8) := (encode (hashedString data)).map utf8

theorem computeDataHash_eq {data : JsonValue} {bytes : List UInt8}
    (hashed : hashedBytes data = some bytes) : computeDataHash data = .ok (hexdigest bytes) := by
  obtain ⟨t, encoded, rfl⟩ := Option.map_eq_some_iff.mp hashed
  rw [computeDataHash, computeSha256, encoded]
  rfl

theorem hashedBytes_dumped {x : JsonValue} (dumped : hashedString x = raw (dumps x)) :
    hashedBytes x = some (utf8 (dumps x)) := by
  rw [hashedBytes, dumped, encode_raw, Option.map_some]

/-- The bytes hashed for an object, an array or a list of dependencies are those of
canonical JSON exactly where every string in it is below U+007F. -/
theorem hashed_canonical_iff (fields : List (PyStr × JsonValue)) (xs : List JsonValue)
    (deps : List (Form Dependency)) :
    (hashedBytes (.obj fields) = canonicalBytes (.obj fields) ↔
      (obj fields : JsonValue).stringsAll belowDel) ∧
    (hashedBytes (.arr xs) = canonicalBytes (.arr xs) ↔
      (arr xs : JsonValue).stringsAll belowDel) ∧
    ∀ t, dependenciesText deps = .ok t →
      (some (utf8 t) = canonicalBytes (canonicalDependencies deps) ↔
        (canonicalDependencies deps).stringsAll belowDel) := by
  refine ⟨?_, ?_, fun t computed => ?_⟩
  · rw [hashedBytes_dumped rfl, dumps_canonical_iff]
  · rw [hashedBytes_dumped rfl, dumps_canonical_iff]
  · rw [dependenciesText_eq computed, dumps_canonical_iff]

theorem sampleDependency_canonical :
    ∃ t, dependenciesText ([sampleDependency].map .object) = .ok t ∧
      some (utf8 t) = canonicalBytes (canonicalDependencies ([sampleDependency].map .object)) := by
  have utc : ∀ d ∈ [sampleDependency], ∀ e ∈ d.evaluations,
      ∃ w, e.evaluatedAt.utcWall = some w := by
    intro d hd e he
    obtain rfl := List.mem_singleton.mp hd
    obtain rfl := List.mem_singleton.mp he
    exact ⟨noon.wall, utcWall_utcAt noon.wall⟩
  refine ⟨_, dependenciesText_object utc, ?_⟩
  exact ((hashed_canonical_iff [] [] _).2.2 _ (dependenciesText_object utc)).mpr
    (by decide +kernel)

def cafe : JsonValue := record [("query", .str [ofChar 'c', ofChar 'a', ofChar 'f', ofChar 'é'])]

theorem cafe_not_canonical : hashedBytes cafe ≠ canonicalBytes cafe := by
  intro same
  rw [hashedBytes_dumped rfl, dumps_canonical_iff] at same
  exact absurd same (by decide)

end Hashes

end AgentTrust.CanonicalJson
