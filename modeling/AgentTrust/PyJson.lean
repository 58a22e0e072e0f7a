import AgentTrust.PyText
import AgentTrust.JsonText

/-! Decoded JSON as Python holds it, and `json.dumps(data, sort_keys=True,
separators=(",", ":"))`. A float is kept by its `repr`, which names it. The text
written equals the plain text of the key-sorted value whose strings are read as
UTF-16, so equality of texts is equality of those values. -/

namespace AgentTrust.PyJson

open TextCode JsonTree JsonTree.Json JsonText PyText

def floatLead (c : Char) : Bool := c.isDigit || c = '-' || c = 'N' || c = 'I'

def floatChar (c : Char) : Bool := c.isDigit || "+-.eENaInfity".toList.contains c

def floatMark (c : Char) : Bool := floatChar c && !c.isDigit && c != '-'

/-- The text `json.dumps` writes for a float: `float.__repr__`, `NaN`, `Infinity`
or `-Infinity`. It always holds a character that no integer text holds. -/
structure PyFloat where
  text : List Char
  lead : text.head?.any floatLead
  chars : text.all floatChar
  mark : text.any floatMark

abbrev JsonValue := Json PyStr PyFloat

theorem PyFloat.text_injective : Function.Injective PyFloat.text := by
  rintro ⟨a, _, _, _⟩ ⟨b, _, _, _⟩ same
  congr

theorem PyFloat.head_text (f : PyFloat) :
    ∃ c t, f.text = c :: t ∧ c ∉ ['"', '[', '{', 'n', 't', 'f'] := by
  have lead := f.lead
  cases same : f.text with
  | nil => simp [same] at lead
  | cons c t =>
    refine ⟨c, t, rfl, ?_⟩
    simp only [same, List.head?_cons, Option.any_some] at lead
    intro h
    simp only [List.mem_cons, List.not_mem_nil, or_false] at h
    rcases h with rfl | rfl | rfl | rfl | rfl | rfl <;> exact absurd lead (by decide)

theorem PyFloat.plain_text (f : PyFloat) : ∀ c ∈ f.text, c ∉ [',', ']', '}'] := by
  intro c hc h
  have char := List.all_eq_true.mp f.chars c hc
  simp only [List.mem_cons, List.not_mem_nil, or_false] at h
  rcases h with rfl | rfl | rfl <;> exact absurd char (by decide)

theorem PyFloat.text_not_int (f : PyFloat) : ∃ c ∈ f.text, c ≠ '-' ∧ c.isDigit = false := by
  obtain ⟨c, hc, mark⟩ := List.any_eq_true.mp f.mark
  simp only [floatMark, Bool.and_eq_true, Bool.not_eq_true', bne_iff_ne] at mark
  exact ⟨c, hc, mark.2, mark.1.2⟩

/-- Strings quoted by their UTF-16 units, floats by their `repr`. -/
def asciiLexicon : Lexicon (List CodeUnit) PyFloat where
  quote := quoteUnits
  number := PyFloat.text
  quote_selfDelimiting := quoteUnits_selfDelimiting
  quote_head := fun _ => ⟨_, rfl⟩
  number_injective := PyFloat.text_injective
  number_head := PyFloat.head_text
  number_plain := PyFloat.plain_text
  number_not_int := PyFloat.text_not_int

/-- A Python string as a JSON string literal, with the default `ensure_ascii`. -/
def quoteStr (s : PyStr) : Text := quoteUnits (utf16 s)

def dumpsEntry (p : PyStr × Text) : Text := quoteStr p.1 ++ ':' :: p.2

/-- `json.dumps(data, sort_keys=True, separators=(",", ":"))`. The items of a dict
are sorted by key, each with the text of its value; keys are distinct, so values
are never compared. -/
def dumps : JsonValue → Text :=
  fold ⟨"null".toList, boolText, intText, PyFloat.text, quoteStr, arrText,
    fun items => objText ((sortFields keyLe items).map dumpsEntry)⟩

theorem dumps_obj (fields : List (PyStr × JsonValue)) :
    dumps (.obj fields) =
      objText ((sortFields keyLe (fields.map fun p => (p.1, dumps p.2))).map dumpsEntry) := by
  rw [dumps, fold_obj]

theorem dumps_infix_obj {fields : List (PyStr × JsonValue)} {p : PyStr × JsonValue}
    (h : p ∈ fields) : dumps p.2 <:+: dumps (.obj fields) := by
  have item : dumpsEntry (p.1, dumps p.2) ∈
      (sortFields keyLe (fields.map fun p => (p.1, dumps p.2))).map dumpsEntry :=
    List.mem_map_of_mem ((sortFields_perm keyLe _).mem_iff.mpr
      (List.mem_map.mpr ⟨p, h, rfl⟩))
  have value : dumps p.2 <:+: dumpsEntry (p.1, dumps p.2) :=
    ((List.suffix_cons _ _).trans (List.suffix_append _ _)).isInfix
  rw [dumps_obj, objText]
  exact value.trans ((infix_intercalate item).trans
    ((List.prefix_append _ _).isInfix.trans (List.suffix_cons _ _).isInfix))

theorem length_lt_quoteStr (s : PyStr) : s.length < (quoteStr s).length := by
  have units := length_le_flatMap codeUnits_ne_nil s
  have escapes := length_le_flatMap (f := escapeUnit) (fun u => by
    obtain ⟨c, t, head, _⟩ := escapeUnit_head u
    simp [head]) (utf16 s)
  rw [quoteStr, quoteUnits, List.length_cons, List.length_append]
  unfold utf16 at *
  omega

/-- The value a text stands for: keys sorted, strings read as UTF-16. -/
def wireForm (x : JsonValue) : Json (List CodeUnit) PyFloat := (sortKeys keyLe x).map utf16

theorem dumps_eq_render (x : JsonValue) : dumps x = render asciiLexicon (wireForm x) := by
  induction x using Json.induction with
  | null => rfl
  | bool b => rfl
  | int i => rfl
  | float f => rfl
  | str s => rfl
  | arr xs ih =>
    simp only [dumps, render, wireForm, fold_arr, sortKeys_arr, map_arr, List.map_map]
    congr 1
    exact List.map_congr_left ih
  | obj fields ih =>
    simp only [dumps, render, wireForm, fold_obj, sortKeys_obj, map_obj, List.map_map]
    rw [sortFields_map, sortFields_map, List.map_map, List.map_map]
    congr 1
    refine List.map_congr_left fun p hp => ?_
    have member : p ∈ fields := (sortFields_perm keyLe fields).mem_iff.mp hp
    have value := ih p member
    simp only [dumps, render, wireForm] at value
    simp only [Function.comp_apply, dumpsEntry, entryText, value]
    rfl

theorem dumps_eq_iff {x y : JsonValue} : dumps x = dumps y ↔ wireForm x = wireForm y := by
  rw [dumps_eq_render, dumps_eq_render]
  exact (render_injective asciiLexicon).eq_iff

/-- Equal texts, for any strings: equal up to key order, read as UTF-16. -/
theorem reorder_of_dumps_eq {x y : JsonValue} (same : dumps x = dumps y) :
    Reorder (x.map utf16) (y.map utf16) :=
  .of_map_sortKeys_eq keyLe utf16 (dumps_eq_iff.mp same)

theorem dumps_eq_of_reorder {x y : JsonValue} (distinct : x.distinctKeys) (h : Reorder x y) :
    dumps x = dumps y := by
  refine dumps_eq_iff.mpr ?_
  rw [wireForm, wireForm, h.sortKeys_eq keyLe_total keyLe_trans keyLe_antisymm distinct]

def scalarStrings (x : JsonValue) : Bool := x.stringsAll scalarText

theorem sortKeys_eq_of_dumps_eq {x y : JsonValue} (hx : scalarStrings x) (hy : scalarStrings y)
    (same : dumps x = dumps y) : sortKeys keyLe x = sortKeys keyLe y := by
  have sx : (sortKeys keyLe x).stringsAll scalarText :=
    Reorder.stringsAll_eq scalarText (reorder_sortKeys keyLe x) ▸ hx
  have sy : (sortKeys keyLe y).stringsAll scalarText :=
    Reorder.stringsAll_eq scalarText (reorder_sortKeys keyLe y) ▸ hy
  exact map_inj_of_stringsAll (fun _ _ hs ht => utf16_inj_of_scalar hs ht) sx sy
    (dumps_eq_iff.mp same)

theorem dumps_eq_iff_reorder {x y : JsonValue} (hx : scalarStrings x) (hy : scalarStrings y)
    (distinct : x.distinctKeys) : dumps x = dumps y ↔ Reorder x y := by
  constructor
  · intro same
    exact (reorder_iff_sortKeys_eq keyLe_total keyLe_trans keyLe_antisymm distinct).mpr
      (sortKeys_eq_of_dumps_eq hx hy same)
  · exact dumps_eq_of_reorder distinct

end AgentTrust.PyJson
