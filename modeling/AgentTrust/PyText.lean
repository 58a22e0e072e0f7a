import AgentTrust.TextCode
import Mathlib.Data.List.DropRight
import Mathlib.Data.Fin.Basic
import Mathlib.Order.Basic

/-! Python strings. `Text` is a string of Unicode scalar values: what `encode("utf-8")`
accepts. `PyStr` is any Python `str`: JSON decoding can also leave lone surrogates in
it, alone or side by side.
The ASCII escapes of `json.dumps` write both through their UTF-16 code units. -/

namespace AgentTrust.PyText

open TextCode

abbrev Text := List Char
abbrev CodePoint := Fin 0x110000
abbrev PyStr := List CodePoint
abbrev CodeUnit := Fin 0x10000

section Scalars

theorem toNat_lt (c : Char) : c.toNat < 0x110000 := by
  rcases c.valid with low | high
  · exact lt_of_lt_of_le low (by decide)
  · exact high.2

def ofChar (c : Char) : CodePoint := ⟨c.toNat, toNat_lt c⟩

def raw (t : Text) : PyStr := t.map ofChar

def isScalar (c : CodePoint) : Bool := c.val < 0xD800 || 0xDFFF < c.val

def scalarText (s : PyStr) : Bool := s.all isScalar

/-- `s.encode("utf-8")`, kept as the text it encodes; `none` is `UnicodeEncodeError`. -/
def encode (s : PyStr) : Option Text :=
  if scalarText s then some (s.map fun c => Char.ofNat c.val) else none

theorem ofChar_injective : Function.Injective ofChar := by
  intro c d same
  have values : c.toNat = d.toNat := congrArg (fun x : CodePoint => x.val) same
  rw [← Char.ofNat_toNat c, ← Char.ofNat_toNat d, values]

theorem raw_injective : Function.Injective raw := List.map_injective_iff.mpr ofChar_injective

theorem isScalar_ofChar (c : Char) : isScalar (ofChar c) := by
  have range : c.toNat < 0xD800 ∨ 0xDFFF < c.toNat := by
    rcases c.valid with low | high
    · exact .inl low
    · exact .inr high.1
  rw [isScalar, Bool.or_eq_true]
  exact range.imp decide_eq_true decide_eq_true

@[simp] theorem scalarText_raw (t : Text) : scalarText (raw t) = true := by
  simp [scalarText, raw, isScalar_ofChar]

@[simp] theorem scalarText_append (s t : PyStr) :
    scalarText (s ++ t) = (scalarText s && scalarText t) := List.all_append

@[simp] theorem scalarText_cons (c : CodePoint) (s : PyStr) :
    scalarText (c :: s) = (isScalar c && scalarText s) := rfl

@[simp] theorem encode_raw (t : Text) : encode (raw t) = some t := by
  rw [encode, if_pos (scalarText_raw t)]
  simp [raw, ofChar, Function.comp_def]

theorem toNat_ofNat {n : Nat} (valid : n.isValidChar) : (Char.ofNat n).toNat = n := by
  rw [Char.ofNat, dif_pos valid]
  rfl

theorem ofChar_ofNat {c : CodePoint} (h : isScalar c) : ofChar (Char.ofNat c.val) = c := by
  have valid : c.val.isValidChar := by
    have bound := c.isLt
    simp only [isScalar, Bool.or_eq_true, decide_eq_true_eq] at h
    exact h.imp id fun high => ⟨high, bound⟩
  exact Fin.ext (toNat_ofNat valid)

theorem raw_of_encode {s : PyStr} {t : Text} (h : encode s = some t) : raw t = s := by
  rw [encode] at h
  split at h
  · next scalar =>
    rw [Option.some.injEq] at h
    rw [← h, raw, List.map_map]
    exact (List.map_congr_left fun c hc =>
      ofChar_ofNat (List.all_eq_true.mp scalar c hc)).trans (List.map_id _)
  · simp at h

theorem encode_eq_some {s : PyStr} (h : scalarText s) : ∃ t, encode s = some t ∧ raw t = s := by
  have encoded : encode s = some (s.map fun c => Char.ofNat c.val) := if_pos h
  exact ⟨_, encoded, raw_of_encode encoded⟩

end Scalars

section Order

/-- Python's `<=` on strings: lexicographic by code point. -/
def keyLe : PyStr → PyStr → Bool
  | [], _ => true
  | _ :: _, [] => false
  | a :: s, b :: t => if a = b then keyLe s t else a < b

theorem keyLe_total (s t : PyStr) : keyLe s t || keyLe t s := by
  induction s generalizing t with
  | nil => simp [keyLe]
  | cons a s ih =>
    cases t with
    | nil => simp [keyLe]
    | cons b t =>
      by_cases same : a = b
      · simpa [keyLe, same] using ih t
      · have apart : a.val ≠ b.val := fun h => same (Fin.ext h)
        simp only [keyLe, same, Ne.symm same, if_false, Bool.or_eq_true, decide_eq_true_eq,
          Fin.lt_def]
        omega

theorem keyLe_trans (s t u : PyStr) (hst : keyLe s t) (htu : keyLe t u) : keyLe s u := by
  induction s generalizing t u with
  | nil => simp [keyLe]
  | cons a s ih =>
    cases t with
    | nil => simp [keyLe] at hst
    | cons b t =>
      cases u with
      | nil => simp [keyLe] at htu
      | cons c u =>
        by_cases hab : a = b
        · subst hab
          by_cases hac : a = c
          · simp only [keyLe, hac, if_true] at hst htu ⊢
            exact ih t u hst htu
          · simpa only [keyLe, hac, if_false] using htu
        · by_cases hbc : b = c
          · subst hbc
            simpa only [keyLe, hab, if_false] using hst
          · simp only [keyLe, hab, hbc, if_false, decide_eq_true_eq, Fin.lt_def] at hst htu
            have hac : a ≠ c := by
              rintro rfl
              omega
            simp only [keyLe, hac, if_false, decide_eq_true_eq, Fin.lt_def]
            omega

theorem keyLe_antisymm (s t : PyStr) (hst : keyLe s t) (hts : keyLe t s) : s = t := by
  induction s generalizing t with
  | nil =>
    cases t with
    | nil => rfl
    | cons b t => simp [keyLe] at hts
  | cons a s ih =>
    cases t with
    | nil => simp [keyLe] at hst
    | cons b t =>
      by_cases same : a = b
      · simp only [keyLe, same, if_true] at hst hts
        rw [same, ih t hst hts]
      · simp only [keyLe, same, Ne.symm same, if_false, decide_eq_true_eq, Fin.lt_def] at hst hts
        omega

end Order

section CodeUnits

/-- The UTF-16 code units of a code point; a lone surrogate is its own unit. -/
def codeUnits (c : CodePoint) : List CodeUnit :=
  if h : c.val < 0x10000 then [⟨c.val, h⟩]
  else
    [⟨0xD800 + (c.val - 0x10000) / 0x400, by have := c.isLt; omega⟩,
     ⟨0xDC00 + (c.val - 0x10000) % 0x400, by omega⟩]

def utf16 (s : PyStr) : List CodeUnit := s.flatMap codeUnits

theorem codeUnits_ofChar_selfDelimiting : SelfDelimiting fun c => codeUnits (ofChar c) := by
  intro c d r s same
  have hc := isScalar_ofChar c
  have hd := isScalar_ofChar d
  have bc := (ofChar c).isLt
  have bd := (ofChar d).isLt
  simp only [isScalar, Bool.or_eq_true, decide_eq_true_eq] at hc hd
  -- Only a supplementary character starts with a surrogate unit.
  by_cases lc : (ofChar c).val < 0x10000 <;> by_cases ld : (ofChar d).val < 0x10000 <;>
    simp only [codeUnits, lc, ld, dite_true, dite_false, List.cons_append, List.nil_append,
      List.cons.injEq, Fin.mk.injEq] at same
  · exact ⟨ofChar_injective (Fin.ext same.1), same.2⟩
  · omega
  · omega
  · refine ⟨ofChar_injective (Fin.ext ?_), same.2.2⟩
    omega

theorem utf16_raw (t : Text) : utf16 (raw t) = t.flatMap fun c => codeUnits (ofChar c) := by
  simp [utf16, raw, List.flatMap_map]

theorem codeUnits_ne_nil (c : CodePoint) : codeUnits c ≠ [] := by
  unfold codeUnits
  split <;> simp

theorem utf16_raw_injective : Function.Injective fun t => utf16 (raw t) := by
  intro t u same
  simp only [utf16_raw] at same
  exact codeUnits_ofChar_selfDelimiting.flatMap_injective
    (fun c => codeUnits_ne_nil (ofChar c)) same

theorem utf16_inj_of_scalar {s t : PyStr} (hs : scalarText s) (ht : scalarText t)
    (same : utf16 s = utf16 t) : s = t := by
  obtain ⟨a, _, rfl⟩ := encode_eq_some hs
  obtain ⟨b, _, rfl⟩ := encode_eq_some ht
  rw [utf16_raw_injective same]

end CodeUnits

section Escapes

/-- One UTF-16 unit as `json.dumps` writes it with its default `ensure_ascii`. -/
def escapeUnit (u : CodeUnit) : List Char :=
  if u.val = 0x22 then ['\\', '"']
  else if u.val = 0x5C then ['\\', '\\']
  else if u.val = 0x0A then ['\\', 'n']
  else if u.val = 0x0D then ['\\', 'r']
  else if u.val = 0x09 then ['\\', 't']
  else if u.val = 0x0C then ['\\', 'f']
  else if u.val = 0x08 then ['\\', 'b']
  else if 0x20 ≤ u.val ∧ u.val ≤ 0x7E then [Char.ofNat u.val]
  else
    ['\\', 'u', (u.val / 0x1000).digitChar, (u.val / 0x100 % 16).digitChar,
      (u.val / 0x10 % 16).digitChar, (u.val % 16).digitChar]

def hexValue (c : Char) : Nat := ((List.range 16).find? fun d => d.digitChar = c).getD 0

theorem hexValue_digitChar {d : Nat} (h : d < 16) : hexValue d.digitChar = d := by
  have table : ∀ d < 16, hexValue d.digitChar = d := by decide
  exact table d h

/-- The unit at the front of an escaped text, as a number, and the rest. -/
def readUnit : List Char → Option (Nat × List Char)
  | '\\' :: 'u' :: a :: b :: c :: d :: r =>
    some (((hexValue a * 16 + hexValue b) * 16 + hexValue c) * 16 + hexValue d, r)
  | '\\' :: '"' :: r => some (0x22, r)
  | '\\' :: '\\' :: r => some (0x5C, r)
  | '\\' :: 'n' :: r => some (0x0A, r)
  | '\\' :: 'r' :: r => some (0x0D, r)
  | '\\' :: 't' :: r => some (0x09, r)
  | '\\' :: 'f' :: r => some (0x0C, r)
  | '\\' :: 'b' :: r => some (0x08, r)
  | c :: r => if c = '\\' then none else some (c.toNat, r)
  | [] => none

theorem toNat_printable {n : Nat} (h : n ≤ 0x7E) : (Char.ofNat n).toNat = n :=
  toNat_ofNat (.inl (by omega))

theorem readUnit_plain {c : Char} (h : c ≠ '\\') (r : List Char) :
    readUnit (c :: r) = some (c.toNat, r) := by
  unfold readUnit
  split <;> simp_all

theorem readUnit_escapeUnit (u : CodeUnit) (r : List Char) :
    readUnit (escapeUnit u ++ r) = some (u.val, r) := by
  unfold escapeUnit
  split_ifs with h1 h2 h3 h4 h5 h6 h7 h8
  · rw [h1]; rfl
  · rw [h2]; rfl
  · rw [h3]; rfl
  · rw [h4]; rfl
  · rw [h5]; rfl
  · rw [h6]; rfl
  · rw [h7]; rfl
  · have value := toNat_printable h8.2
    have plain : Char.ofNat u.val ≠ '\\' := by
      intro same
      exact h2 (value.symm.trans (congrArg Char.toNat same))
    rw [List.cons_append, List.nil_append, readUnit_plain plain, value]
  · have bound := u.isLt
    simp only [List.cons_append, List.nil_append, readUnit]
    rw [hexValue_digitChar (by omega), hexValue_digitChar (by omega),
      hexValue_digitChar (by omega), hexValue_digitChar (by omega)]
    congr 2
    omega

theorem escapeUnit_selfDelimiting : SelfDelimiting escapeUnit := by
  intro u v r s same
  have both := (readUnit_escapeUnit u r).symm.trans (same ▸ readUnit_escapeUnit v s)
  rw [Option.some.injEq, Prod.mk.injEq] at both
  exact ⟨Fin.ext both.1, both.2⟩

theorem escapeUnit_head (u : CodeUnit) : ∃ c t, escapeUnit u = c :: t ∧ c ≠ '"' := by
  unfold escapeUnit
  split_ifs with h1 h2 h3 h4 h5 h6 h7 h8
  all_goals try exact ⟨'\\', _, rfl, by decide⟩
  refine ⟨_, _, rfl, ?_⟩
  intro same
  exact h1 ((toNat_printable h8.2).symm.trans (congrArg Char.toNat same))

def quoteUnits (us : List CodeUnit) : List Char := '"' :: (us.flatMap escapeUnit ++ ['"'])

theorem quoteUnits_selfDelimiting : SelfDelimiting quoteUnits := by
  intro us vs r s same
  refine escapeUnit_selfDelimiting.flatMap_closed '"' escapeUnit_head ?_
  exact (List.cons.inj same).2

end Escapes

section Paths

/-- `s.rstrip("/").rsplit("/", 1)[-1]` with the separator as a parameter. -/
def trailingSegment {α : Type*} [DecidableEq α] (slash : α) (s : List α) : List α :=
  (s.rdropWhile (· = slash)).rtakeWhile (· ≠ slash)

theorem trailingSegment_append {α : Type*} [DecidableEq α] {slash : α} {s : List α}
    (nonempty : s ≠ []) (plain : slash ∉ s) (base : List α) :
    trailingSegment slash (base ++ slash :: s) = s := by
  have last : s.getLast nonempty ≠ slash := fun h => plain (h ▸ List.getLast_mem nonempty)
  have keep : (base ++ slash :: s).rdropWhile (· = slash) = base ++ slash :: s := by
    rw [List.rdropWhile_eq_self_iff]
    intro h
    simpa [List.getLast_append, List.getLast_cons nonempty] using last
  have take : ∀ t : List α, slash ∉ t → ∀ b : List α,
      (b ++ slash :: t).rtakeWhile (· ≠ slash) = t := by
    intro t
    induction t using List.reverseRecOn with
    | nil =>
      intro _ b
      exact List.rtakeWhile_concat_neg _ _ _ (by simp)
    | append_singleton t x ih =>
      intro h b
      have parts : slash ∉ t ∧ x ≠ slash := by simpa [eq_comm] using h
      rw [show b ++ slash :: (t ++ [x]) = (b ++ slash :: t) ++ [x] by simp,
        List.rtakeWhile_concat_pos _ _ _ (by simpa using parts.2), ih parts.1 b]
  rw [trailingSegment, keep, take s plain base]

theorem trailingSegment_map {α β : Type*} [DecidableEq α] [DecidableEq β] {f : α → β}
    (inj : Function.Injective f) (slash : α) (s : List α) :
    trailingSegment (f slash) (s.map f) = (trailingSegment slash s).map f := by
  have eqv : ∀ x, decide (f x = f slash) = decide (x = slash) := fun x => by
    simp [inj.eq_iff]
  have neqv : ∀ x, decide (f x ≠ f slash) = decide (x ≠ slash) := fun x => by
    simp [inj.eq_iff]
  simp only [trailingSegment, List.rdropWhile, List.rtakeWhile, ← List.map_reverse,
    List.dropWhile_map, List.takeWhile_map, Function.comp_def, eqv, neqv]

end Paths

end AgentTrust.PyText
