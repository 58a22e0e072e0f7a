import AgentTrust.TextCode
import AgentTrust.JsonTree

/-! The compact text of a JSON value: no blanks, entries in the order they are
stored. A lexicon says how strings are quoted and non-integer numbers written,
and carries what unique readability needs of them: quoted strings delimit
themselves, numbers hold no structural character and never look like integers. -/

namespace AgentTrust.JsonText

open TextCode JsonTree JsonTree.Json

structure Lexicon (σ φ : Type) where
  quote : σ → List Char
  number : φ → List Char
  quote_selfDelimiting : SelfDelimiting quote
  quote_head : ∀ s, ∃ t, quote s = '"' :: t
  number_injective : Function.Injective number
  number_head : ∀ f, ∃ c t, number f = c :: t ∧ c ∉ ['"', '[', '{', 'n', 't', 'f']
  number_plain : ∀ f, ∀ c ∈ number f, c ∉ [',', ']', '}']
  number_not_int : ∀ f, ∃ c ∈ number f, c ≠ '-' ∧ c.isDigit = false

def intText : Int → List Char
  | .ofNat n => Nat.toDigits 10 n
  | .negSucc n => '-' :: Nat.toDigits 10 (n + 1)

def boolText (b : Bool) : List Char := if b then "true".toList else "false".toList

def arrText (items : List (List Char)) : List Char := '[' :: ([','].intercalate items ++ [']'])

def objText (items : List (List Char)) : List Char := '{' :: ([','].intercalate items ++ ['}'])

variable {σ φ : Type}

def entryText (L : Lexicon σ φ) (p : σ × List Char) : List Char := L.quote p.1 ++ ':' :: p.2

def render (L : Lexicon σ φ) : Json σ φ → List Char :=
  fold ⟨"null".toList, boolText, intText, L.number, L.quote, arrText,
    fun fields => objText (fields.map (entryText L))⟩

@[simp] theorem render_arr (L : Lexicon σ φ) (xs : List (Json σ φ)) :
    render L (arr xs) = arrText (xs.map (render L)) := by
  rw [render, fold_arr]

@[simp] theorem render_obj (L : Lexicon σ φ) (fields : List (σ × Json σ φ)) :
    render L (obj fields) = objText (fields.map fun p => entryText L (p.1, render L p.2)) := by
  rw [render, fold_obj]
  exact congrArg objText List.map_map

section Integers

theorem digit_of_mem_toDigits {n : Nat} {c : Char} (h : c ∈ Nat.toDigits 10 n) : c.isDigit :=
  Nat.isDigit_of_mem_toDigits (by decide) (by decide) h

theorem intText_chars (i : Int) : ∀ c ∈ intText i, c = '-' ∨ c.isDigit := by
  cases i with
  | ofNat n => exact fun c h => .inr (digit_of_mem_toDigits h)
  | negSucc n =>
    intro c h
    rcases List.mem_cons.mp h with rfl | rest
    · exact .inl rfl
    · exact .inr (digit_of_mem_toDigits rest)

theorem intText_head (i : Int) : ∃ c t, intText i = c :: t ∧ (c = '-' ∨ c.isDigit) := by
  have chars := intText_chars i
  have nonempty : intText i ≠ [] := by
    cases i with
    | ofNat n => exact Nat.toDigits_ne_nil
    | negSucc n => exact List.cons_ne_nil _ _
  obtain ⟨c, t, same⟩ := List.exists_cons_of_ne_nil nonempty
  exact ⟨c, t, same, chars c (by simp [same])⟩

theorem toDigits_ne_negative (m n : Nat) : Nat.toDigits 10 m ≠ '-' :: Nat.toDigits 10 n := by
  intro same
  have sign : Char.isDigit '-' := digit_of_mem_toDigits (n := m) (by simp [same])
  exact absurd sign (by decide)

theorem intText_injective : Function.Injective intText := by
  intro i j same
  cases i with
  | ofNat m =>
    cases j with
    | ofNat n => rw [toDigits_inj same]
    | negSucc n => exact absurd same (toDigits_ne_negative m (n + 1))
  | negSucc m =>
    cases j with
    | ofNat n => exact absurd same.symm (toDigits_ne_negative n (m + 1))
    | negSucc n =>
      have digits := toDigits_inj (List.cons.inj same).2
      rw [Nat.succ.inj digits]

end Integers

section Heads

inductive Kind where
  | atom | str | arr | obj
  deriving DecidableEq

def Kind.ofChar (c : Char) : Kind :=
  if c = '"' then .str else if c = '[' then .arr else if c = '{' then .obj else .atom

def kind : Json σ φ → Kind
  | .str _ => .str
  | .arr _ => .arr
  | .obj _ => .obj
  | _ => .atom

theorem Kind.ofChar_digit {c : Char} (h : c = '-' ∨ c.isDigit) : Kind.ofChar c = .atom := by
  have other : c ≠ '"' ∧ c ≠ '[' ∧ c ≠ '{' := by
    refine ⟨?_, ?_, ?_⟩ <;> rintro rfl <;> revert h <;> decide
  simp [Kind.ofChar, other]

theorem render_head (L : Lexicon σ φ) (x : Json σ φ) :
    ∃ c t, render L x = c :: t ∧ Kind.ofChar c = kind x := by
  cases x with
  | null => exact ⟨'n', _, rfl, rfl⟩
  | bool b => cases b <;> exact ⟨_, _, rfl, rfl⟩
  | int i =>
    obtain ⟨c, t, same, shape⟩ := intText_head i
    exact ⟨c, t, same, Kind.ofChar_digit shape⟩
  | float f =>
    obtain ⟨c, t, same, shape⟩ := L.number_head f
    refine ⟨c, t, same, ?_⟩
    simp only [List.mem_cons, not_or] at shape
    simp [Kind.ofChar, shape, kind]
  | str s =>
    obtain ⟨t, same⟩ := L.quote_head s
    exact ⟨'"', t, same, rfl⟩
  | arr xs => exact ⟨'[', _, by simp [render, arrText]; rfl, rfl⟩
  | obj fields => exact ⟨'{', _, by simp [render, objText]; rfl, rfl⟩

theorem kind_eq_of_append {L : Lexicon σ φ} {x y : Json σ φ} {r s : List Char}
    (same : render L x ++ r = render L y ++ s) : kind x = kind y := by
  obtain ⟨c, t, hx, kx⟩ := render_head L x
  obtain ⟨d, u, hy, ky⟩ := render_head L y
  rw [hx, hy, List.cons_append, List.cons_append, List.cons.injEq] at same
  rw [← kx, ← ky, same.1]

end Heads

section Atoms

/-- What may stand after a value: the end of the text or a structural character. -/
def Follow : List Char → Prop
  | [] => True
  | c :: _ => c ∈ [',', ']', '}']

theorem render_atom_plain (L : Lexicon σ φ) {x : Json σ φ} (atom : kind x = .atom) :
    ∀ c ∈ render L x, c ∉ [',', ']', '}'] := by
  cases x with
  | null =>
    change ∀ c ∈ "null".toList, c ∉ [',', ']', '}']
    exact List.all_iff_forall_prop.mp (by decide)
  | bool b =>
    have words : ∀ b, (boolText b).all fun c => c ∉ [',', ']', '}'] := by decide
    exact List.all_iff_forall_prop.mp (words b)
  | int i =>
    intro c h delimiter
    have shape := intText_chars i c h
    simp only [List.mem_cons, List.not_mem_nil, or_false] at delimiter
    rcases delimiter with rfl | rfl | rfl <;> revert shape <;> decide
  | float f => exact L.number_plain f
  | str s => simp [kind] at atom
  | arr xs => simp [kind] at atom
  | obj fields => simp [kind] at atom

theorem plain_append_inj {a b r s : List Char}
    (ha : ∀ c ∈ a, c ∉ [',', ']', '}']) (hb : ∀ c ∈ b, c ∉ [',', ']', '}'])
    (hr : Follow r) (hs : Follow s) (same : a ++ r = b ++ s) : a = b ∧ r = s := by
  induction a generalizing b with
  | nil =>
    cases b with
    | nil => exact ⟨rfl, same⟩
    | cons c b =>
      rw [List.nil_append, List.cons_append] at same
      rw [same] at hr
      exact absurd hr (hb c (by simp))
  | cons c a ih =>
    cases b with
    | nil =>
      rw [List.nil_append, List.cons_append] at same
      rw [← same] at hs
      exact absurd hs (ha c (by simp))
    | cons d b =>
      rw [List.cons_append, List.cons_append, List.cons.injEq] at same
      obtain ⟨rfl, tail⟩ := ih (fun x hx => ha x (by simp [hx]))
        (fun x hx => hb x (by simp [hx])) same.2
      exact ⟨by rw [same.1], tail⟩

theorem number_ne_intText (L : Lexicon σ φ) (f : φ) (i : Int) : L.number f ≠ intText i := by
  intro same
  obtain ⟨c, hc, hne, hdigit⟩ := L.number_not_int f
  rcases intText_chars i c (same ▸ hc) with sign | digit
  · exact hne sign
  · rw [hdigit] at digit
    exact Bool.false_ne_true digit

theorem word_ne_number (L : Lexicon σ φ) {w : List Char}
    (hw : ∃ c t, w = c :: t ∧ c ∈ ['n', 't', 'f']) (f : φ) : w ≠ L.number f := by
  rintro rfl
  obtain ⟨c, t, same, word⟩ := hw
  obtain ⟨d, u, same', shape⟩ := L.number_head f
  rw [same, List.cons.injEq] at same'
  rw [← same'.1] at shape
  simp only [List.mem_cons, not_or] at shape word
  tauto

theorem word_ne_intText {w : List Char}
    (hw : ∃ c t, w = c :: t ∧ c ∈ ['n', 't', 'f']) (i : Int) : w ≠ intText i := by
  rintro rfl
  obtain ⟨c, t, same, word⟩ := hw
  obtain ⟨d, u, same', shape⟩ := intText_head i
  rw [same, List.cons.injEq] at same'
  rw [← same'.1] at shape
  simp only [List.mem_cons, List.not_mem_nil, or_false] at word
  rcases word with rfl | rfl | rfl <;> revert shape <;> decide

theorem null_word : ∃ c t, "null".toList = c :: t ∧ c ∈ ['n', 't', 'f'] :=
  ⟨_, _, rfl, by decide⟩

theorem boolText_word (b : Bool) : ∃ c t, boolText b = c :: t ∧ c ∈ ['n', 't', 'f'] := by
  cases b <;> exact ⟨_, _, rfl, by decide⟩

theorem render_atom_inj (L : Lexicon σ φ) {x y : Json σ φ} (hx : kind x = .atom)
    (hy : kind y = .atom) (same : render L x = render L y) : x = y := by
  have nullBool : ∀ b, "null".toList ≠ boolText b := by decide
  cases x with
  | null =>
    cases y with
    | null => rfl
    | bool b => exact absurd same (nullBool b)
    | int i => exact absurd same (word_ne_intText null_word i)
    | float f => exact absurd same (word_ne_number L null_word f)
    | _ => simp [kind] at hy
  | bool b =>
    cases y with
    | null => exact absurd same.symm (nullBool b)
    | bool c => revert same; cases b <;> cases c <;> simp [render, boolText]
    | int i => exact absurd same (word_ne_intText (boolText_word b) i)
    | float f => exact absurd same (word_ne_number L (boolText_word b) f)
    | _ => simp [kind] at hy
  | int i =>
    cases y with
    | null => exact absurd same.symm (word_ne_intText null_word i)
    | bool b => exact absurd same.symm (word_ne_intText (boolText_word b) i)
    | int j => rw [intText_injective same]
    | float f => exact absurd same.symm (number_ne_intText L f i)
    | _ => simp [kind] at hy
  | float f =>
    cases y with
    | null => exact absurd same.symm (word_ne_number L null_word f)
    | bool b => exact absurd same.symm (word_ne_number L (boolText_word b) f)
    | int i => exact absurd same (number_ne_intText L f i)
    | float g => rw [L.number_injective same]
    | _ => simp [kind] at hy
  | _ => simp [kind] at hx

end Atoms

section Containers

theorem entryText_readsBack (L : Lexicon σ φ) {follow : List Char → Prop}
    (p : σ × Json σ φ) (value : ReadsBack follow (render L) p.2) :
    ReadsBack follow (fun q : σ × Json σ φ => entryText L (q.1, render L q.2)) p := by
  intro q r s hr hs same
  simp only [entryText, List.append_assoc, List.cons_append] at same
  obtain ⟨key, rest⟩ := L.quote_selfDelimiting same
  obtain ⟨val, tail⟩ := value hr hs (List.cons.inj rest).2
  exact ⟨Prod.ext key val, tail⟩

/-- Every value reads back from its text wherever a value may stand. -/
theorem render_readsBack (L : Lexicon σ φ) (x : Json σ φ) : ReadsBack Follow (render L) x := by
  have atoms : ∀ x : Json σ φ, kind x = .atom → ReadsBack Follow (render L) x := by
    intro x hx y r s hr hs same
    have hy : kind y = .atom := (kind_eq_of_append same).symm.trans hx
    obtain ⟨text, tail⟩ := plain_append_inj (render_atom_plain L hx)
      (render_atom_plain L hy) hr hs same
    exact ⟨render_atom_inj L hx hy text, tail⟩
  induction x with
  | null => exact atoms _ rfl
  | bool b => exact atoms _ rfl
  | int i => exact atoms _ rfl
  | float f => exact atoms _ rfl
  | str a =>
    intro y r s _ _ same
    have shape := kind_eq_of_append same
    cases y with
    | str b =>
      obtain ⟨rfl, tail⟩ := L.quote_selfDelimiting same
      exact ⟨rfl, tail⟩
    | _ => simp [kind] at shape
  | arr xs ih =>
    intro y r s _ _ same
    have shape := kind_eq_of_append same
    cases y with
    | arr ys =>
      have inner : [','].intercalate (xs.map (render L)) ++ ']' :: r =
          [','].intercalate (ys.map (render L)) ++ ']' :: s := by
        simpa [render, arrText] using same
      have start : ∀ x : Json σ φ, ∃ c t, render L x = c :: t ∧ c ≠ ']' := by
        intro x
        obtain ⟨c, t, hc, hk⟩ := render_head L x
        refine ⟨c, t, hc, ?_⟩
        rintro rfl
        have plain := render_atom_plain L hk.symm ']' (by simp [hc])
        exact plain (by decide)
      obtain ⟨rfl, tail⟩ := readsBack_intercalate (by decide) (fun _ => by simp [Follow])
        (fun _ => by simp [Follow]) start ih inner
      exact ⟨rfl, tail⟩
    | _ => simp [kind] at shape
  | obj fields ih =>
    intro y r s _ _ same
    have shape := kind_eq_of_append same
    cases y with
    | obj others =>
      have inner : [','].intercalate
            (fields.map fun p => entryText L (p.1, render L p.2)) ++ '}' :: r =
          [','].intercalate
            (others.map fun p => entryText L (p.1, render L p.2)) ++ '}' :: s := by
        simpa [render, objText, Function.comp_def] using same
      have start : ∀ p : σ × Json σ φ,
          ∃ c t, entryText L (p.1, render L p.2) = c :: t ∧ c ≠ '}' := by
        intro p
        obtain ⟨t, ht⟩ := L.quote_head p.1
        exact ⟨'"', _, by rw [entryText, ht]; rfl, by decide⟩
      obtain ⟨rfl, tail⟩ := readsBack_intercalate (by decide) (fun _ => by simp [Follow])
        (fun _ => by simp [Follow]) start
        (fun p hp => entryText_readsBack L p (ih p hp)) inner
      exact ⟨rfl, tail⟩
    | _ => simp [kind] at shape

theorem render_injective (L : Lexicon σ φ) : Function.Injective (render L) := by
  intro x y same
  have both : render L x ++ [] = render L y ++ [] := by rw [same]
  have stop : Follow [] := trivial
  exact (render_readsBack L x stop stop both).1

end Containers

section Strings

variable {ρ τ : Type} {L : Lexicon σ φ}

theorem render_map_congr {M : Lexicon τ φ} {f : ρ → σ} {g : ρ → τ} {P : ρ → Bool}
    (numbers : ∀ x, L.number x = M.number x) (quotes : ∀ s, P s → L.quote (f s) = M.quote (g s))
    (x : Json ρ φ) (strings : x.stringsAll P) : render L (x.map f) = render M (x.map g) := by
  induction x using Json.induction with
  | null => rfl
  | bool b => rfl
  | int i => rfl
  | float a => exact numbers a
  | str s => exact quotes s strings
  | arr xs ih =>
    rw [stringsAll_arr, List.all_eq_true] at strings
    rw [map_arr, map_arr, render_arr, render_arr, List.map_map, List.map_map]
    exact congrArg arrText (List.map_congr_left fun x hx => ih x hx (strings x hx))
  | obj fields ih =>
    rw [stringsAll_obj, List.all_eq_true] at strings
    rw [map_obj, map_obj, render_obj, render_obj, List.map_map, List.map_map]
    refine congrArg objText (List.map_congr_left fun p hp => ?_)
    obtain ⟨key, value⟩ := Bool.and_eq_true_iff.mp (strings p hp)
    simp only [Function.comp_apply, entryText, quotes p.1 key, ih p hp value]

def printable (c : Char) : Bool := 0x20 ≤ c.toNat && c.toNat ≤ 0x7E

theorem printable_intercalate {items : List (List Char)} (h : ∀ t ∈ items, t.all printable) :
    ([','].intercalate items).all printable := by
  rw [List.all_eq_true]
  intro c hc
  rcases mem_intercalate hc with rfl | ⟨t, ht, hc⟩
  · rfl
  · exact List.all_eq_true.mp (h t ht) c hc

theorem printable_digit {c : Char} (digit : c.isDigit) : printable c := by
  obtain ⟨low, high⟩ := Char.isDigit_iff_toNat.mp digit
  simp only [Char.reduceToNat] at low high
  simp only [printable, Bool.and_eq_true, decide_eq_true_eq]
  omega

theorem printable_intText (i : Int) : (intText i).all printable := by
  rw [List.all_eq_true]
  intro c hc
  rcases intText_chars i c hc with rfl | digit
  · rfl
  · exact printable_digit digit

theorem printable_arrText {items : List (List Char)} (h : ∀ t ∈ items, t.all printable) :
    (arrText items).all printable := by
  rw [arrText, List.all_cons, List.all_append, printable_intercalate h]
  rfl

theorem printable_objText {items : List (List Char)} (h : ∀ t ∈ items, t.all printable) :
    (objText items).all printable := by
  rw [objText, List.all_cons, List.all_append, printable_intercalate h]
  rfl

theorem printable_render (numbers : ∀ a, (L.number a).all printable)
    (quotes : ∀ s, (L.quote s).all printable) (x : Json σ φ) : (render L x).all printable := by
  induction x using Json.induction with
  | null => rfl
  | bool b => cases b <;> rfl
  | int i => exact printable_intText i
  | float a => exact numbers a
  | str s => exact quotes s
  | arr xs ih =>
    rw [render_arr]
    exact printable_arrText (List.forall_mem_map.mpr ih)
  | obj fields ih =>
    rw [render_obj]
    refine printable_objText (List.forall_mem_map.mpr fun p hp => ?_)
    rw [entryText, List.all_append, List.all_cons, quotes, ih p hp]
    rfl

theorem infix_arrText {t : List Char} {items : List (List Char)} (h : t ∈ items) :
    t <:+: arrText items :=
  (infix_intercalate h).trans
    ((List.prefix_append _ _).isInfix.trans (List.suffix_cons _ _).isInfix)

theorem infix_objText {t : List Char} {items : List (List Char)} (h : t ∈ items) :
    t <:+: objText items :=
  (infix_intercalate h).trans
    ((List.prefix_append _ _).isInfix.trans (List.suffix_cons _ _).isInfix)

theorem infix_all {Q : Char → Bool} {s t : List Char} (h : t.all Q) (part : s <:+: t) :
    s.all Q :=
  List.all_eq_true.mpr fun c hc => List.all_eq_true.mp h c (part.subset hc)

theorem stringsAll_of_render {Q : Char → Bool} (x : Json σ φ) (h : (render L x).all Q) :
    x.stringsAll fun s => (L.quote s).all Q := by
  induction x using Json.induction with
  | null => rfl
  | bool b => rfl
  | int i => rfl
  | float a => rfl
  | str s => exact h
  | arr xs ih =>
    rw [render_arr] at h
    rw [stringsAll_arr, List.all_eq_true]
    exact fun x hx => ih x hx (infix_all h (infix_arrText (List.mem_map_of_mem hx)))
  | obj fields ih =>
    rw [render_obj] at h
    rw [stringsAll_obj, List.all_eq_true]
    intro p hp
    have item : (entryText L (p.1, render L p.2)).all Q :=
      infix_all h (infix_objText (List.mem_map.mpr ⟨p, hp, rfl⟩))
    rw [entryText, List.all_append, List.all_cons] at item
    simp only [Bool.and_eq_true] at item
    rw [Bool.and_eq_true]
    exact ⟨item.1, ih p hp item.2.2⟩

end Strings

end AgentTrust.JsonText
