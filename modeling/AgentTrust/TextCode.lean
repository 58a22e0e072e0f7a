import Mathlib.Algebra.Group.Nat.Defs
import Mathlib.Data.List.Basic
import Mathlib.Data.Bool.AllAny
import Mathlib.Data.List.DropRight
import Mathlib.Data.List.Lex
import Mathlib.Tactic.Common

/-! Codes over an arbitrary alphabet. A self-delimiting code tells where each
value ends without looking further; a code that reads back under a follow set
needs the next symbol for that (numbers before a comma or a bracket). Joined
fields are unique when no field holds the separator, and fixed-width decimals
are unique below the power of ten of their width. -/

namespace AgentTrust.TextCode

section Codes

variable {α χ : Type*}

def SelfDelimiting (enc : α → List χ) : Prop :=
  ∀ ⦃a b : α⦄ ⦃r s : List χ⦄, enc a ++ r = enc b ++ s → a = b ∧ r = s

/-- The code of `a` determines `a` and the rest, if both rests meet `follow`. -/
def ReadsBack (follow : List χ → Prop) (enc : α → List χ) (a : α) : Prop :=
  ∀ ⦃b : α⦄ ⦃r s : List χ⦄, follow r → follow s →
    enc a ++ r = enc b ++ s → a = b ∧ r = s

theorem SelfDelimiting.injective {enc : α → List χ} (h : SelfDelimiting enc) :
    Function.Injective enc := by
  intro a b equal
  exact (h (r := []) (s := []) (by rw [equal])).1

/-- A run of self-delimiting codes closed by a symbol that starts none of them. -/
theorem SelfDelimiting.flatMap_closed {enc : α → List χ} (h : SelfDelimiting enc)
    (close : χ) (start : ∀ a, ∃ c t, enc a = c :: t ∧ c ≠ close) :
    SelfDelimiting (fun xs : List α => xs.flatMap enc ++ [close]) := by
  intro xs
  induction xs with
  | nil =>
    intro ys r s equal
    cases ys with
    | nil => simpa using equal
    | cons y ys =>
      obtain ⟨c, t, hc, hne⟩ := start y
      simp only [List.flatMap_nil, List.flatMap_cons, hc, List.nil_append,
        List.cons_append, List.cons.injEq] at equal
      exact absurd equal.1.symm hne
  | cons x xs ih =>
    intro ys r s equal
    cases ys with
    | nil =>
      obtain ⟨c, t, hc, hne⟩ := start x
      simp only [List.flatMap_nil, List.flatMap_cons, hc, List.nil_append,
        List.cons_append, List.cons.injEq] at equal
      exact absurd equal.1 hne
    | cons y ys =>
      simp only [List.flatMap_cons, List.append_assoc] at equal
      obtain ⟨rfl, rest⟩ := h equal
      obtain ⟨rfl, tail⟩ := ih (by simpa only [List.append_assoc] using rest)
      exact ⟨rfl, tail⟩

theorem SelfDelimiting.flatMap_injective {enc : α → List χ} (h : SelfDelimiting enc)
    (nonempty : ∀ a, enc a ≠ []) : Function.Injective fun xs : List α => xs.flatMap enc := by
  intro xs
  induction xs with
  | nil =>
    intro ys same
    cases ys with
    | nil => rfl
    | cons y ys => simp [nonempty y] at same
  | cons x xs ih =>
    intro ys same
    cases ys with
    | nil => simp [nonempty x] at same
    | cons y ys =>
      simp only [List.flatMap_cons] at same
      obtain ⟨rfl, rest⟩ := h same
      rw [ih rest]

theorem intercalate_cons (sep : χ) (t : List χ) (ts : List (List χ)) :
    [sep].intercalate (t :: ts) =
      t ++ (if ts = [] then [] else sep :: [sep].intercalate ts) := by
  cases ts with
  | nil => simp
  | cons u us => simp [List.intercalate, List.intersperse]

/-- Separated items closed by a bracket: each item reads back in front of the
separator and in front of the bracket, and none starts with the bracket. -/
theorem readsBack_intercalate {enc : α → List χ} {follow : List χ → Prop}
    {sep close : χ} (distinct : sep ≠ close)
    (followSep : ∀ r, follow (sep :: r)) (followClose : ∀ r, follow (close :: r))
    (start : ∀ a, ∃ c t, enc a = c :: t ∧ c ≠ close)
    {xs : List α} (items : ∀ x ∈ xs, ReadsBack follow enc x) :
    ∀ {ys : List α} {r s : List χ},
      [sep].intercalate (xs.map enc) ++ close :: r =
        [sep].intercalate (ys.map enc) ++ close :: s → xs = ys ∧ r = s := by
  have tailFollow : ∀ (zs : List α) (r : List χ), follow
      ((if zs.map enc = [] then [] else sep :: [sep].intercalate (zs.map enc)) ++ close :: r) := by
    intro zs r
    split
    · exact followClose r
    · exact followSep _
  induction xs with
  | nil =>
    intro ys r s equal
    cases ys with
    | nil => simpa using equal
    | cons y ys =>
      obtain ⟨c, t, hc, hne⟩ := start y
      simp only [List.map_nil, List.intercalate_nil, List.map_cons, intercalate_cons, hc,
        List.nil_append, List.cons_append, List.cons.injEq] at equal
      exact absurd equal.1.symm hne
  | cons x xs ih =>
    intro ys r s equal
    cases ys with
    | nil =>
      obtain ⟨c, t, hc, hne⟩ := start x
      simp only [List.map_nil, List.intercalate_nil, List.map_cons, intercalate_cons, hc,
        List.nil_append, List.cons_append, List.cons.injEq] at equal
      exact absurd equal.1 hne
    | cons y ys =>
      simp only [List.map_cons, intercalate_cons, List.append_assoc] at equal
      obtain ⟨rfl, rest⟩ :=
        items x (by simp) (tailFollow xs r) (tailFollow ys s) equal
      have others := @ih fun z hz => items z (List.mem_cons_of_mem x hz)
      -- After the first item both sides stop, or both go on with the separator.
      rcases xs with _ | ⟨x', xs⟩ <;> rcases ys with _ | ⟨y', ys⟩
      · simpa using rest
      · simp only [List.map_nil, List.map_cons, if_true, reduceCtorEq, if_false,
          List.nil_append, List.cons_append, List.cons.injEq] at rest
        exact absurd rest.1.symm distinct
      · simp only [List.map_nil, List.map_cons, if_true, reduceCtorEq, if_false,
          List.nil_append, List.cons_append, List.cons.injEq] at rest
        exact absurd rest.1 distinct
      · simp only [List.map_cons, reduceCtorEq, if_false, List.cons_append,
          List.cons.injEq, true_and] at rest
        obtain ⟨same, tail⟩ := @others (y' :: ys) r s (by simpa only [List.map_cons] using rest)
        exact ⟨by rw [same], tail⟩

end Codes

section Separators

variable {χ : Type*} {sep : χ}

theorem append_sep_inj {a b r s : List χ} (ha : sep ∉ a) (hb : sep ∉ b)
    (equal : a ++ sep :: r = b ++ sep :: s) : a = b ∧ r = s := by
  induction a generalizing b with
  | nil =>
    cases b with
    | nil => simpa using equal
    | cons y b =>
      simp only [List.nil_append, List.cons_append, List.cons.injEq] at equal
      exact absurd (by simp [equal.1]) hb
  | cons x a ih =>
    cases b with
    | nil =>
      simp only [List.nil_append, List.cons_append, List.cons.injEq] at equal
      exact absurd (by simp [equal.1]) ha
    | cons y b =>
      simp only [List.cons_append, List.cons.injEq] at equal
      obtain ⟨rfl, rest⟩ := equal
      obtain ⟨rfl, tail⟩ := ih (fun h => ha (List.mem_cons_of_mem _ h))
        (fun h => hb (List.mem_cons_of_mem _ h)) rest
      exact ⟨rfl, tail⟩

theorem append_sep_inj_last {a b r s : List χ} (hr : sep ∉ r) (hs : sep ∉ s)
    (equal : a ++ sep :: r = b ++ sep :: s) : a = b ∧ r = s := by
  have reversed : r.reverse ++ sep :: a.reverse = s.reverse ++ sep :: b.reverse := by
    simpa using congrArg List.reverse equal
  obtain ⟨last, front⟩ := append_sep_inj (by simpa using hr) (by simpa using hs) reversed
  exact ⟨List.reverse_injective front, List.reverse_injective last⟩

theorem append_sep_inj_once {a b r s : List χ} (ha : sep ∉ a) (hr : sep ∉ r)
    (equal : a ++ sep :: r = b ++ sep :: s) : a = b ∧ r = s := by
  refine append_sep_inj ha ?_ equal
  induction a generalizing b with
  | nil =>
    cases b with
    | nil => simp
    | cons y b =>
      have tail := (List.cons.inj equal).2
      exact absurd (by simp [tail]) hr
  | cons x a ih =>
    cases b with
    | nil => simp
    | cons y b =>
      obtain ⟨rfl, rest⟩ := List.cons.inj equal
      obtain ⟨first, later⟩ := not_or.mp (mt List.mem_cons.mpr ha)
      exact fun h => (List.mem_cons.mp h).elim first (ih later rest)

theorem mem_intercalate {c : χ} {xs : List (List χ)} (h : c ∈ [sep].intercalate xs) :
    c = sep ∨ ∃ x ∈ xs, c ∈ x := by
  induction xs with
  | nil => simp [List.intercalate] at h
  | cons x xs ih =>
    rw [intercalate_cons] at h
    rcases List.mem_append.mp h with first | rest
    · exact .inr ⟨x, by simp, first⟩
    · split at rest
      · simp at rest
      · rcases List.mem_cons.mp rest with rfl | later
        · exact .inl rfl
        · refine (ih later).imp id ?_
          rintro ⟨y, hy, hc⟩
          exact ⟨y, by simp [hy], hc⟩

theorem infix_intercalate {sep x : List χ} {xs : List (List χ)} (h : x ∈ xs) :
    x <:+: sep.intercalate xs := by
  induction xs with
  | nil => simp at h
  | cons y ys ih =>
    cases ys with
    | nil =>
      obtain rfl := List.mem_singleton.mp h
      simp only [List.intercalate_singleton, List.infix_rfl]
    | cons z zs =>
      rw [List.intercalate_cons_cons, List.append_assoc]
      rcases List.mem_cons.mp h with rfl | h
      · exact (List.prefix_append _ _).isInfix
      · exact (ih h).trans ((List.suffix_append _ _).trans (List.suffix_append _ _)).isInfix

theorem length_le_flatMap {α : Type*} {f : α → List χ} (present : ∀ a, f a ≠ []) (xs : List α) :
    xs.length ≤ (xs.flatMap f).length := by
  induction xs with
  | nil => simp
  | cons a xs ih =>
    have first := List.length_pos_of_ne_nil (present a)
    rw [List.flatMap_cons, List.length_append, List.length_cons]
    omega

end Separators

section Decimals

/-- The last `w` decimal digits of `n`, most significant first. -/
def zfill : (w n : Nat) → List Char
  | 0, _ => []
  | w + 1, n => zfill w (n / 10) ++ [(n % 10).digitChar]

@[simp] theorem zfill_length (w n : Nat) : (zfill w n).length = w := by
  induction w generalizing n with
  | zero => rfl
  | succ w ih => simp [zfill, ih]

theorem digit_of_mem_zfill {w n : Nat} {c : Char} (h : c ∈ zfill w n) : c.isDigit := by
  induction w generalizing n with
  | zero => simp [zfill] at h
  | succ w ih =>
    rcases List.mem_append.mp h with front | last
    · exact ih front
    · rw [List.mem_singleton.mp last, Nat.isDigit_digitChar]
      exact decide_eq_true (Nat.mod_lt n (by decide))

theorem ofDigitChars_zfill {w n : Nat} (h : n < 10 ^ w) :
    Nat.ofDigitChars 10 (zfill w n) 0 = n := by
  induction w generalizing n with
  | zero => simp at h; simp [zfill, h]
  | succ w ih =>
    have front : n / 10 < 10 ^ w := by
      rw [Nat.pow_succ] at h
      omega
    have digit : n % 10 < 10 := Nat.mod_lt n (by decide)
    rw [zfill, Nat.ofDigitChars_append, ih front,
      Nat.ofDigitChars_cons_digitChar_of_lt_ten digit, Nat.ofDigitChars_nil]
    omega

theorem zfill_inj {w m n : Nat} (hm : m < 10 ^ w) (hn : n < 10 ^ w)
    (equal : zfill w m = zfill w n) : m = n := by
  rw [← ofDigitChars_zfill hm, ← ofDigitChars_zfill hn, equal]

theorem toDigits_inj {m n : Nat} (equal : Nat.toDigits 10 m = Nat.toDigits 10 n) : m = n := by
  rw [← Nat.ofDigitChars_ten_toDigits (n := m), ← Nat.ofDigitChars_ten_toDigits (n := n), equal]

theorem rdropWhile_append_replicate {χ : Type*} [DecidableEq χ] (zero : χ) (l : List χ) :
    l.rdropWhile (· = zero) ++
      List.replicate (l.length - (l.rdropWhile (· = zero)).length) zero = l := by
  induction l using List.reverseRecOn with
  | nil => simp
  | append_singleton l x ih =>
    by_cases hx : x = zero
    · rw [List.rdropWhile_concat_pos _ _ _ (by simpa using hx)]
      have short : (l.rdropWhile (· = zero)).length ≤ l.length :=
        (List.rdropWhile_prefix _ l).length_le
      have count : (l ++ [x]).length - (l.rdropWhile (· = zero)).length =
          (l.length - (l.rdropWhile (· = zero)).length) + 1 := by
        simp only [List.length_append, List.length_singleton]
        omega
      rw [count, List.replicate_succ', ← List.append_assoc, ih, hx]
    · rw [List.rdropWhile_concat_neg _ _ _ (by simpa using hx)]
      simp

theorem rdropWhile_inj_of_length {χ : Type*} [DecidableEq χ] (zero : χ) {a b : List χ}
    (len : a.length = b.length)
    (equal : a.rdropWhile (· = zero) = b.rdropWhile (· = zero)) : a = b := by
  rw [← rdropWhile_append_replicate zero a, ← rdropWhile_append_replicate zero b, equal, len]

section Order

theorem lex_append_of_length {χ : Type*} {r : χ → χ → Prop} {a b : List χ}
    (h : List.Lex r a b) (len : a.length = b.length) (s t : List χ) :
    List.Lex r (a ++ s) (b ++ t) := by
  induction h with
  | nil => simp at len
  | rel first => exact .rel first
  | cons _ ih => exact .cons (ih (by simpa using len))

theorem digitChar_lt {m n : Nat} (hn : n < 10) (h : m < n) :
    m.digitChar.toNat < n.digitChar.toNat := by
  have table : ∀ n < 10, ∀ m < n, m.digitChar.toNat < n.digitChar.toNat := by decide
  exact table n hn m h

theorem zfill_lt {w m n : Nat} (hn : n < 10 ^ w) (h : m < n) :
    List.Lex (fun c d : Char => c.toNat < d.toNat) (zfill w m) (zfill w n) := by
  induction w generalizing m n with
  | zero => omega
  | succ w ih =>
    have front : n / 10 < 10 ^ w := by
      rw [Nat.pow_succ] at hn
      omega
    rw [zfill, zfill]
    rcases Nat.lt_or_ge (m / 10) (n / 10) with less | geq
    · exact lex_append_of_length (ih front less) (by simp) _ _
    · have same : m / 10 = n / 10 := by omega
      have last : (m % 10).digitChar.toNat < (n % 10).digitChar.toNat :=
        digitChar_lt (Nat.mod_lt n (by decide)) (by omega)
      rw [same]
      exact List.Lex.append_left (fun c d : Char => c.toNat < d.toNat) (.rel last) _

end Order

end Decimals

end AgentTrust.TextCode
