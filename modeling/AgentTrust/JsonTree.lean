import Mathlib.Data.List.Sort
import Mathlib.Tactic.Common

/-! JSON values over an arbitrary type `σ` of strings and `φ` of non-integer
numbers. Objects keep their entries in order, so "equal up to the order of keys"
is a relation of its own, `Reorder`: the least equivalence that permutes the
entries of an object and rewrites inside arrays and objects. Sorting the keys at
every level is the normal form of that relation on values with distinct keys. -/

namespace AgentTrust.JsonTree

inductive Json (σ φ : Type) where
  | null
  | bool (b : Bool)
  | int (i : Int)
  | float (f : φ)
  | str (s : σ)
  | arr (xs : List (Json σ φ))
  | obj (fields : List (σ × Json σ φ))

namespace Json

variable {σ τ φ β : Type}

@[elab_as_elim, induction_eliminator]
theorem induction {motive : Json σ φ → Prop}
    (null : motive null) (bool : ∀ b, motive (bool b)) (int : ∀ i, motive (int i))
    (float : ∀ f, motive (float f)) (str : ∀ s, motive (str s))
    (arr : ∀ xs, (∀ x ∈ xs, motive x) → motive (arr xs))
    (obj : ∀ fields, (∀ p ∈ fields, motive p.2) → motive (obj fields))
    (x : Json σ φ) : motive x :=
  @Json.rec σ φ motive (fun xs => ∀ x ∈ xs, motive x)
    (fun fields => ∀ p ∈ fields, motive p.2) (fun p => motive p.2)
    null bool int float str arr obj
    (fun _ h => absurd h List.not_mem_nil)
    (fun _ _ head tail => List.forall_mem_cons.mpr ⟨head, tail⟩)
    (fun _ h => absurd h List.not_mem_nil)
    (fun _ _ head tail => List.forall_mem_cons.mpr ⟨head, tail⟩)
    (fun _ _ h => h) x

/-- One step of a structural computation: what each kind of value makes of the
results of its parts. -/
structure Algebra (σ φ β : Type) where
  null : β
  bool : Bool → β
  int : Int → β
  float : φ → β
  str : σ → β
  arr : List β → β
  obj : List (σ × β) → β

mutual

def fold (A : Algebra σ φ β) : Json σ φ → β
  | .null => A.null
  | .bool b => A.bool b
  | .int i => A.int i
  | .float f => A.float f
  | .str s => A.str s
  | .arr xs => A.arr (foldList A xs)
  | .obj fields => A.obj (foldFields A fields)

def foldList (A : Algebra σ φ β) : List (Json σ φ) → List β
  | [] => []
  | x :: xs => fold A x :: foldList A xs

def foldFields (A : Algebra σ φ β) : List (σ × Json σ φ) → List (σ × β)
  | [] => []
  | (k, x) :: fields => (k, fold A x) :: foldFields A fields

end

theorem foldList_eq (A : Algebra σ φ β) (xs : List (Json σ φ)) :
    foldList A xs = xs.map (fold A) := by
  induction xs with
  | nil => rfl
  | cons x xs ih => rw [foldList, ih, List.map_cons]

theorem foldFields_eq (A : Algebra σ φ β) (fields : List (σ × Json σ φ)) :
    foldFields A fields = fields.map fun p => (p.1, fold A p.2) := by
  induction fields with
  | nil => rfl
  | cons p fields ih => rw [foldFields, ih, List.map_cons]

@[simp] theorem fold_null (A : Algebra σ φ β) : fold A null = A.null := rfl
@[simp] theorem fold_bool (A : Algebra σ φ β) (b : Bool) : fold A (bool b) = A.bool b := rfl
@[simp] theorem fold_int (A : Algebra σ φ β) (i : Int) : fold A (int i) = A.int i := rfl
@[simp] theorem fold_float (A : Algebra σ φ β) (f : φ) : fold A (float f) = A.float f := rfl
@[simp] theorem fold_str (A : Algebra σ φ β) (s : σ) : fold A (str s) = A.str s := rfl

@[simp] theorem fold_arr (A : Algebra σ φ β) (xs : List (Json σ φ)) :
    fold A (arr xs) = A.arr (xs.map (fold A)) := by
  rw [fold, foldList_eq]

@[simp] theorem fold_obj (A : Algebra σ φ β) (fields : List (σ × Json σ φ)) :
    fold A (obj fields) = A.obj (fields.map fun p => (p.1, fold A p.2)) := by
  rw [fold, foldFields_eq]

def map (f : σ → τ) : Json σ φ → Json τ φ :=
  fold ⟨null, bool, int, float, fun s => str (f s), arr,
    fun fields => obj (fields.map fun p => (f p.1, p.2))⟩

@[simp] theorem map_arr (f : σ → τ) (xs : List (Json σ φ)) :
    (arr xs).map f = arr (xs.map (map f)) := by
  simp [map]

@[simp] theorem map_obj (f : σ → τ) (fields : List (σ × Json σ φ)) :
    (obj fields).map f = obj (fields.map fun p => (f p.1, p.2.map f)) := by
  simp [map, Function.comp_def]

@[simp] theorem map_null (f : σ → τ) : (null : Json σ φ).map f = null := rfl
@[simp] theorem map_bool (f : σ → τ) (b : Bool) : (bool b : Json σ φ).map f = bool b := rfl
@[simp] theorem map_int (f : σ → τ) (i : Int) : (int i : Json σ φ).map f = int i := rfl
@[simp] theorem map_float (f : σ → τ) (x : φ) : (float x : Json σ φ).map f = float x := rfl
@[simp] theorem map_str (f : σ → τ) (s : σ) : (str s : Json σ φ).map f = str (f s) := rfl

def stringsAll (P : σ → Bool) : Json σ φ → Bool :=
  fold ⟨true, fun _ => true, fun _ => true, fun _ => true, P, fun xs => xs.all id,
    fun fields => fields.all fun p => P p.1 && p.2⟩

@[simp] theorem stringsAll_str (P : σ → Bool) (s : σ) :
    stringsAll P (str s : Json σ φ) = P s := rfl

@[simp] theorem stringsAll_arr (P : σ → Bool) (xs : List (Json σ φ)) :
    stringsAll P (arr xs) = xs.all (stringsAll P) := by
  simp [stringsAll, List.all_map]

@[simp] theorem stringsAll_obj (P : σ → Bool) (fields : List (σ × Json σ φ)) :
    stringsAll P (obj fields) = fields.all fun p => P p.1 && p.2.stringsAll P := by
  simp [stringsAll, List.all_map, Function.comp_def]

theorem stringsAll_map (P : τ → Bool) (f : σ → τ) (x : Json σ φ) :
    (x.map f).stringsAll P = x.stringsAll fun s => P (f s) := by
  induction x using Json.induction with
  | null => rfl
  | bool b => rfl
  | int i => rfl
  | float a => rfl
  | str s => rfl
  | arr xs ih =>
    rw [map_arr, stringsAll_arr, stringsAll_arr, List.all_map, Bool.eq_iff_iff]
    simp only [List.all_eq_true, Function.comp_apply]
    exact forall₂_congr fun x hx => by rw [ih x hx]
  | obj fields ih =>
    rw [map_obj, stringsAll_obj, stringsAll_obj, List.all_map, Bool.eq_iff_iff]
    simp only [List.all_eq_true, Function.comp_apply]
    exact forall₂_congr fun p hp => by rw [ih p hp]

/-- What follows for a string from two properties of it follows for all strings. -/
theorem stringsAll_of_both {P Q R : σ → Bool} (imp : ∀ s, P s → Q s → R s) (x : Json σ φ)
    (hp : x.stringsAll P) (hq : x.stringsAll Q) : x.stringsAll R := by
  induction x using Json.induction with
  | null => rfl
  | bool b => rfl
  | int i => rfl
  | float a => rfl
  | str s => exact imp s hp hq
  | arr xs ih =>
    rw [stringsAll_arr, List.all_eq_true] at *
    exact fun x hx => ih x hx (hp x hx) (hq x hx)
  | obj fields ih =>
    rw [stringsAll_obj, List.all_eq_true] at *
    intro p member
    obtain ⟨key, value⟩ := Bool.and_eq_true_iff.mp (hp p member)
    obtain ⟨key', value'⟩ := Bool.and_eq_true_iff.mp (hq p member)
    exact Bool.and_eq_true_iff.mpr ⟨imp p.1 key key', ih p member value value'⟩

def floatFree : Json σ φ → Bool :=
  fold ⟨true, fun _ => true, fun _ => true, fun _ => false, fun _ => true, fun xs => xs.all id,
    fun fields => fields.all fun p => p.2⟩

@[simp] theorem floatFree_arr (xs : List (Json σ φ)) : (arr xs).floatFree = xs.all floatFree := by
  simp [floatFree, List.all_map]

@[simp] theorem floatFree_obj (fields : List (σ × Json σ φ)) :
    (obj fields).floatFree = fields.all fun p => p.2.floatFree := by
  simp [floatFree, List.all_map, Function.comp_def]

def depth : Json σ φ → Nat :=
  fold ⟨0, fun _ => 0, fun _ => 0, fun _ => 0, fun _ => 0, fun ds => ds.foldr max 0 + 1,
    fun fields => (fields.map Prod.snd).foldr max 0 + 1⟩

@[simp] theorem depth_arr (xs : List (Json σ φ)) :
    (arr xs).depth = (xs.map depth).foldr max 0 + 1 := by
  simp [depth]

@[simp] theorem depth_obj (fields : List (σ × Json σ φ)) :
    (obj fields).depth = (fields.map fun p => p.2.depth).foldr max 0 + 1 := by
  simp [depth, Function.comp_def]

theorem depth_lt_obj {fields : List (σ × Json σ φ)} {p : σ × Json σ φ} (h : p ∈ fields) :
    p.2.depth < (obj fields).depth := by
  rw [depth_obj, Nat.lt_succ_iff]
  induction fields with
  | nil => simp at h
  | cons q fields ih =>
    rw [List.map_cons, List.foldr_cons]
    rcases List.mem_cons.mp h with rfl | later
    · exact Nat.le_max_left _ _
    · exact (ih later).trans (Nat.le_max_right _ _)

theorem list_map_inj {α β : Type} {f : α → β} {xs ys : List α}
    (inj : ∀ x ∈ xs, ∀ y ∈ ys, f x = f y → x = y) (h : xs.map f = ys.map f) : xs = ys := by
  induction xs generalizing ys with
  | nil => exact (List.map_eq_nil_iff.mp h.symm).symm
  | cons x xs ih =>
    obtain ⟨y, rest, rfl, hy, hrest⟩ := List.map_eq_cons_iff.mp h.symm
    rw [inj x (by simp) y (by simp) hy.symm,
      ih (fun a ha b hb => inj a (by simp [ha]) b (by simp [hb])) hrest.symm]

/-- A renaming that is injective where it is used is injective on whole values. -/
theorem map_inj_of_stringsAll {P : σ → Bool} {f : σ → τ}
    (inj : ∀ s t, P s → P t → f s = f t → s = t) {x : Json σ φ} :
    ∀ {y : Json σ φ}, x.stringsAll P → y.stringsAll P → x.map f = y.map f → x = y := by
  induction x with
  | null => intro y _ _ h; cases y <;> simp_all
  | bool b => intro y _ _ h; cases y <;> simp_all
  | int i => intro y _ _ h; cases y <;> simp_all
  | float x => intro y _ _ h; cases y <;> simp_all
  | str s =>
    intro y hx hy h
    cases y with
    | str t =>
      rw [map_str, map_str, str.injEq] at h
      rw [inj s t hx hy h]
    | _ => simp at h
  | arr xs ih =>
    intro y hx hy h
    cases y with
    | arr ys =>
      rw [map_arr, map_arr, arr.injEq] at h
      rw [stringsAll_arr, List.all_eq_true] at hx hy
      rw [list_map_inj (fun a ha b hb => ih a ha (hx a ha) (hy b hb)) h]
    | _ => simp at h
  | obj fs ih =>
    intro y hx hy h
    cases y with
    | obj gs =>
      rw [map_obj, map_obj, obj.injEq] at h
      simp only [stringsAll_obj, List.all_eq_true, Bool.and_eq_true] at hx hy
      have entry : ∀ p ∈ fs, ∀ q ∈ gs, (f p.1, p.2.map f) = (f q.1, q.2.map f) → p = q := by
        intro p hp q hq same
        rw [Prod.mk.injEq] at same
        exact Prod.ext (inj _ _ (hx p hp).1 (hy q hq).1 same.1)
          (ih p hp (hx p hp).2 (hy q hq).2 same.2)
      rw [list_map_inj entry h]
    | _ => simp at h

def distinctKeys [DecidableEq σ] : Json σ φ → Bool :=
  fold ⟨true, fun _ => true, fun _ => true, fun _ => true, fun _ => true,
    fun xs => xs.all id,
    fun fields => decide (fields.map Prod.fst).Nodup && fields.all fun p => p.2⟩

@[simp] theorem distinctKeys_arr [DecidableEq σ] (xs : List (Json σ φ)) :
    (arr xs).distinctKeys = xs.all distinctKeys := by
  simp [distinctKeys, List.all_map]

@[simp] theorem distinctKeys_obj [DecidableEq σ] (fields : List (σ × Json σ φ)) :
    (obj fields).distinctKeys =
      (decide (fields.map Prod.fst).Nodup && fields.all fun p => p.2.distinctKeys) := by
  simp [distinctKeys, List.all_map, Function.comp_def]

end Json

open Json

section Reordering

variable {σ τ φ : Type}

/-- Equality up to the order of the entries of objects, at every nesting level. -/
inductive Reorder : Json σ φ → Json σ φ → Prop
  | refl (x) : Reorder x x
  | symm {x y} : Reorder x y → Reorder y x
  | trans {x y z} : Reorder x y → Reorder y z → Reorder x z
  | perm {fs gs : List (σ × Json σ φ)} : fs.Perm gs → Reorder (obj fs) (obj gs)
  | item (before after : List (Json σ φ)) {x y} :
      Reorder x y → Reorder (arr (before ++ x :: after)) (arr (before ++ y :: after))
  | field (before after : List (σ × Json σ φ)) (k : σ) {x y} :
      Reorder x y →
      Reorder (obj (before ++ (k, x) :: after)) (obj (before ++ (k, y) :: after))

theorem Reorder.map (f : σ → τ) {x y : Json σ φ} (h : Reorder x y) :
    Reorder (x.map f) (y.map f) := by
  induction h with
  | refl x => exact .refl _
  | symm _ ih => exact .symm ih
  | trans _ _ ihx ihy => exact .trans ihx ihy
  | perm h =>
    rw [map_obj, map_obj]
    exact .perm (h.map _)
  | item before after _ ih =>
    simpa using Reorder.item (before.map (Json.map f)) (after.map (Json.map f)) ih
  | field before after k _ ih =>
    simpa using Reorder.field (before.map fun p => (f p.1, p.2.map f))
      (after.map fun p => (f p.1, p.2.map f)) (f k) ih

theorem Reorder.arr_map (g : Json σ φ → Json σ φ) (before xs : List (Json σ φ))
    (h : ∀ x ∈ xs, Reorder x (g x)) :
    Reorder (arr (before ++ xs)) (arr (before ++ xs.map g)) := by
  induction xs generalizing before with
  | nil => exact .refl _
  | cons x xs ih =>
    have head := Reorder.item before xs (h x (by simp))
    have tail := ih (before ++ [g x]) fun y hy => h y (by simp [hy])
    exact head.trans (by simpa using tail)

theorem Reorder.obj_map (g : Json σ φ → Json σ φ) (before fs : List (σ × Json σ φ))
    (h : ∀ p ∈ fs, Reorder p.2 (g p.2)) :
    Reorder (obj (before ++ fs)) (obj (before ++ fs.map fun p => (p.1, g p.2))) := by
  induction fs generalizing before with
  | nil => exact .refl _
  | cons p fs ih =>
    have head := Reorder.field before fs p.1 (h p (by simp))
    have tail := ih (before ++ [(p.1, g p.2)]) fun q hq => h q (by simp [hq])
    exact head.trans (by simpa using tail)

theorem Reorder.distinctKeys_eq [DecidableEq σ] {x y : Json σ φ} (h : Reorder x y) :
    x.distinctKeys = y.distinctKeys := by
  induction h with
  | refl x => rfl
  | symm _ ih => exact ih.symm
  | trans _ _ ihx ihy => exact ihx.trans ihy
  | perm h =>
    simp only [distinctKeys_obj, (h.map Prod.fst).nodup_iff, h.all_eq]
  | item before after _ ih => simp [ih]
  | field before after k _ ih => simp [ih]

theorem Reorder.stringsAll_eq (P : σ → Bool) {x y : Json σ φ}
    (h : Reorder x y) : x.stringsAll P = y.stringsAll P := by
  induction h with
  | refl x => rfl
  | symm _ ih => exact ih.symm
  | trans _ _ ihx ihy => exact ihx.trans ihy
  | perm h => simp only [stringsAll_obj, h.all_eq]
  | item before after _ ih => simp [ih]
  | field before after k _ ih => simp [ih]

def sortFields {β : Type} (le : σ → σ → Bool) (fields : List (σ × β)) : List (σ × β) :=
  fields.insertionSort fun p q => le p.1 q.1

theorem sortFields_perm {β : Type} (le : σ → σ → Bool) (fields : List (σ × β)) :
    (sortFields le fields).Perm fields := List.perm_insertionSort _ _

theorem sortFields_map {α β : Type} (le : σ → σ → Bool) (g : α → β) (fields : List (σ × α)) :
    sortFields le (fields.map fun p => (p.1, g p.2)) =
      (sortFields le fields).map fun p => (p.1, g p.2) :=
  (List.map_insertionSort (fun p q : σ × α => le p.1 q.1 = true)
    (fun p q : σ × β => le p.1 q.1 = true) (fun p => (p.1, g p.2)) fields
    fun _ _ _ _ => Iff.rfl).symm

def sortKeys (le : σ → σ → Bool) : Json σ φ → Json σ φ :=
  fold ⟨null, bool, int, float, str, arr, fun fields => obj (sortFields le fields)⟩

@[simp] theorem sortKeys_arr (le : σ → σ → Bool) (xs : List (Json σ φ)) :
    sortKeys le (arr xs) = arr (xs.map (sortKeys le)) := by
  simp [sortKeys]

@[simp] theorem sortKeys_obj (le : σ → σ → Bool) (fields : List (σ × Json σ φ)) :
    sortKeys le (obj fields) =
      obj (sortFields le (fields.map fun p => (p.1, sortKeys le p.2))) := by
  simp [sortKeys]

theorem reorder_sortKeys (le : σ → σ → Bool) (x : Json σ φ) : Reorder x (sortKeys le x) := by
  induction x with
  | arr xs ih =>
    rw [sortKeys_arr]
    exact .arr_map _ [] xs ih
  | obj fields ih =>
    rw [sortKeys_obj]
    exact (Reorder.obj_map _ [] fields ih).trans (.perm (sortFields_perm le _).symm)
  | _ => exact .refl _

/-- Values with equal sorted forms, read through any renaming, are equal up to
key order under that renaming. -/
theorem Reorder.of_map_sortKeys_eq (le : σ → σ → Bool) (f : σ → τ) {x y : Json σ φ}
    (h : (sortKeys le x).map f = (sortKeys le y).map f) : Reorder (x.map f) (y.map f) := by
  have left := (reorder_sortKeys le x).map f
  have right := (reorder_sortKeys le y).map f
  rw [h] at left
  exact left.trans right.symm

section Canonical

variable {le : σ → σ → Bool}
  (total : ∀ a b, le a b || le b a) (trans : ∀ a b c, le a b → le b c → le a c)
  (antisymm : ∀ a b, le a b → le b a → a = b)

include total trans in
theorem sortFields_pairwise {β : Type} (fields : List (σ × β)) :
    (sortFields le fields).Pairwise fun p q => le p.1 q.1 := by
  have : Std.Total fun p q : σ × β => le p.1 q.1 = true :=
    ⟨fun p q => by simpa using total p.1 q.1⟩
  have : IsTrans (σ × β) fun p q => le p.1 q.1 = true := ⟨fun p q r => trans p.1 q.1 r.1⟩
  exact List.pairwise_insertionSort _ _

include total trans antisymm in
theorem sortFields_eq_of_perm {β : Type} {fs gs : List (σ × β)} (h : fs.Perm gs)
    (nodup : (fs.map Prod.fst).Nodup) : sortFields le fs = sortFields le gs := by
  have permuted : (sortFields le fs).Perm (sortFields le gs) :=
    (sortFields_perm le fs).trans (h.trans (sortFields_perm le gs).symm)
  refine List.Perm.eq_of_pairwise ?_ (sortFields_pairwise total trans fs)
    (sortFields_pairwise total trans gs) permuted
  intro p q hp hq hpq hqp
  have mp : p ∈ fs := (sortFields_perm le fs).mem_iff.mp hp
  have mq : q ∈ fs := h.mem_iff.mpr ((sortFields_perm le gs).mem_iff.mp hq)
  exact List.inj_on_of_nodup_map nodup mp mq (antisymm _ _ hpq hqp)

include total trans antisymm in
theorem Reorder.sortKeys_eq [DecidableEq σ] {x y : Json σ φ} (h : Reorder x y)
    (hx : x.distinctKeys) :
    sortKeys le x = sortKeys le y := by
  induction h with
  | refl x => rfl
  | symm h ih => exact (ih (h.distinctKeys_eq ▸ hx)).symm
  | trans hxy _ ihx ihy => exact (ihx hx).trans (ihy (hxy.distinctKeys_eq ▸ hx))
  | perm h =>
    rw [distinctKeys_obj, Bool.and_eq_true, decide_eq_true_eq] at hx
    rw [sortKeys_obj, sortKeys_obj, sortFields_eq_of_perm total trans antisymm (h.map _)]
    simpa [Function.comp_def] using hx.1
  | item before after _ ih =>
    rw [distinctKeys_arr, List.all_eq_true] at hx
    simp [ih (hx _ (by simp))]
  | field before after k _ ih =>
    simp only [distinctKeys_obj, Bool.and_eq_true, List.all_eq_true] at hx
    simp [ih (hx.2 _ (List.mem_append_right _ List.mem_cons_self))]

include total trans antisymm in
theorem reorder_iff_sortKeys_eq [DecidableEq σ] {x y : Json σ φ} (hx : x.distinctKeys) :
    Reorder x y ↔ sortKeys le x = sortKeys le y := by
  constructor
  · intro h
    exact h.sortKeys_eq total trans antisymm hx
  · intro h
    have left := reorder_sortKeys le x
    rw [h] at left
    exact left.trans (reorder_sortKeys le y).symm

end Canonical

end Reordering

end AgentTrust.JsonTree
