import Mathlib.Data.List.Nodup
import Mathlib.Tactic.Common

/-! Dicts in insertion order over any keys and values. Keys are distinct in every
dict that can be built; writing an existing key keeps its place. -/

namespace AgentTrust.OrderedDict

/-- A dict in insertion order, with distinct keys. -/
structure Dict (κ υ : Type) where
  entries : List (κ × υ)
  nodup : (entries.map Prod.fst).Nodup

variable {κ υ : Type} [DecidableEq κ]

def lookup (k : κ) (entries : List (κ × υ)) : Option υ :=
  (entries.find? fun p => p.1 = k).map Prod.snd

@[simp] theorem lookup_nil (k : κ) : lookup k ([] : List (κ × υ)) = none := rfl

@[simp] theorem lookup_cons (k : κ) (p : κ × υ) (entries : List (κ × υ)) :
    lookup k (p :: entries) = if p.1 = k then some p.2 else lookup k entries := by
  by_cases h : p.1 = k <;> simp [lookup, h]

theorem lookup_eq_some_iff {entries : List (κ × υ)} (nodup : (entries.map Prod.fst).Nodup)
    {k : κ} {v : υ} : lookup k entries = some v ↔ (k, v) ∈ entries := by
  constructor
  · intro found
    obtain ⟨p, present, rfl⟩ := Option.map_eq_some_iff.mp found
    have same : p.1 = k := by simpa using List.find?_some present
    exact same ▸ List.mem_of_find?_eq_some present
  · intro present
    induction entries with
    | nil => simp at present
    | cons p entries ih =>
      obtain ⟨fresh, rest⟩ := List.nodup_cons.mp nodup
      rcases List.mem_cons.mp present with rfl | tail
      · simp
      · have other : p.1 ≠ k := fun same => fresh (List.mem_map.mpr ⟨_, tail, same.symm⟩)
        rw [lookup_cons, if_neg other]
        exact ih rest tail

theorem lookup_perm {xs ys : List (κ × υ)} (same : xs.Perm ys) (nodup : (xs.map Prod.fst).Nodup)
    (k : κ) : lookup k xs = lookup k ys := by
  have nodup' : (ys.map Prod.fst).Nodup := (same.map Prod.fst).nodup_iff.mp nodup
  refine Option.ext fun v => ?_
  rw [lookup_eq_some_iff nodup, lookup_eq_some_iff nodup', same.mem_iff]

theorem lookup_mapValues {ω : Type} (f : υ → ω) (entries : List (κ × υ)) (k : κ) :
    lookup k (entries.map fun p => (p.1, f p.2)) = (lookup k entries).map f := by
  induction entries with
  | nil => rfl
  | cons p entries ih =>
    rw [List.map_cons, lookup_cons, lookup_cons, ih]
    split <;> rfl

namespace Dict

def empty : Dict κ υ := ⟨[], List.nodup_nil⟩

def get (d : Dict κ υ) (k : κ) : Option υ := lookup k d.entries

/-- `d[k] = v` on the entries: an existing key keeps its place. -/
def setEntries (k : κ) (v : υ) : List (κ × υ) → List (κ × υ)
  | [] => [(k, v)]
  | p :: entries => if p.1 = k then (k, v) :: entries else p :: setEntries k v entries

theorem mem_keys_setEntries {k x : κ} {v : υ} {entries : List (κ × υ)}
    (h : x ∈ (setEntries k v entries).map Prod.fst) : x = k ∨ x ∈ entries.map Prod.fst := by
  induction entries with
  | nil => exact .inl (by simpa [setEntries] using h)
  | cons p entries ih =>
    unfold setEntries at h
    split at h
    · exact (List.mem_cons.mp h).imp id fun tail => List.mem_cons_of_mem _ tail
    · rcases List.mem_cons.mp h with rfl | tail
      · exact .inr (by simp)
      · exact (ih tail).imp id fun old => List.mem_cons_of_mem _ old

theorem nodup_setEntries {k : κ} {v : υ} {entries : List (κ × υ)}
    (nodup : (entries.map Prod.fst).Nodup) : ((setEntries k v entries).map Prod.fst).Nodup := by
  induction entries with
  | nil => simp [setEntries]
  | cons p entries ih =>
    obtain ⟨fresh, rest⟩ := List.nodup_cons.mp nodup
    unfold setEntries
    split
    · next same => exact List.nodup_cons.mpr ⟨same ▸ fresh, rest⟩
    · next other =>
      refine List.nodup_cons.mpr ⟨fun h => ?_, ih rest⟩
      exact (mem_keys_setEntries h).elim other fresh

def set (d : Dict κ υ) (k : κ) (v : υ) : Dict κ υ :=
  ⟨setEntries k v d.entries, nodup_setEntries d.nodup⟩

theorem setEntries_fresh {k : κ} {v : υ} {entries : List (κ × υ)}
    (fresh : k ∉ entries.map Prod.fst) : setEntries k v entries = entries ++ [(k, v)] := by
  induction entries with
  | nil => rfl
  | cons p entries ih =>
    obtain ⟨other, rest⟩ := not_or.mp fun h => fresh (List.mem_cons.mpr h)
    rw [setEntries, if_neg fun same => other same.symm, ih rest, List.cons_append]

/-- The items written one after the other: the last value of a key wins. -/
def ofItems (items : List (κ × υ)) : Dict κ υ := items.foldl (fun d p => d.set p.1 p.2) empty

theorem entries_foldl_set (items : List (κ × υ)) (d : Dict κ υ)
    (nodup : ((d.entries ++ items).map Prod.fst).Nodup) :
    (items.foldl (fun d p => d.set p.1 p.2) d).entries = d.entries ++ items := by
  induction items generalizing d with
  | nil => exact (List.append_nil _).symm
  | cons p items ih =>
    have fresh : p.1 ∉ d.entries.map Prod.fst := by
      rw [List.map_append, List.map_cons] at nodup
      exact fun old => (List.nodup_append.mp nodup).2.2 _ old _ List.mem_cons_self rfl
    have written : (d.set p.1 p.2).entries = d.entries ++ [p] := setEntries_fresh fresh
    have joined : (d.set p.1 p.2).entries ++ items = d.entries ++ p :: items := by
      rw [written, List.append_assoc, List.singleton_append]
    rw [List.foldl_cons, ih _ (joined ▸ nodup), joined]

theorem entries_ofItems {items : List (κ × υ)} (nodup : (items.map Prod.fst).Nodup) :
    (ofItems items).entries = items := entries_foldl_set items empty nodup

theorem mem_keys_foldl_set {x : κ} (items : List (κ × υ)) (d : Dict κ υ)
    (h : x ∈ (items.foldl (fun d p => d.set p.1 p.2) d).entries.map Prod.fst) :
    x ∈ d.entries.map Prod.fst ∨ x ∈ items.map Prod.fst := by
  induction items generalizing d with
  | nil => exact .inl h
  | cons p items ih =>
    rcases ih _ h with old | later
    · rcases mem_keys_setEntries old with rfl | before
      · exact .inr List.mem_cons_self
      · exact .inl before
    · exact .inr (List.mem_cons_of_mem _ later)

theorem mem_keys_ofItems {x : κ} {items : List (κ × υ)}
    (h : x ∈ (ofItems items).entries.map Prod.fst) : x ∈ items.map Prod.fst :=
  (mem_keys_foldl_set items empty h).resolve_left List.not_mem_nil

/-- `d.pop(k, None)`. -/
def erase (d : Dict κ υ) (k : κ) : Dict κ υ :=
  ⟨d.entries.filter fun p => p.1 ≠ k, d.nodup.sublist (List.filter_sublist.map _)⟩

def filter (d : Dict κ υ) (keep : κ → υ → Bool) : Dict κ υ :=
  ⟨d.entries.filter fun p => keep p.1 p.2, d.nodup.sublist (List.filter_sublist.map _)⟩

theorem lookup_setEntries (k x : κ) (v : υ) (entries : List (κ × υ)) :
    lookup x (setEntries k v entries) = if k = x then some v else lookup x entries := by
  induction entries with
  | nil => simp [setEntries]
  | cons p entries ih =>
    unfold setEntries
    split
    · next same => by_cases h : k = x <;> simp [h, same]
    · next other =>
      rw [lookup_cons, lookup_cons, ih]
      by_cases h : p.1 = x <;> simp [h]
      intro same
      exact absurd (h.trans same.symm) other

@[simp] theorem get_set_self (d : Dict κ υ) (k : κ) (v : υ) : (d.set k v).get k = some v := by
  simp [get, set, lookup_setEntries]

theorem get_set_other (d : Dict κ υ) {k x : κ} (h : k ≠ x) (v : υ) :
    (d.set k v).get x = d.get x := by
  simp [get, set, lookup_setEntries, h]

theorem setEntries_same {k : κ} {v : υ} {entries : List (κ × υ)}
    (present : lookup k entries = some v) : setEntries k v entries = entries := by
  induction entries with
  | nil => simp at present
  | cons p entries ih =>
    rw [lookup_cons] at present
    unfold setEntries
    split
    · next same =>
      rw [if_pos same] at present
      rw [← same, ← Option.some.inj present]
    · next other =>
      rw [if_neg other] at present
      rw [ih present]

theorem set_same {d : Dict κ υ} {k : κ} {v : υ} (present : d.get k = some v) : d.set k v = d := by
  cases d
  simp only [set, Dict.mk.injEq]
  exact setEntries_same present

theorem head?_set (d : Dict κ υ) (k : κ) (v : υ) : (d.set k v).entries.head? =
    some ((d.entries.head?.map fun p => if p.1 = k then (k, v) else p).getD (k, v)) := by
  cases entries : d.entries with
  | nil => simp [set, setEntries, entries]
  | cons p rest => by_cases same : p.1 = k <;> simp [set, setEntries, entries, same]

@[simp] theorem get_empty (k : κ) : (empty : Dict κ υ).get k = none := rfl

theorem lookup_filter (keep : κ → υ → Bool) {entries : List (κ × υ)}
    (nodup : (entries.map Prod.fst).Nodup) (k : κ) :
    lookup k (entries.filter fun p => keep p.1 p.2) = (lookup k entries).filter (keep k) := by
  induction entries with
  | nil => rfl
  | cons p entries ih =>
    obtain ⟨fresh, rest⟩ := List.nodup_cons.mp nodup
    have tail := ih rest
    by_cases same : p.1 = k
    · obtain rfl := same
      have absent : lookup p.1 entries = none := by
        rw [lookup, Option.map_eq_none_iff, List.find?_eq_none]
        intro q hq equal
        exact fresh (List.mem_map.mpr ⟨q, hq, of_decide_eq_true equal⟩)
      rw [absent, Option.filter_none] at tail
      cases kept : keep p.1 p.2 <;> simp [kept, tail, Option.filter_some]
    · cases kept : keep p.1 p.2 <;> simp [kept, same, tail]

theorem get_filter (d : Dict κ υ) (keep : κ → υ → Bool) (k : κ) :
    (d.filter keep).get k = (d.get k).filter (keep k) := lookup_filter keep d.nodup k

theorem filter_setEntries {k : κ} {v : υ} {keep : κ → υ → Bool} (dropped : ∀ u, keep k u = false)
    (entries : List (κ × υ)) : ((setEntries k v entries).filter fun p => keep p.1 p.2) =
      entries.filter fun p => keep p.1 p.2 := by
  induction entries with
  | nil => simp [setEntries, dropped]
  | cons p entries ih =>
    unfold setEntries
    split
    · next same => simp [same, dropped]
    · rw [List.filter_cons, List.filter_cons, ih]

theorem filter_set {k : κ} {v : υ} {keep : κ → υ → Bool} (dropped : ∀ u, keep k u = false)
    (d : Dict κ υ) : (d.set k v).filter keep = d.filter keep := by
  simp only [filter, set, Dict.mk.injEq]
  exact filter_setEntries dropped d.entries

@[simp] theorem get_erase_self (d : Dict κ υ) (k : κ) : (d.erase k).get k = none := by
  have erased : d.erase k = d.filter fun x _ => x ≠ k := rfl
  rw [erased, get_filter]
  cases d.get k <;> simp

theorem get_erase_other (d : Dict κ υ) {k x : κ} (h : k ≠ x) : (d.erase k).get x = d.get x := by
  have erased : d.erase k = d.filter fun x _ => x ≠ k := rfl
  rw [erased, get_filter]
  cases d.get x <;> simp [h.symm]

theorem mem_entries {d : Dict κ υ} {k : κ} {v : υ} : (k, v) ∈ d.entries ↔ d.get k = some v :=
  (lookup_eq_some_iff d.nodup).symm

theorem mem_keys {d : Dict κ υ} {k : κ} : k ∈ d.entries.map Prod.fst ↔ ∃ v, d.get k = some v := by
  simp [← mem_entries]

end Dict

end AgentTrust.OrderedDict
