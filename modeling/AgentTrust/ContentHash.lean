import AgentTrust.Hashing

/-! What a content hash binds. The string hashed determines a JSON object or array up
to key order, for strings of Unicode scalar values; for arbitrary Python strings it
determines the value up to key order and the spelling of strings in UTF-16. -/

namespace AgentTrust.ContentHash

open JsonTree JsonTree.Json PyText PyJson PyValue Models Hashing

def container : JsonValue → Bool
  | .arr _ => true
  | .obj _ => true
  | _ => false

theorem hashedString_container {x : JsonValue} (h : container x) :
    hashedString x = raw (dumps x) := by
  cases x <;> first | rfl | simp [container] at h

theorem hashedString_eq_iff {x y : JsonValue} (hx : container x) (hy : container y) :
    hashedString x = hashedString y ↔ dumps x = dumps y := by
  rw [hashedString_container hx, hashedString_container hy]
  exact raw_injective.eq_iff

/-- Canonical hashing is exact on objects and arrays of Unicode texts. -/
theorem hashedString_eq_iff_reorder {x y : JsonValue} (hx : container x) (hy : container y)
    (sx : scalarStrings x) (sy : scalarStrings y) (distinct : x.distinctKeys) :
    hashedString x = hashedString y ↔ Reorder x y := by
  rw [hashedString_eq_iff hx hy]
  exact dumps_eq_iff_reorder sx sy distinct

def pairAB : JsonValue := .obj [(lit "a", .int 1), (lit "b", .arr [.null, .str (lit "é😀")])]
def pairBA : JsonValue := .obj [(lit "b", .arr [.null, .str (lit "é😀")]), (lit "a", .int 1)]

theorem hashedString_swapped : hashedString pairAB = hashedString pairBA := by
  refine (hashedString_eq_iff_reorder rfl rfl ?_ ?_ ?_).mpr (.perm (.swap _ _ _))
  · decide
  · decide
  · decide

/-- Equal up to the order of keys, with strings compared as UTF-16. -/
def SameWire (x y : JsonValue) : Prop := Reorder (x.map utf16) (y.map utf16)

theorem dumps_eq_of_contentHash {c d : Content} (same : contentHash c = contentHash d)
    (inj : Set.InjOn sha256 {dumps (.obj c), dumps (.obj d)}) :
    dumps (.obj c) = dumps (.obj d) :=
  inj (by simp) (by simp) (contentHash_eq_iff.mp same)

theorem binding_of_contentHash {c d : Content} (same : contentHash c = contentHash d)
    (inj : Set.InjOn sha256 {dumps (.obj c), dumps (.obj d)}) :
    SameWire (.obj c) (.obj d) ∧ (scalarStrings (.obj c) → scalarStrings (.obj d) →
      distinctKeys (.obj c : JsonValue) → Reorder (.obj c : JsonValue) (.obj d)) := by
  have texts := dumps_eq_of_contentHash same inj
  exact ⟨reorder_of_dumps_eq texts,
    fun hc hd distinct => (dumps_eq_iff_reorder hc hd distinct).mp texts⟩

end AgentTrust.ContentHash
