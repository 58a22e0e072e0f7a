import AgentTrust.ContentHash
import AgentTrust.Tasks

/-! Contents as Python holds them, and what JSON makes of them on the way: keys of any
type become strings, tuples become lists, and the two halves of a character written as
escapes become the character. The hash of a content sorts its keys before, the hash of
what arrives sorts them after; the two agree where these orders do. -/

namespace AgentTrust.ContentTransport

open JsonTree JsonTree.Json JsonText PyText PyJson OrderedDict PyValue Models Hashing Effects Tasks

section Units

/-- `json.loads` on the escapes of a string: a high and a low surrogate make one character. -/
def fromUtf16 : List CodeUnit → PyStr
  | [] => []
  | [u] => [⟨u.val, by have := u.isLt; omega⟩]
  | u :: v :: rest =>
    if h : (0xD800 ≤ u.val ∧ u.val < 0xDC00) ∧ 0xDC00 ≤ v.val ∧ v.val < 0xE000 then
      ⟨0x10000 + (u.val - 0xD800) * 0x400 + (v.val - 0xDC00), by omega⟩ :: fromUtf16 rest
    else ⟨u.val, by have := u.isLt; omega⟩ :: fromUtf16 (v :: rest)

theorem utf16_cons (c : CodePoint) (s : PyStr) : utf16 (c :: s) = codeUnits c ++ utf16 s :=
  List.flatMap_cons

theorem codeUnits_unit (u : CodeUnit) {h : u.val < 0x110000} : codeUnits ⟨u.val, h⟩ = [u] :=
  dif_pos u.isLt

theorem codeUnits_pair {u v : CodeUnit}
    (h : (0xD800 ≤ u.val ∧ u.val < 0xDC00) ∧ 0xDC00 ≤ v.val ∧ v.val < 0xE000) :
    codeUnits ⟨0x10000 + (u.val - 0xD800) * 0x400 + (v.val - 0xDC00), by omega⟩ = [u, v] := by
  have high : ¬ 0x10000 + (u.val - 0xD800) * 0x400 + (v.val - 0xDC00) < 0x10000 := by omega
  rw [codeUnits, dif_neg high]
  simp only [List.cons.injEq, Fin.ext_iff, and_true]
  constructor <;> omega

theorem utf16_fromUtf16 (us : List CodeUnit) : utf16 (fromUtf16 us) = us := by
  fun_induction fromUtf16 us with
  | case1 => rfl
  | case2 u => rw [utf16_cons, codeUnits_unit]; rfl
  | case3 u v rest h ih =>
    rw [utf16_cons, codeUnits_pair h, ih]
    rfl
  | case4 u v rest h ih =>
    rw [utf16_cons, codeUnits_unit, ih]
    rfl

def readBack (s : PyStr) : PyStr := fromUtf16 (utf16 s)

theorem readBack_fromUtf16 (us : List CodeUnit) : readBack (fromUtf16 us) = fromUtf16 us :=
  congrArg fromUtf16 (utf16_fromUtf16 us)

theorem utf16_readBack (s : PyStr) : utf16 (readBack s) = utf16 s := utf16_fromUtf16 (utf16 s)

end Units

section Data

/-- A key of a dict that JSON can write, floats aside. -/
inductive PyKey where
  | str (s : PyStr)
  | int (i : Int)
  | bool (b : Bool)
  | none

def PyKey.name : PyKey → PyStr
  | .str s => s
  | .int i => raw (intText i)
  | .bool b => raw (boolText b)
  | .none => lit "null"

def PyKey.number : PyKey → Int
  | .int i => i
  | .bool b => if b then 1 else 0
  | _ => 0

def PyKey.isStr : PyKey → Bool
  | .str _ => true
  | _ => false

def PyKey.isNumber : PyKey → Bool
  | .int _ => true
  | .bool _ => true
  | _ => false

/-- `<=` on keys that can be compared. -/
def PyKey.le : PyKey → PyKey → Bool
  | .str s, .str t => keyLe s t
  | k, l => k.number ≤ l.number

/-- `sorted` raises no `TypeError` on the items of a dict with these keys. -/
def sortable (keys : List PyKey) : Bool :=
  keys.length ≤ 1 || keys.all PyKey.isStr || keys.all PyKey.isNumber

inductive PyData where
  | none
  | bool (b : Bool)
  | int (i : Int)
  | str (s : PyStr)
  | list (xs : List PyData)
  | tuple (xs : List PyData)
  | dict (fields : List (PyKey × PyData))

mutual

/-- The tree that `json.dumps` walks: it writes a tuple like a list. -/
def PyData.tree : PyData → Json PyKey PyFloat
  | .none => .null
  | .bool b => .bool b
  | .int i => .int i
  | .str s => .str (.str s)
  | .list xs => .arr (treeList xs)
  | .tuple xs => .arr (treeList xs)
  | .dict fields => .obj (treeFields fields)

def treeList : List PyData → List (Json PyKey PyFloat)
  | [] => []
  | x :: xs => x.tree :: treeList xs

def treeFields : List (PyKey × PyData) → List (PyKey × Json PyKey PyFloat)
  | [] => []
  | (k, x) :: fields => (k, x.tree) :: treeFields fields

end

def keysSortable : Json PyKey PyFloat → Bool :=
  fold ⟨true, fun _ => true, fun _ => true, fun _ => true, fun _ => true, fun xs => xs.all id,
    fun fields => sortable (fields.map Prod.fst) && fields.all Prod.snd⟩

/-- The value that the sorted text of a tree stands for. -/
def sortedForm (x : Json PyKey PyFloat) : Json (List CodeUnit) PyFloat :=
  (sortKeys PyKey.le x).map fun k => utf16 k.name

/-- `json.dumps(data, sort_keys=True, separators=(",", ":"))`. -/
def dumpsSorted (x : PyData) : Except Exc Text :=
  if keysSortable x.tree then .ok (render asciiLexicon (sortedForm x.tree))
  else .error (foreign .typeError)

/-- `json.loads(json.dumps(data))` on a tree: the items of a dict are assigned in order. -/
def loaded : Json PyKey PyFloat → JsonValue :=
  fold ⟨.null, .bool, .int, .float, fun s => .str (readBack s.name), .arr,
    fun fields => .obj (Dict.ofItems (fields.map fun p => (readBack p.1.name, p.2))).entries⟩

def PyData.transport (x : PyData) : JsonValue := loaded x.tree

/-- The string `compute_data_hash` hashes; the `repr` of a tuple is the interpreter's. -/
def PyData.hashedString (reprTuple : List PyData → PyStr) : PyData → Except Exc PyStr
  | .str s => .ok s
  | .dict fields => (dumpsSorted (.dict fields)).map raw
  | .list xs => (dumpsSorted (.list xs)).map raw
  | .none => .ok (raw (atomText .null))
  | .bool b => .ok (raw (atomText (.bool b)))
  | .int i => .ok (raw (atomText (.int i)))
  | .tuple xs => .ok (reprTuple xs)

def PyData.hashWithPrefix (reprTuple : List PyData → PyStr) (x : PyData) : Except Exc Text := do
  let data ← x.hashedString reprTuple
  let digest ← computeSha256 data
  return hashPrefix ++ digest

def PyData.container : PyData → Bool
  | .dict _ => true
  | .list _ => true
  | _ => false

def increasing (names : List PyStr) : Bool :=
  decide (names.Pairwise fun s t => keyLe s t ∧ s ≠ t)

def namesInOrder (keys : List PyKey) : List PyStr :=
  (keys.insertionSort fun k l => PyKey.le k l).map fun k => readBack k.name

/-- In every dict, the keys in their own order give names in increasing order. -/
def stable : Json PyKey PyFloat → Bool :=
  fold ⟨true, fun _ => true, fun _ => true, fun _ => true, fun _ => true, fun xs => xs.all id,
    fun fields => increasing (namesInOrder (fields.map Prod.fst)) && fields.all Prod.snd⟩

end Data

section Trees

@[simp] theorem loaded_arr (xs : List (Json PyKey PyFloat)) :
    loaded (.arr xs) = .arr (xs.map loaded) := by
  simp [loaded]

def loadedItems (fields : List (PyKey × Json PyKey PyFloat)) : List (PyStr × JsonValue) :=
  fields.map fun p => (readBack p.1.name, loaded p.2)

@[simp] theorem loaded_obj (fields : List (PyKey × Json PyKey PyFloat)) :
    loaded (.obj fields) = .obj (Dict.ofItems (loadedItems fields)).entries := by
  simp [loaded, loadedItems, Function.comp_def]

@[simp] theorem stable_null : stable .null = true := rfl
@[simp] theorem stable_str (k : PyKey) : stable (.str k) = true := rfl

@[simp] theorem stable_arr (xs : List (Json PyKey PyFloat)) : stable (.arr xs) = xs.all stable := by
  simp [stable, List.all_map]

theorem namesInOrder_fields (fields : List (PyKey × Json PyKey PyFloat)) :
    namesInOrder (fields.map Prod.fst) =
      (sortFields PyKey.le fields).map fun p => readBack p.1.name := by
  have keys := List.map_insertionSort (fun p q : PyKey × Json PyKey PyFloat => PyKey.le p.1 q.1)
    (fun k l => PyKey.le k l = true) Prod.fst fields fun _ _ _ _ => Iff.rfl
  rw [namesInOrder, ← keys, List.map_map]
  rfl

@[simp] theorem stable_obj (fields : List (PyKey × Json PyKey PyFloat)) :
    stable (.obj fields) =
      (increasing (namesInOrder (fields.map Prod.fst)) && fields.all fun p => stable p.2) := by
  simp [stable, List.all_map, Function.comp_def]

@[simp] theorem keysSortable_null : keysSortable .null = true := rfl
@[simp] theorem keysSortable_str (k : PyKey) : keysSortable (.str k) = true := rfl

@[simp] theorem keysSortable_arr (xs : List (Json PyKey PyFloat)) :
    keysSortable (.arr xs) = xs.all keysSortable := by
  simp [keysSortable, List.all_map]

@[simp] theorem keysSortable_obj (fields : List (PyKey × Json PyKey PyFloat)) :
    keysSortable (.obj fields) =
      (sortable (fields.map Prod.fst) && fields.all fun p => keysSortable p.2) := by
  simp [keysSortable, List.all_map, Function.comp_def]

@[simp] theorem sortedForm_arr (xs : List (Json PyKey PyFloat)) :
    sortedForm (.arr xs) = .arr (xs.map sortedForm) := by
  simp [sortedForm, Function.comp_def]

@[simp] theorem sortedForm_obj (fields : List (PyKey × Json PyKey PyFloat)) :
    sortedForm (.obj fields) = .obj ((sortFields PyKey.le fields).map fun p =>
      (utf16 p.1.name, sortedForm p.2)) := by
  simp only [sortedForm, sortKeys_obj, map_obj, sortFields_map, List.map_map, Function.comp_def]

theorem wireForm_obj (fields : List (PyStr × JsonValue)) :
    wireForm (.obj fields) =
      .obj ((sortFields keyLe fields).map fun p => (utf16 p.1, wireForm p.2)) := by
  simp only [wireForm, sortKeys_obj, map_obj, sortFields_map, List.map_map, Function.comp_def]

theorem wireForm_arr (xs : List JsonValue) : wireForm (.arr xs) = .arr (xs.map wireForm) := by
  simp [wireForm, Function.comp_def]

end Trees

section Orders

theorem increasing_iff {names : List PyStr} :
    increasing names = true ↔ names.Pairwise (fun s t => keyLe s t) ∧ names.Nodup := by
  rw [increasing, decide_eq_true_eq, List.pairwise_and_iff]
  rfl

theorem keys_loadedItems_perm (fields : List (PyKey × Json PyKey PyFloat)) :
    ((loadedItems fields).map Prod.fst).Perm (namesInOrder (fields.map Prod.fst)) := by
  rw [loadedItems, List.map_map, namesInOrder_fields]
  exact ((sortFields_perm PyKey.le fields).map _).symm

theorem sortFields_loaded {fields : List (PyKey × Json PyKey PyFloat)}
    (ordered : increasing (namesInOrder (fields.map Prod.fst))) :
    sortFields keyLe (Dict.ofItems (loadedItems fields)).entries =
      loadedItems (sortFields PyKey.le fields) := by
  obtain ⟨sorted, distinct⟩ := increasing_iff.mp ordered
  have nodup : ((loadedItems fields).map Prod.fst).Nodup :=
    (keys_loadedItems_perm fields).nodup_iff.mpr distinct
  have items : (loadedItems fields).Perm (loadedItems (sortFields PyKey.le fields)) :=
    ((sortFields_perm PyKey.le fields).map _).symm
  have already : (loadedItems (sortFields PyKey.le fields)).Pairwise
      fun p q => keyLe p.1 q.1 = true := by
    rw [namesInOrder_fields] at sorted
    rw [loadedItems, List.pairwise_map]
    exact List.pairwise_map.mp sorted
  rw [Dict.entries_ofItems nodup,
    sortFields_eq_of_perm keyLe_total keyLe_trans keyLe_antisymm items nodup]
  exact already.insertionSort_eq

theorem fromUtf16_of_mem_keys {fields : List (PyKey × Json PyKey PyFloat)} {s : PyStr}
    (h : s ∈ (Dict.ofItems (loadedItems fields)).entries.map Prod.fst) :
    fromUtf16 (utf16 s) = s := by
  have item := Dict.mem_keys_ofItems h
  rw [loadedItems, List.map_map] at item
  obtain ⟨p, _, rfl⟩ := List.mem_map.mp item
  exact readBack_fromUtf16 _

theorem increasing_loaded (fields : List (PyKey × Json PyKey PyFloat)) :
    increasing ((sortFields keyLe (Dict.ofItems (loadedItems fields)).entries).map Prod.fst) := by
  refine increasing_iff.mpr ⟨List.pairwise_map.mpr ?_, ?_⟩
  · exact sortFields_pairwise keyLe_total keyLe_trans _
  · exact ((sortFields_perm keyLe _).map Prod.fst).nodup_iff.mpr (Dict.ofItems _).nodup

theorem namesInOrder_of_wire {fields : List (PyKey × Json PyKey PyFloat)}
    (same : (sortFields PyKey.le fields).map (fun p => utf16 p.1.name) =
      (sortFields keyLe (Dict.ofItems (loadedItems fields)).entries).map fun p => utf16 p.1) :
    namesInOrder (fields.map Prod.fst) =
      (sortFields keyLe (Dict.ofItems (loadedItems fields)).entries).map Prod.fst := by
  have read := congrArg (List.map fromUtf16) same
  rw [List.map_map, List.map_map] at read
  rw [namesInOrder_fields]
  refine read.trans (List.map_congr_left fun p hp => ?_)
  exact fromUtf16_of_mem_keys (List.mem_map_of_mem ((sortFields_perm keyLe _).mem_iff.mp hp))

theorem sortedForm_eq_iff (x : Json PyKey PyFloat) :
    sortedForm x = wireForm (loaded x) ↔ stable x := by
  induction x with
  | null => exact iff_of_true rfl rfl
  | bool b => exact iff_of_true rfl rfl
  | int i => exact iff_of_true rfl rfl
  | float f => exact iff_of_true rfl rfl
  | str k => exact iff_of_true (congrArg Json.str (utf16_readBack k.name).symm) rfl
  | arr xs ih =>
    rw [sortedForm_arr, loaded_arr, wireForm_arr, Json.arr.injEq, List.map_map, List.map_inj_left,
      stable_arr, List.all_eq_true]
    exact forall₂_congr ih
  | obj fields ih =>
    have values : ∀ p ∈ sortFields PyKey.le fields,
        sortedForm p.2 = wireForm (loaded p.2) ↔ stable p.2 :=
      fun p hp => ih p ((sortFields_perm PyKey.le fields).mem_iff.mp hp)
    rw [sortedForm_obj, loaded_obj, wireForm_obj, Json.obj.injEq, stable_obj, Bool.and_eq_true,
      List.all_eq_true]
    constructor
    · intro same
      have ordered : increasing (namesInOrder (fields.map Prod.fst)) := by
        have names := congrArg (List.map Prod.fst) same
        rw [List.map_map, List.map_map] at names
        rw [namesInOrder_of_wire names]
        exact increasing_loaded fields
      refine ⟨ordered, fun p hp => ?_⟩
      rw [sortFields_loaded ordered, loadedItems, List.map_map, List.map_inj_left] at same
      have member := (sortFields_perm PyKey.le fields).mem_iff.mpr hp
      exact (values p member).mp (Prod.mk.inj (same p member)).2
    · rintro ⟨ordered, kept⟩
      rw [sortFields_loaded ordered, loadedItems, List.map_map, List.map_inj_left]
      intro p member
      have value := (values p member).mpr
        (kept p ((sortFields_perm PyKey.le fields).mem_iff.mp member))
      exact Prod.ext (utf16_readBack p.1.name).symm value

end Orders

section Hashes

def bothTexts (x : PyData) : Set Text := {t | dumpsSorted x = .ok t ∨ dumps x.transport = t}

theorem hashedString_container {x : PyData} (container : x.container)
    (reprTuple : List PyData → PyStr) : x.hashedString reprTuple = (dumpsSorted x).map raw := by
  cases x <;> first | rfl | simp [PyData.container] at container

theorem transport_container {x : PyData} (h : x.container) :
    ContentHash.container x.transport := by
  cases x with
  | dict fields => simp [PyData.transport, PyData.tree, ContentHash.container]
  | list xs => simp [PyData.transport, PyData.tree, ContentHash.container]
  | _ => simp [PyData.container] at h

theorem hashWithPrefix_ok {x : PyData} (container : x.container) {t : Text}
    (accepted : dumpsSorted x = .ok t) (reprTuple : List PyData → PyStr) :
    x.hashWithPrefix reprTuple = .ok (hashPrefix ++ sha256 t) := by
  rw [PyData.hashWithPrefix, hashedString_container container, accepted]
  simp [Except.map, bind, Except.bind, computeSha256, pure, Except.pure]

theorem hashWithPrefix_container {x : JsonValue} (h : ContentHash.container x) :
    Hashing.hashWithPrefix x = .ok (hashPrefix ++ sha256 (dumps x)) := by
  rw [Hashing.hashWithPrefix, computeDataHash, ContentHash.hashedString_container h,
    computeSha256, encode_raw]
  rfl

theorem dumpsSorted_eq_ok {x : PyData} {t : Text} : dumpsSorted x = .ok t ↔
    keysSortable x.tree ∧ render asciiLexicon (sortedForm x.tree) = t := by
  unfold dumpsSorted
  split <;> simp [*]

theorem hash_transport_iff {x : PyData} (container : x.container) {t : Text}
    (accepted : dumpsSorted x = .ok t) (injective : Set.InjOn sha256 (bothTexts x))
    (reprTuple : List PyData → PyStr) :
    x.hashWithPrefix reprTuple = Hashing.hashWithPrefix x.transport ↔ stable x.tree := by
  rw [hashWithPrefix_ok container accepted,
    hashWithPrefix_container (transport_container container), Except.ok.injEq,
    List.append_right_inj, injective.eq_iff (.inl accepted) (.inr rfl),
    ← (dumpsSorted_eq_ok.mp accepted).2, dumps_eq_render, (render_injective asciiLexicon).eq_iff]
  exact sortedForm_eq_iff x.tree

end Hashes

section Artifacts

def key (k : String) : PyKey := .str (lit k)

/-- The outcome dict that `on_task_complete` builds. -/
def outcomeData (response : PyStr) (artifacts : Option PyData) : PyData :=
  .dict ([(key "response", .dict [(key "text", .str response)]),
    (key "status", .str (lit "success")), (key "actions", .list []), (key "error", .none)] ++
    match artifacts with
    | some a => [(key "artifacts", a)]
    | none => [])

theorem stable_outcomeData (response : PyStr) (artifacts : Option PyData) :
    stable (outcomeData response artifacts).tree ↔ ∀ a ∈ artifacts, stable a.tree := by
  have text : increasing (namesInOrder [key "text"]) := by decide
  have outer : increasing (namesInOrder
      [key "response", key "status", key "actions", key "error"]) := by decide
  have wider : increasing (namesInOrder [key "response", key "status", key "actions", key "error",
    key "artifacts"]) := by decide
  cases artifacts with
  | none => simp [outcomeData, PyData.tree, treeFields, treeList, text, outer]
  | some a => simp [outcomeData, PyData.tree, treeFields, treeList, text, wider]

def IsJson (x : PyData) (y : JsonValue) : Prop := x.tree = y.map PyKey.str

theorem sortFields_json {β γ : Type} (g : β → γ) (items : List (PyStr × β)) :
    sortFields PyKey.le (items.map fun p => (PyKey.str p.1, g p.2)) =
      (sortFields keyLe items).map fun p => (PyKey.str p.1, g p.2) :=
  (List.map_insertionSort (fun p q : PyStr × β => keyLe p.1 q.1 = true)
    (fun p q : PyKey × γ => PyKey.le p.1 q.1 = true) (fun p => (PyKey.str p.1, g p.2)) items
    fun _ _ _ _ => Iff.rfl).symm

theorem sortedForm_json (y : JsonValue) : sortedForm (y.map PyKey.str) = wireForm y := by
  induction y using Json.induction with
  | arr xs ih =>
    rw [map_arr, sortedForm_arr, wireForm_arr, List.map_map]
    exact congrArg Json.arr (List.map_congr_left ih)
  | obj fields ih =>
    rw [map_obj, sortedForm_obj, wireForm_obj, sortFields_json (Json.map PyKey.str), List.map_map]
    refine congrArg Json.obj (List.map_congr_left fun p hp => ?_)
    exact Prod.ext rfl (ih p ((sortFields_perm keyLe fields).mem_iff.mp hp))
  | _ => rfl

theorem sortable_str (names : List PyStr) : sortable (names.map PyKey.str) := by
  simp [sortable, PyKey.isStr]

theorem keysSortable_json (y : JsonValue) : keysSortable (y.map PyKey.str) := by
  induction y using Json.induction with
  | arr xs ih => simpa [List.all_eq_true] using ih
  | obj fields ih =>
    have keys := sortable_str (fields.map Prod.fst)
    rw [List.map_map] at keys
    rw [map_obj, keysSortable_obj, List.map_map, Bool.and_eq_true, List.all_eq_true]
    refine ⟨keys, fun p hp => ?_⟩
    obtain ⟨q, hq, rfl⟩ := List.mem_map.mp hp
    exact ih q hq
  | _ => rfl

theorem hashWithPrefix_json {x : PyData} {c : Content} (container : x.container)
    (same : IsJson x (.obj c)) (reprTuple : List PyData → PyStr) :
    x.hashWithPrefix reprTuple = .ok (contentHash c) := by
  have text : dumpsSorted x = .ok (dumps (.obj c)) := by
    rw [dumpsSorted_eq_ok, same, sortedForm_json, dumps_eq_render]
    exact ⟨keysSortable_json _, rfl⟩
  exact hashWithPrefix_ok container text reprTuple

theorem outcomeData_hash (response : PyStr) {artifacts : Option PyData} {json : Option JsonValue}
    (same : Option.Rel IsJson artifacts json) (reprTuple : List PyData → PyStr) :
    (outcomeData response artifacts).hashWithPrefix reprTuple =
      .ok (contentHash (outcomeOf response json)) := by
  refine hashWithPrefix_json rfl ?_ reprTuple
  unfold IsJson
  cases same with
  | none => simp [outcomeData, outcomeOf, PyData.tree, treeFields, treeList, record, key]
  | some h =>
    rw [IsJson] at h
    simp [outcomeData, outcomeOf, PyData.tree, treeFields, treeList, h, record, key]

end Artifacts

section Stability

/-- A dict or list that `json.dumps` accepts has the hash of what arrives exactly if its
keys sort as their names do. What arrives is `json.loads(json.dumps(x))`, of a disclosed
outcome too: the dump of its proof names the keys as `json.dumps` does, but for `None`. -/
theorem transported_hash_iff (reprTuple : List PyData → PyStr) :
    (∀ (x : PyData) (t : Text), x.container → dumpsSorted x = .ok t →
      Set.InjOn sha256 (bothTexts x) →
      (x.hashWithPrefix reprTuple = Hashing.hashWithPrefix x.transport ↔ stable x.tree)) ∧
    ∀ (response : PyStr) (artifacts : Option PyData) (t : Text),
      dumpsSorted (outcomeData response artifacts) = .ok t →
      Set.InjOn sha256 (bothTexts (outcomeData response artifacts)) →
      ((outcomeData response artifacts).hashWithPrefix reprTuple =
          Hashing.hashWithPrefix (outcomeData response artifacts).transport ↔
        ∀ a ∈ artifacts, stable a.tree) := by
  constructor
  · intro x t container accepted injective
    exact hash_transport_iff container accepted injective reprTuple
  · intro response artifacts t accepted injective
    rw [← stable_outcomeData response artifacts]
    exact hash_transport_iff rfl accepted injective reprTuple

def namedPair : PyData := .dict [(key "a", .tuple [.int 1, .none])]
def numbered : PyData := .dict [(.int 2, .int 1), (.int 10, .int 2)]

theorem namedPair_transported :
    namedPair.hashWithPrefix (fun _ => []) = Hashing.hashWithPrefix namedPair.transport := by
  have accepted : dumpsSorted namedPair = .ok "\x7b\"a\":[1,null]\x7d".toList :=
    dumpsSorted_eq_ok.mpr (by decide)
  have arrives : dumps namedPair.transport = "\x7b\"a\":[1,null]\x7d".toList := by decide
  have one : bothTexts namedPair = {"\x7b\"a\":[1,null]\x7d".toList} := by
    ext t
    simp [bothTexts, accepted, arrives, eq_comm]
  refine ((transported_hash_iff fun _ => []).1 namedPair _ rfl accepted ?_).mpr (by decide)
  rw [one]
  exact Set.injOn_singleton _ _

theorem numbered_rehashed : ¬ ∀ (x : PyData) (t : Text), x.container → dumpsSorted x = .ok t →
    x.hashWithPrefix (fun _ => []) = Hashing.hashWithPrefix x.transport := by
  intro claimed
  have accepted : dumpsSorted numbered = .ok "\x7b\"2\":1,\"10\":2\x7d".toList :=
    dumpsSorted_eq_ok.mpr (by decide)
  have arrives : dumps numbered.transport = "\x7b\"10\":2,\"2\":1\x7d".toList := by decide
  have hashes := claimed numbered _ rfl accepted
  rw [hashWithPrefix_ok rfl accepted, hashWithPrefix_container rfl, arrives] at hashes
  have apart : sha256 "\x7b\"2\":1,\"10\":2\x7d".toList ≠
      sha256 "\x7b\"10\":2,\"2\":1\x7d".toList := by
    decide +kernel
  exact apart (List.append_cancel_left (Except.ok.inj hashes))

end Stability

end AgentTrust.ContentTransport
