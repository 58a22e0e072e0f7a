import Mathlib.Data.List.Infix
import AgentTrust.PyJson
import AgentTrust.PyDateTime
import AgentTrust.OrderedDict

/-! Python's operations on decoded JSON: subscripts, `in`, `.get`, truth, `str`,
and the exceptions they raise. An exception is its class and the text that
`f"{e}"` shows; where that text is a library's own it is one opaque piece. -/

namespace AgentTrust.PyValue

open JsonTree JsonTree.Json JsonText PyText PyJson PyDateTime OrderedDict

def lit (s : String) : PyStr := raw s.toList

section Exceptions

/-- Classes that the program tells apart. `valueError` stands for `ValueError` and
its subclasses: failed validation, undecodable JSON, unencodable text. -/
inductive ExcClass where
  | keyError
  | valueError
  | typeError
  | attributeError
  | overflowError
  | runtimeError
  | recursionError
  | requestError
  | httpError
  | registrationError
  | commitError
  | queryError
  | networkError
  | authError
  | verificationError
  | storageError
  | proofNotFoundError
  | proofExpiredError
  deriving DecidableEq

inductive Piece where
  | text (s : PyStr)
  | value (v : JsonValue)
  | repr (v : JsonValue)
  | date (d : DateTime)
  | library

abbrev Message := List Piece

def msg (s : String) : Message := [.text (lit s)]

structure Exc where
  cls : ExcClass
  text : Message

/-- An exception whose text is written outside the program. -/
def foreign (c : ExcClass) : Exc := ⟨c, [.library]⟩

def Exc.isAny (classes : List ExcClass) (e : Exc) : Bool := classes.contains e.cls

end Exceptions

section Operations

/-- `v[k]` with a string key. -/
def getItem (k : String) : JsonValue → Except Exc JsonValue
  | .obj fields =>
    match lookup (lit k) fields with
    | some x => .ok x
    | none => .error ⟨.keyError, [.text (lit ("'" ++ k ++ "'"))]⟩
  | _ => .error (foreign .typeError)

/-- `v.get(k)`. -/
def getOr (k : String) (default : JsonValue) : JsonValue → Except Exc JsonValue
  | .obj fields => .ok ((lookup (lit k) fields).getD default)
  | _ => .error (foreign .attributeError)

theorem getOr_of_getItem {k : String} {v x : JsonValue} (h : getItem k v = .ok x)
    (default : JsonValue) : getOr k default v = .ok x := by
  cases v with
  | obj fields =>
    unfold getItem at h
    dsimp only at h
    split at h
    · next found => rw [getOr, found, ← Except.ok.inj h, Option.getD_some]
    · simp at h
  | _ => simp [getItem] at h

/-- `k in v`. -/
def contains (k : String) : JsonValue → Except Exc Bool
  | .obj fields => .ok (lookup (lit k) fields).isSome
  | .arr xs => .ok (xs.any fun x => match x with | .str s => s = lit k | _ => false)
  | .str s => .ok (decide (lit k <:+: s))
  | _ => .error (foreign .typeError)

/-- `bool(v)`. -/
def truthy : JsonValue → Bool
  | .null => false
  | .bool b => b
  | .int i => i ≠ 0
  | .float f => f.text ≠ "0.0".toList && f.text ≠ "-0.0".toList
  | .str s => s ≠ []
  | .arr xs => !xs.isEmpty
  | .obj fields => !fields.isEmpty

/-- `str(v)` of a number, a truth value or `None`. A float prints as its `repr`,
which differs from its JSON text for the values that are not numbers. -/
def atomText : JsonValue → Text
  | .null => "None".toList
  | .bool b => if b then "True".toList else "False".toList
  | .int i => intText i
  | .float f =>
    if f.text = "NaN".toList then "nan".toList
    else if f.text = "Infinity".toList then "inf".toList
    else if f.text = "-Infinity".toList then "-inf".toList
    else f.text
  | _ => []

/-- `str(v)`; the `repr` of lists and dicts is the interpreter's. -/
def pyStr (reprContainer : JsonValue → PyStr) : JsonValue → PyStr
  | .str s => s
  | .arr xs => reprContainer (.arr xs)
  | .obj fields => reprContainer (.obj fields)
  | v => raw (atomText v)

end Operations

end AgentTrust.PyValue
