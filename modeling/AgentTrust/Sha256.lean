import Mathlib.Tactic.Common

/-! SHA-256 on byte lists: padding to whole blocks, the message schedule, the
compression of each block, and the digest as lowercase hexadecimal. Only the shape
of the digest is proved; nothing here says that it is hard to invert. -/

namespace AgentTrust.Sha256

def rotr (k x : UInt32) : UInt32 := (x >>> k) ||| (x <<< (32 - k))

def initial : List UInt32 :=
  [0x6a09e667, 0xbb67ae85, 0x3c6ef372, 0xa54ff53a, 0x510e527f, 0x9b05688c, 0x1f83d9ab, 0x5be0cd19]

def roundConstants : List UInt32 :=
  [0x428a2f98, 0x71374491, 0xb5c0fbcf, 0xe9b5dba5, 0x3956c25b, 0x59f111f1, 0x923f82a4, 0xab1c5ed5,
   0xd807aa98, 0x12835b01, 0x243185be, 0x550c7dc3, 0x72be5d74, 0x80deb1fe, 0x9bdc06a7, 0xc19bf174,
   0xe49b69c1, 0xefbe4786, 0x0fc19dc6, 0x240ca1cc, 0x2de92c6f, 0x4a7484aa, 0x5cb0a9dc, 0x76f988da,
   0x983e5152, 0xa831c66d, 0xb00327c8, 0xbf597fc7, 0xc6e00bf3, 0xd5a79147, 0x06ca6351, 0x14292967,
   0x27b70a85, 0x2e1b2138, 0x4d2c6dfc, 0x53380d13, 0x650a7354, 0x766a0abb, 0x81c2c92e, 0x92722c85,
   0xa2bfe8a1, 0xa81a664b, 0xc24b8b70, 0xc76c51a3, 0xd192e819, 0xd6990624, 0xf40e3585, 0x106aa070,
   0x19a4c116, 0x1e376c08, 0x2748774c, 0x34b0bcb5, 0x391c0cb3, 0x4ed8aa4a, 0x5b9cca4f, 0x682e6ff3,
   0x748f82ee, 0x78a5636f, 0x84c87814, 0x8cc70208, 0x90befffa, 0xa4506ceb, 0xbef9a3f7, 0xc67178f2]

def bytesOf (count n : Nat) : List UInt8 :=
  (List.range count).map fun i => UInt8.ofNat (n >>> (8 * (count - 1 - i)))

/-- The message, a one bit, zeros, and the bit length in eight bytes. -/
def pad (message : List UInt8) : List UInt8 :=
  message ++ 0x80 ::
    (List.replicate ((119 - message.length % 64) % 64) 0 ++ bytesOf 8 (8 * message.length))

def wordOf (bytes : List UInt8) : UInt32 :=
  bytes.foldl (fun w b => (w <<< 8) ||| b.toUInt32) 0

def words (block : List UInt8) : List UInt32 :=
  (List.range 16).map fun i => wordOf ((block.drop (4 * i)).take 4)

/-- `count` further words of a schedule kept with its last word first. -/
def extend : (count : Nat) → List UInt32 → List UInt32
  | 0, ws => ws
  | count + 1, ws =>
    let w2 := ws.getD 1 0
    let w15 := ws.getD 14 0
    let s0 := rotr 7 w15 ^^^ rotr 18 w15 ^^^ (w15 >>> 3)
    let s1 := rotr 17 w2 ^^^ rotr 19 w2 ^^^ (w2 >>> 10)
    extend count ((ws.getD 15 0 + s0 + ws.getD 6 0 + s1) :: ws)

def schedule (block : List UInt8) : List UInt32 := (extend 48 (words block).reverse).reverse

structure Working where
  a : UInt32
  b : UInt32
  c : UInt32
  d : UInt32
  e : UInt32
  f : UInt32
  g : UInt32
  h : UInt32

def round (s : Working) (kw : UInt32 × UInt32) : Working :=
  let s1 := rotr 6 s.e ^^^ rotr 11 s.e ^^^ rotr 25 s.e
  let ch := (s.e &&& s.f) ^^^ (~~~ s.e &&& s.g)
  let t1 := s.h + s1 + ch + kw.1 + kw.2
  let s0 := rotr 2 s.a ^^^ rotr 13 s.a ^^^ rotr 22 s.a
  let maj := (s.a &&& s.b) ^^^ (s.a &&& s.c) ^^^ (s.b &&& s.c)
  ⟨t1 + (s0 + maj), s.a, s.b, s.c, s.d + t1, s.e, s.f, s.g⟩

def Working.list (s : Working) : List UInt32 := [s.a, s.b, s.c, s.d, s.e, s.f, s.g, s.h]

def Working.start (state : List UInt32) : Working :=
  ⟨state.getD 0 0, state.getD 1 0, state.getD 2 0, state.getD 3 0,
   state.getD 4 0, state.getD 5 0, state.getD 6 0, state.getD 7 0⟩

def compress (state : List UInt32) (block : List UInt8) : List UInt32 :=
  let final := (roundConstants.zip (schedule block)).foldl round (.start state)
  List.zipWith (· + ·) state final.list

/-- `count` blocks of a padded message. -/
def absorb : (count : Nat) → List UInt32 → List UInt8 → List UInt32
  | 0, state, _ => state
  | count + 1, state, bytes => absorb count (compress state (bytes.take 64)) (bytes.drop 64)

def digest (message : List UInt8) : List UInt32 :=
  absorb ((pad message).length / 64) initial (pad message)

def hexWord (w : UInt32) : List Char :=
  (List.range 8).map fun i => (w.toNat >>> (4 * (7 - i)) % 16).digitChar

/-- `hashlib.sha256(message).hexdigest()`. -/
def hexdigest (message : List UInt8) : List Char := (digest message).flatMap hexWord

section Shape

theorem compress_length {state : List UInt32} (h : state.length = 8) (block : List UInt8) :
    (compress state block).length = 8 := by
  simp [compress, Working.list, h]

theorem absorb_length (count : Nat) {state : List UInt32} (h : state.length = 8)
    (bytes : List UInt8) : (absorb count state bytes).length = 8 := by
  induction count generalizing state bytes with
  | zero => exact h
  | succ count ih => exact ih (compress_length h _) _

@[simp] theorem hexdigest_length (message : List UInt8) : (hexdigest message).length = 64 := by
  have words : (digest message).length = 8 := absorb_length _ rfl _
  have each : ∀ w, (hexWord w).length = 8 := fun w => by simp [hexWord]
  simp [hexdigest, List.length_flatMap, each, List.map_const', words]

def hexChars : List Char := "0123456789abcdef".toList

theorem hex_of_mem_hexdigest {message : List UInt8} {c : Char} (h : c ∈ hexdigest message) :
    c ∈ hexChars := by
  have digits : ∀ n < 16, n.digitChar ∈ hexChars := by decide
  obtain ⟨w, _, hw⟩ := List.mem_flatMap.mp h
  obtain ⟨i, _, rfl⟩ := List.mem_map.mp hw
  exact digits _ (Nat.mod_lt _ (by decide))

end Shape

end AgentTrust.Sha256
