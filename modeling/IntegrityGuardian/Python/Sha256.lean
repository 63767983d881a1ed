import Mathlib.Data.List.Basic

/-!
# SHA-256 over byte lists

The function behind `hashlib.sha256(...).digest()`, as FIPS 180-4 states it.
Words are natural numbers below `2 ^ 32` and every recursion is structural, so
a digest of a concrete message can be evaluated.  Proofs about callers use only
the length of the digest; collisions are never excluded by definition.
-/

namespace IntegrityGuardian.Python

abbrev Bytes := List UInt8

namespace Sha256

def addWord (x y : Nat) : Nat := (x + y) % 4294967296

def rotr (x n : Nat) : Nat := ((x >>> n) ||| (x <<< (32 - n))) % 4294967296

def bigSigma0 (x : Nat) : Nat := rotr x 2 ^^^ rotr x 13 ^^^ rotr x 22

def bigSigma1 (x : Nat) : Nat := rotr x 6 ^^^ rotr x 11 ^^^ rotr x 25

def smallSigma0 (x : Nat) : Nat := rotr x 7 ^^^ rotr x 18 ^^^ (x >>> 3)

def smallSigma1 (x : Nat) : Nat := rotr x 17 ^^^ rotr x 19 ^^^ (x >>> 10)

/-- `Ch(x, y, z)`; on 32-bit words `z ^ (x & (y ^ z))` selects `y` where `x` is set. -/
def choose (x y z : Nat) : Nat := z ^^^ (x &&& (y ^^^ z))

def majority (x y z : Nat) : Nat := (x &&& y) ^^^ (x &&& z) ^^^ (y &&& z)

def roundConstants : List Nat :=
  [0x428a2f98, 0x71374491, 0xb5c0fbcf, 0xe9b5dba5, 0x3956c25b, 0x59f111f1, 0x923f82a4, 0xab1c5ed5,
   0xd807aa98, 0x12835b01, 0x243185be, 0x550c7dc3, 0x72be5d74, 0x80deb1fe, 0x9bdc06a7, 0xc19bf174,
   0xe49b69c1, 0xefbe4786, 0x0fc19dc6, 0x240ca1cc, 0x2de92c6f, 0x4a7484aa, 0x5cb0a9dc, 0x76f988da,
   0x983e5152, 0xa831c66d, 0xb00327c8, 0xbf597fc7, 0xc6e00bf3, 0xd5a79147, 0x06ca6351, 0x14292967,
   0x27b70a85, 0x2e1b2138, 0x4d2c6dfc, 0x53380d13, 0x650a7354, 0x766a0abb, 0x81c2c92e, 0x92722c85,
   0xa2bfe8a1, 0xa81a664b, 0xc24b8b70, 0xc76c51a3, 0xd192e819, 0xd6990624, 0xf40e3585, 0x106aa070,
   0x19a4c116, 0x1e376c08, 0x2748774c, 0x34b0bcb5, 0x391c0cb3, 0x4ed8aa4a, 0x5b9cca4f, 0x682e6ff3,
   0x748f82ee, 0x78a5636f, 0x84c87814, 0x8cc70208, 0x90befffa, 0xa4506ceb, 0xbef9a3f7, 0xc67178f2]

/-- The eight working variables, also used for the running hash value. -/
structure State where
  a : Nat
  b : Nat
  c : Nat
  d : Nat
  e : Nat
  f : Nat
  g : Nat
  h : Nat

def initial : State :=
  ⟨0x6a09e667, 0xbb67ae85, 0x3c6ef372, 0xa54ff53a, 0x510e527f, 0x9b05688c, 0x1f83d9ab, 0x5be0cd19⟩

def round (s : State) (k w : Nat) : State :=
  let t1 := (s.h + bigSigma1 s.e + choose s.e s.f s.g + k + w) % 4294967296
  let t2 := (bigSigma0 s.a + majority s.a s.b s.c) % 4294967296
  ⟨addWord t1 t2, s.a, s.b, s.c, addWord s.d t1, s.e, s.f, s.g⟩

/-- One round per constant.  The list holds the sixteen schedule words still to be
used; the next one is computed when the first is consumed. -/
def rounds : List Nat → List Nat → State → State
  | k :: ks, [w0, w1, w2, w3, w4, w5, w6, w7, w8, w9, w10, w11, w12, w13, w14, w15], s =>
    let next := (smallSigma1 w14 + w9 + smallSigma0 w1 + w0) % 4294967296
    rounds ks [w1, w2, w3, w4, w5, w6, w7, w8, w9, w10, w11, w12, w13, w14, w15, next]
      (round s k w0)
  | _, _, s => s

def addState (s t : State) : State :=
  ⟨addWord s.a t.a, addWord s.b t.b, addWord s.c t.c, addWord s.d t.d,
   addWord s.e t.e, addWord s.f t.f, addWord s.g t.g, addWord s.h t.h⟩

/-- Read big-endian 32-bit words. -/
def words : Bytes → List Nat
  | b0 :: b1 :: b2 :: b3 :: rest =>
    (((b0.toNat * 256 + b1.toNat) * 256 + b2.toNat) * 256 + b3.toNat) :: words rest
  | _ => []

def compress (s : State) (block : Bytes) : State :=
  addState s (rounds roundConstants (words block) s)

def absorb : Nat → Bytes → State → State
  | 0, _, s => s
  | n + 1, message, s => absorb n (message.drop 64) (compress s (message.take 64))

/-- Big-endian encoding of `n` in `width` bytes. -/
def bigEndian : Nat → Nat → Bytes
  | 0, _ => []
  | width + 1, n => bigEndian width (n / 256) ++ [UInt8.ofNat (n % 256)]

def pad (message : Bytes) : Bytes :=
  message ++ [0x80] ++ List.replicate ((119 - message.length % 64) % 64) 0
    ++ bigEndian 8 (message.length * 8)

def output (s : State) : Bytes :=
  bigEndian 4 s.a ++ bigEndian 4 s.b ++ bigEndian 4 s.c ++ bigEndian 4 s.d
    ++ bigEndian 4 s.e ++ bigEndian 4 s.f ++ bigEndian 4 s.g ++ bigEndian 4 s.h

end Sha256

/-- `hashlib.sha256(message).digest()`. -/
@[irreducible] def sha256 (message : Bytes) : Bytes :=
  Sha256.output (Sha256.absorb ((Sha256.pad message).length / 64) (Sha256.pad message)
    Sha256.initial)

namespace Sha256

@[simp] theorem length_bigEndian (width n : Nat) : (bigEndian width n).length = width := by
  induction width generalizing n with
  | zero => rfl
  | succ width ih => simp [bigEndian, ih]

end Sha256

@[simp] theorem length_sha256 (message : Bytes) : (sha256 message).length = 32 := by
  unfold sha256
  simp [Sha256.output]

/-- The FIPS 180-4 one-block example, `SHA-256("abc")`. -/
example : sha256 [0x61, 0x62, 0x63] =
    [0xba, 0x78, 0x16, 0xbf, 0x8f, 0x01, 0xcf, 0xea, 0x41, 0x41, 0x40, 0xde, 0x5d, 0xae, 0x22, 0x23,
     0xb0, 0x03, 0x61, 0xa3, 0x96, 0x17, 0x7a, 0x9c, 0xb4, 0x10, 0xff, 0x61, 0xf2, 0x00, 0x15, 0xad] := by
  decide +kernel

end IntegrityGuardian.Python
