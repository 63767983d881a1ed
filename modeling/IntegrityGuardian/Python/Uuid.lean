import IntegrityGuardian.Python.Text

/-!
# SHA-1 and name-based UUIDs

`uuid.uuid5(namespace, name)`: a SHA-1 digest of the namespace and the name, cut
to sixteen octets, with the version and the variant written over it.
-/

namespace IntegrityGuardian.Python

namespace Sha1

open Sha256 (words pad bigEndian)

def rotl (x n : Nat) : Nat := ((x <<< n) ||| (x >>> (32 - n))) % 4294967296

/-- The five working variables. -/
structure State where
  a : Nat
  b : Nat
  c : Nat
  d : Nat
  e : Nat

def initial : State := ⟨0x67452301, 0xefcdab89, 0x98badcfe, 0x10325476, 0xc3d2e1f0⟩

/-- `f_t` and `K_t` of FIPS 180-4. -/
def mix (t b c d : Nat) : Nat × Nat :=
  if t < 20 then (d ^^^ (b &&& (c ^^^ d)), 0x5a827999)
  else if t < 40 then (b ^^^ c ^^^ d, 0x6ed9eba1)
  else if t < 60 then ((b &&& c) ^^^ (b &&& d) ^^^ (c &&& d), 0x8f1bbcdc)
  else (b ^^^ c ^^^ d, 0xca62c1d6)

def round (t : Nat) (s : State) (w : Nat) : State :=
  let (f, k) := mix t s.b s.c s.d
  ⟨(rotl s.a 5 + f + s.e + k + w) % 4294967296, s.a, rotl s.b 30, s.c, s.d⟩

/-- `fuel` rounds from round `t` on; the list holds the next sixteen schedule words. -/
def rounds : Nat → Nat → List Nat → State → State
  | fuel + 1, t, w0 :: w1 :: w2 :: rest, s =>
    let next := rotl (rest[10]?.getD 0 ^^^ rest[5]?.getD 0 ^^^ w2 ^^^ w0) 1
    rounds fuel (t + 1) (w1 :: w2 :: (rest ++ [next])) (round t s w0)
  | _, _, _, s => s

def compress (s : State) (block : Bytes) : State :=
  let out := rounds 80 0 (words block) s
  ⟨(s.a + out.a) % 4294967296, (s.b + out.b) % 4294967296, (s.c + out.c) % 4294967296,
    (s.d + out.d) % 4294967296, (s.e + out.e) % 4294967296⟩

def absorb : Nat → Bytes → State → State
  | 0, _, s => s
  | n + 1, message, s => absorb n (message.drop 64) (compress s (message.take 64))

def output (s : State) : Bytes :=
  bigEndian 4 s.a ++ bigEndian 4 s.b ++ bigEndian 4 s.c ++ bigEndian 4 s.d ++ bigEndian 4 s.e

end Sha1

/-- `hashlib.sha1(message).digest()`. -/
def sha1 (message : Bytes) : Bytes :=
  Sha1.output (Sha1.absorb ((Sha256.pad message).length / 64) (Sha256.pad message) Sha1.initial)

/-- The octets of a UUID with the version 5 and the variant of RFC 4122. -/
def uuidOctets (digest : Bytes) : Bytes :=
  (digest.take 16).mapIdx fun i b =>
    if i = 6 then b &&& 0x0f ||| 0x50 else if i = 8 then b &&& 0x3f ||| 0x80 else b

/-- `str` of a UUID. -/
def uuidText (octets : Bytes) : Str :=
  let h := hex octets
  h.take 8 ++ str "-" ++ (h.drop 8).take 4 ++ str "-" ++ (h.drop 12).take 4 ++ str "-"
    ++ (h.drop 16).take 4 ++ str "-" ++ h.drop 20

/-- `str(uuid.uuid5(namespace, name))`, for a name that UTF-8 can encode. -/
def uuid5 (namespaceOctets : Bytes) (name : Str) : Option Str :=
  (encodeUtf8 name).map fun octets => uuidText (uuidOctets (sha1 (namespaceOctets ++ octets)))

/-- `uuid.uuid5(uuid.NAMESPACE_DNS, "python.org")`. -/
example : uuid5 [0x6b, 0xa7, 0xb8, 0x10, 0x9d, 0xad, 0x11, 0xd1, 0x80, 0xb4, 0x00, 0xc0, 0x4f, 0xd4,
    0x30, 0xc8] (str "python.org") = some (str "886313e1-3b8a-5372-9b90-0c9aee199e5d") := by
  decide +kernel

end IntegrityGuardian.Python
