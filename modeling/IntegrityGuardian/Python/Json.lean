import IntegrityGuardian.Python.Text
import Mathlib.Data.List.Sort
import Mathlib.Data.List.Nodup

/-!
# `json.dumps` and `json.loads` on float-free values

The encoder is `json.dumps` with `ensure_ascii=False`, `sort_keys=True` and the
compact separators; the decoder is `json.loads` with an `object_pairs_hook`
that refuses repeated keys and number hooks that refuse floats and the
non-finite constants.  A `dict` is the list of its items in insertion order;
its keys are distinct, which `Json.wf` states at every level.
-/

namespace IntegrityGuardian.Python

inductive Json where
  | null
  | bool (b : Bool)
  | int (n : Int)
  | str (s : Str)
  | arr (items : List Json)
  | obj (members : List (Str × Json))

namespace Json

mutual
def beq : Json → Json → Bool
  | .null, .null => true
  | .bool a, .bool b => a == b
  | .int a, .int b => a == b
  | .str a, .str b => a == b
  | .arr a, .arr b => beqItems a b
  | .obj a, .obj b => beqMembers a b
  | _, _ => false

def beqItems : List Json → List Json → Bool
  | [], [] => true
  | v :: vs, w :: ws => beq v w && beqItems vs ws
  | _, _ => false

def beqMembers : List (Str × Json) → List (Str × Json) → Bool
  | [], [] => true
  | (k, v) :: ms, (l, w) :: ns => k == l && beq v w && beqMembers ms ns
  | _, _ => false
end

mutual
theorem eq_of_beq : ∀ {v w : Json}, beq v w = true → v = w
  | .null, w, h => by cases w <;> simp_all [beq]
  | .bool a, w, h => by cases w <;> simp_all [beq]
  | .int a, w, h => by cases w <;> simp_all [beq]
  | .str a, w, h => by cases w <;> simp_all [beq]
  | .arr a, w, h => by
    cases w with
    | arr b =>
      have hitems : a = b := eq_of_beqItems (by simpa [beq] using h)
      rw [hitems]
    | _ => simp [beq] at h
  | .obj a, w, h => by
    cases w with
    | obj b =>
      have hmembers : a = b := eq_of_beqMembers (by simpa [beq] using h)
      rw [hmembers]
    | _ => simp [beq] at h

theorem eq_of_beqItems : ∀ {vs ws : List Json}, beqItems vs ws = true → vs = ws
  | [], ws, h => by cases ws <;> simp_all [beqItems]
  | v :: vs, [], h => by simp [beqItems] at h
  | v :: vs, w :: ws, h => by
    simp only [beqItems, Bool.and_eq_true] at h
    rw [eq_of_beq h.1, eq_of_beqItems h.2]

theorem eq_of_beqMembers : ∀ {ms ns : List (Str × Json)}, beqMembers ms ns = true → ms = ns
  | [], ns, h => by cases ns <;> simp_all [beqMembers]
  | (k, v) :: ms, [], h => by simp [beqMembers] at h
  | (k, v) :: ms, (l, w) :: ns, h => by
    simp only [beqMembers, Bool.and_eq_true, beq_iff_eq] at h
    rw [h.1.1, eq_of_beq h.1.2, eq_of_beqMembers h.2]
end

mutual
theorem beq_self : ∀ v : Json, beq v v = true
  | .null => rfl
  | .bool a => by simp [beq]
  | .int a => by simp [beq]
  | .str a => by simp [beq]
  | .arr a => by rw [beq]; exact beqItems_self a
  | .obj a => by rw [beq]; exact beqMembers_self a

theorem beqItems_self : ∀ vs : List Json, beqItems vs vs = true
  | [] => rfl
  | v :: vs => by simp [beqItems, beq_self v, beqItems_self vs]

theorem beqMembers_self : ∀ ms : List (Str × Json), beqMembers ms ms = true
  | [] => rfl
  | (k, v) :: ms => by simp [beqMembers, beq_self v, beqMembers_self ms]
end

instance : DecidableEq Json := fun v w =>
  decidable_of_iff (beq v w = true) ⟨eq_of_beq, fun h => h ▸ beq_self v⟩

/-! ## Values -/

mutual
/-- The keys of every object are distinct, as in a `dict`. -/
def wf : Json → Bool
  | .arr items => wfItems items
  | .obj members => decide (members.map Prod.fst).Nodup && wfMembers members
  | _ => true

def wfItems : List Json → Bool
  | [] => true
  | v :: vs => wf v && wfItems vs

def wfMembers : List (Str × Json) → Bool
  | [] => true
  | (_, v) :: ms => wf v && wfMembers ms
end

/-- `value.get(key)` on a `dict`; `none` also for values that are no `dict`. -/
def get? (v : Json) (key : Str) : Option Json :=
  match v with
  | .obj members => members.lookup key
  | _ => none

mutual
/-- The value with the items of every object in key order. -/
def sortKeys : Json → Json
  | .arr items => .arr (sortItems items)
  | .obj members => .obj ((sortMembers members).insertionSort fun a b => a.1 ≤ b.1)
  | v => v

def sortItems : List Json → List Json
  | [] => []
  | v :: vs => sortKeys v :: sortItems vs

def sortMembers : List (Str × Json) → List (Str × Json)
  | [] => []
  | (k, v) :: ms => (k, sortKeys v) :: sortMembers ms
end

/-! ## Encoder -/

def ch (c : Char) : CodePoint := CodePoint.ofChar c

/-- `"\\u{0:04x}".format(n)` for `n < 256`. -/
def unicodeEscape (n : Nat) : Str :=
  [ch '\\', ch 'u', ch '0', ch '0', hexDigit (n / 16), hexDigit (n % 16)]

/-- The replacement of one character inside a JSON string. -/
def escapeChar (c : CodePoint) : Str :=
  if c = ch '"' then [ch '\\', ch '"']
  else if c = ch '\\' then [ch '\\', ch '\\']
  else if c = ch '\n' then [ch '\\', ch 'n']
  else if c = ch '\r' then [ch '\\', ch 'r']
  else if c = ch '\t' then [ch '\\', ch 't']
  else if c = ch '\x0c' then [ch '\\', ch 'f']
  else if c = ch '\x08' then [ch '\\', ch 'b']
  else if c.val < 0x20 then unicodeEscape c.val
  else [c]

def renderStr (s : Str) : Str := ch '"' :: s.flatMap escapeChar ++ [ch '"']

theorem digit_lt (n : Nat) : 48 + n % 10 < 0x110000 := by omega

def digit (n : Nat) : CodePoint := ⟨48 + n % 10, digit_lt n⟩

def decimalAux : Nat → Nat → Str → Str
  | 0, _, acc => acc
  | fuel + 1, n, acc =>
    if n < 10 then digit n :: acc else decimalAux fuel (n / 10) (digit (n % 10) :: acc)

/-- The decimal digits of a natural number. -/
def decimal (n : Nat) : Str := decimalAux (n + 1) n []

/-- `int.__repr__`. -/
def renderInt : Int → Str
  | .ofNat n => decimal n
  | .negSucc n => ch '-' :: decimal (n + 1)

mutual
def render : Json → Str
  | .null => Python.str "null"
  | .bool true => Python.str "true"
  | .bool false => Python.str "false"
  | .int n => renderInt n
  | .str s => renderStr s
  | .arr [] => [ch '[', ch ']']
  | .arr (v :: vs) => ch '[' :: (render v ++ renderItems vs)
  | .obj [] => [ch '{', ch '}']
  | .obj ((k, v) :: ms) => ch '{' :: (renderStr k ++ ch ':' :: render v ++ renderMembers ms)

def renderItems : List Json → Str
  | [] => [ch ']']
  | v :: vs => ch ',' :: (render v ++ renderItems vs)

def renderMembers : List (Str × Json) → Str
  | [] => [ch '}']
  | (k, v) :: ms => ch ',' :: (renderStr k ++ ch ':' :: render v ++ renderMembers ms)
end

/-- `json.dumps(value, ensure_ascii=False, sort_keys=True, separators=(",", ":"))`. -/
def dumps (v : Json) : Str := render (sortKeys v)

/-! ## Decoder -/

inductive DecodeError where
  | invalid
  | duplicateKey (key : Str)
  | float (text : Str)
  | constant (text : Str)
  deriving DecidableEq

/-- `[ \t\n\r]`. -/
def isWhitespace (c : CodePoint) : Bool :=
  c == ch ' ' || c == ch '\t' || c == ch '\n' || c == ch '\r'

def skipWhitespace (s : Str) : Str := s.dropWhile isWhitespace

def isDigit (c : CodePoint) : Bool := 48 ≤ c.val && c.val ≤ 57

def hex4? (a b c d : CodePoint) : Option Nat := do
  let a ← hexValue a
  let b ← hexValue b
  let c ← hexValue c
  let d ← hexValue d
  pure (((a * 16 + b) * 16 + c) * 16 + d)

/-- What a JSON string holds next: its end or one character. -/
inductive StringItem where
  | close (rest : Str)
  | char (c : CodePoint) (rest : Str)

def simpleEscape (c : CodePoint) : Option CodePoint :=
  if c = ch '"' then some (ch '"')
  else if c = ch '\\' then some (ch '\\')
  else if c = ch '/' then some (ch '/')
  else if c = ch 'b' then some (ch '\x08')
  else if c = ch 'f' then some (ch '\x0c')
  else if c = ch 'n' then some (ch '\n')
  else if c = ch 'r' then some (ch '\r')
  else if c = ch 't' then some (ch '\t')
  else none

/-- The low half that completes a high surrogate, when the text goes on with one. -/
def lowSurrogate? : Str → Option (Nat × Str)
  | a :: b :: c :: d :: e :: f :: rest =>
    if a = ch '\\' ∧ b = ch 'u' then
      match hex4? c d e f with
      | some u => if 0xdc00 ≤ u ∧ u ≤ 0xdfff then some (u, rest) else none
      | none => none
    else none
  | _ => none

/-- A `\uXXXX` escape, joined with the next one when both are a surrogate pair. -/
def unicodeItem (u : Nat) (rest : Str) : Option StringItem :=
  match (if 0xd800 ≤ u ∧ u ≤ 0xdbff then lowSurrogate? rest else none) with
  | some (low, rest) =>
    (codePoint? (0x10000 + (u - 0xd800) * 1024 + (low - 0xdc00))).map (.char · rest)
  | none => (codePoint? u).map (.char · rest)

def nextStringItem : Str → Option StringItem
  | [] => none
  | c :: rest =>
    if c = ch '"' then some (.close rest)
    else if c = ch '\\' then
      match rest with
      | [] => none
      | e :: rest =>
        if e = ch 'u' then
          match rest with
          | h1 :: h2 :: h3 :: h4 :: rest => (hex4? h1 h2 h3 h4).bind (unicodeItem · rest)
          | _ => none
        else (simpleEscape e).map (.char · rest)
    else if c.val < 0x20 then none
    else some (.char c rest)

/-- `scanstring` after the opening quote, in strict mode. -/
def scanString : Nat → Str → Except DecodeError (Str × Str)
  | 0, _ => .error .invalid
  | fuel + 1, s =>
    match nextStringItem s with
    | none => .error .invalid
    | some (.close rest) => .ok ([], rest)
    | some (.char c rest) =>
      match scanString fuel rest with
      | .ok (cs, rest) => .ok (c :: cs, rest)
      | .error e => .error e

def decimalValue (digits : Str) : Nat :=
  digits.foldl (fun acc c => acc * 10 + (c.val - 48)) 0

/-- `(\.[0-9]+)?` -/
def fraction : Str → Str × Str
  | c :: d :: rest =>
    if c = ch '.' ∧ isDigit d then
      (c :: (d :: rest).takeWhile isDigit, (d :: rest).dropWhile isDigit)
    else ([], c :: d :: rest)
  | s => ([], s)

/-- `([eE][-+]?[0-9]+)?` -/
def exponent : Str → Str × Str
  | [] => ([], [])
  | c :: rest =>
    if c = ch 'e' ∨ c = ch 'E' then
      let sign := rest.takeWhile (fun d => d == ch '-' || d == ch '+') |>.take 1
      let digits := (rest.drop sign.length).takeWhile isDigit
      if digits = [] then ([], c :: rest)
      else (c :: (sign ++ digits), rest.drop (sign.length + digits.length))
    else ([], c :: rest)

/-- `-?(?:0|[1-9][0-9]*)`, the integer part of a number. -/
def integerPart (s : Str) : Option (Str × Str) :=
  let sign := s.take 1 |>.filter (· == ch '-')
  match s.drop sign.length with
  | [] => none
  | c :: rest =>
    if c = ch '0' then some (sign ++ [c], rest)
    else if isDigit c then
      some (sign ++ c :: rest.takeWhile isDigit, rest.dropWhile isDigit)
    else none

/-- `int(text)` of an integer part. -/
def integerValue : Str → Int
  | [] => 0
  | c :: rest => if c = ch '-' then -(decimalValue rest : Int) else decimalValue (c :: rest)

def scanNumber (s : Str) : Except DecodeError (Json × Str) :=
  match integerPart s with
  | none =>
    if (Python.str "-Infinity").isPrefixOf s then .error (.constant (Python.str "-Infinity"))
    else .error .invalid
  | some (text, rest) =>
    let (frac, rest) := fraction rest
    let (exp, rest) := exponent rest
    if frac = [] ∧ exp = [] then .ok (.int (integerValue text), rest)
    else .error (.float (text ++ frac ++ exp))

/-- The keywords, and the constants the hook refuses. -/
def scanKeyword (s : Str) : Except DecodeError (Json × Str) :=
  if (Python.str "null").isPrefixOf s then .ok (.null, s.drop 4)
  else if (Python.str "true").isPrefixOf s then .ok (.bool true, s.drop 4)
  else if (Python.str "false").isPrefixOf s then .ok (.bool false, s.drop 5)
  else if (Python.str "NaN").isPrefixOf s then .error (.constant (Python.str "NaN"))
  else if (Python.str "Infinity").isPrefixOf s then .error (.constant (Python.str "Infinity"))
  else scanNumber s

/-- The `object_pairs_hook`: build the `dict`, refusing a key met before. -/
def rejectDuplicateKeys : List (Str × Json) → List (Str × Json) →
    Except DecodeError (List (Str × Json))
  | result, [] => .ok result
  | result, (key, value) :: pairs =>
    if key ∈ result.map Prod.fst then .error (.duplicateKey key)
    else rejectDuplicateKeys (result ++ [(key, value)]) pairs

mutual
/-- `scan_once`, on the text from the current position on. -/
def scanOnce : Nat → Str → Except DecodeError (Json × Str)
  | 0, _ => .error .invalid
  | _ + 1, [] => .error .invalid
  | fuel + 1, c :: rest =>
    if c = ch '"' then do
      let (s, rest) ← scanString (rest.length + 1) rest
      .ok (.str s, rest)
    else if c = ch '{' then
      match skipWhitespace rest with
      | [] => .error .invalid
      | d :: rest =>
        if d = ch '}' then .ok (.obj [], rest)
        else do
          let (pairs, rest) ← scanMembers fuel (d :: rest)
          let members ← rejectDuplicateKeys [] pairs
          .ok (.obj members, rest)
    else if c = ch '[' then
      match skipWhitespace rest with
      | [] => .error .invalid
      | d :: rest =>
        if d = ch ']' then .ok (.arr [], rest)
        else do
          let (items, rest) ← scanItems fuel (d :: rest)
          .ok (.arr items, rest)
    else scanKeyword (c :: rest)

/-- The items of an array up to its closing bracket; at least one is read. -/
def scanItems : Nat → Str → Except DecodeError (List Json × Str)
  | 0, _ => .error .invalid
  | fuel + 1, s => do
    let (v, rest) ← scanOnce fuel s
    match skipWhitespace rest with
    | [] => .error .invalid
    | c :: rest =>
      if c = ch ']' then .ok ([v], rest)
      else if c = ch ',' then do
        let (vs, rest) ← scanItems fuel (skipWhitespace rest)
        .ok (v :: vs, rest)
      else .error .invalid

/-- The items of an object up to its closing brace; at least one is read. -/
def scanMembers : Nat → Str → Except DecodeError (List (Str × Json) × Str)
  | 0, _ => .error .invalid
  | _ + 1, [] => .error .invalid
  | fuel + 1, q :: rest =>
    if q = ch '"' then do
      let (key, rest) ← scanString (rest.length + 1) rest
      match skipWhitespace rest with
      | [] => .error .invalid
      | colon :: rest =>
        if colon = ch ':' then do
          let (v, rest) ← scanOnce fuel (skipWhitespace rest)
          match skipWhitespace rest with
          | [] => .error .invalid
          | c :: rest =>
            if c = ch '}' then .ok ([(key, v)], rest)
            else if c = ch ',' then do
              let (ms, rest) ← scanMembers fuel (skipWhitespace rest)
              .ok ((key, v) :: ms, rest)
            else .error .invalid
        else .error .invalid
    else .error .invalid
end

/-- `json.loads(text)` on text.  Every call of the scanner consumes a character
or follows one that did, so twice the length bounds the depth of the calls. -/
def loads (text : Str) : Except DecodeError Json :=
  if text.head? = some ⟨0xfeff, by omega⟩ then .error .invalid
  else do
    let start := skipWhitespace text
    let (v, rest) ← scanOnce (2 * start.length + 2) start
    if skipWhitespace rest = [] then .ok v else .error .invalid

/-! ## Byte documents -/

inductive Encoding where
  | utf8
  | utf8Sig
  | utf16
  | utf16le
  | utf16be
  | utf32
  | utf32le
  | utf32be
  deriving DecidableEq, Repr

/-- `json.detect_encoding`. -/
def detectEncoding (b : Bytes) : Encoding :=
  if [0, 0, 0xfe, 0xff].isPrefixOf b ∨ [0xff, 0xfe, 0, 0].isPrefixOf b then .utf32
  else if [0xfe, 0xff].isPrefixOf b ∨ [0xff, 0xfe].isPrefixOf b then .utf16
  else if [0xef, 0xbb, 0xbf].isPrefixOf b then .utf8Sig
  else
    match b with
    | b0 :: b1 :: b2 :: b3 :: _ =>
      if b0 = 0 then (if b1 = 0 then .utf32be else .utf16be)
      else if b1 = 0 then (if b2 = 0 ∧ b3 = 0 then .utf32le else .utf16le)
      else .utf8
    | [b0, b1] => if b0 = 0 then .utf16be else if b1 = 0 then .utf16le else .utf8
    | _ => .utf8

/-- One 16-bit unit, joined with the next when both are a surrogate pair. -/
def nextUtf16 (bigEndian : Bool) : Bytes → Option (CodePoint × Bytes)
  | a :: b :: rest =>
    let unit := fun (a b : UInt8) =>
      if bigEndian then a.toNat * 256 + b.toNat else b.toNat * 256 + a.toNat
    let u := unit a b
    match rest with
    | c :: d :: rest' =>
      let v := unit c d
      if 0xd800 ≤ u ∧ u ≤ 0xdbff ∧ 0xdc00 ≤ v ∧ v ≤ 0xdfff then
        (codePoint? (0x10000 + (u - 0xd800) * 1024 + (v - 0xdc00))).map (·, rest')
      else (codePoint? u).map (·, rest)
    | _ => (codePoint? u).map (·, rest)
  | _ => none

def nextUtf32 (bigEndian : Bool) : Bytes → Option (CodePoint × Bytes)
  | a :: b :: c :: d :: rest =>
    let n := if bigEndian then
        ((a.toNat * 256 + b.toNat) * 256 + c.toNat) * 256 + d.toNat
      else ((d.toNat * 256 + c.toNat) * 256 + b.toNat) * 256 + a.toNat
    (codePoint? n).map (·, rest)
  | _ => none

/-- `data.decode(encoding, "surrogatepass")`. -/
def decodeAs (encoding : Encoding) (data : Bytes) : Option Str :=
  match encoding with
  | .utf8 => decodeUtf8 data
  | .utf8Sig => decodeUtf8 (data.drop 3)
  | .utf16 => decodeWith (nextUtf16 (data.head? == some 0xfe)) data.length (data.drop 2)
  | .utf16le => decodeWith (nextUtf16 false) data.length data
  | .utf16be => decodeWith (nextUtf16 true) data.length data
  | .utf32 => decodeWith (nextUtf32 (data.head? == some 0)) data.length (data.drop 4)
  | .utf32le => decodeWith (nextUtf32 false) data.length data
  | .utf32be => decodeWith (nextUtf32 true) data.length data

/-- `json.loads(data)` on bytes. -/
def loadsBytes (data : Bytes) : Except DecodeError Json :=
  match decodeAs (detectEncoding data) data with
  | none => .error .invalid
  | some text => loads text

end Json

end IntegrityGuardian.Python
