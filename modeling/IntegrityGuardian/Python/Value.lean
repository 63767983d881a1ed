import IntegrityGuardian.Python.Runtime

/-!
# Values with floats

`json.dumps` and `json.loads` without the hooks of the canonical profile: numbers
can be floats, and the last of several equal keys wins.  The arithmetic of floats
is a parameter.
-/

namespace IntegrityGuardian.Python

open Json (ch)

/-- `float` as far as `json` and comparisons use it. -/
class FloatData where
  Float : Type
  isfinite : Float → Bool
  /-- `float.__repr__`. -/
  repr : Float → Str
  /-- `float(text)` of a JSON number. -/
  ofText : Str → Float
  nan : Float
  infinity : Float
  negInfinity : Float
  /-- `x == y`. -/
  eq : Float → Float → Bool
  /-- `x == n` for an `int`. -/
  eqInt : Float → Int → Bool

section
variable [FloatData]

/-- A Python object that `json` can be asked to encode. -/
inductive Value where
  | null
  | bool (b : Bool)
  | int (n : Int)
  | float (x : FloatData.Float)
  | str (s : Str)
  | arr (items : List Value)
  | obj (members : List (Str × Value))
  /-- An object of another kind, or a `dict` with keys that are not texts, with
  what `json.dumps` makes of it. -/
  | foreign (isDict : Bool) (encoded : Except Exc Str)

namespace Value

/-- `value.get(key)` on a `dict`. -/
def get? (v : Value) (key : Str) : Option Value :=
  match v with
  | .obj members => members.lookup key
  | _ => none

/-! ## Comparison -/

mutual
/-- `v == w`. -/
def eq : Value → Value → Bool
  | .null, .null => true
  | .bool a, .bool b => a == b
  | .bool a, .int n | .int n, .bool a => n == if a then 1 else 0
  | .bool a, .float x | .float x, .bool a => FloatData.eqInt x (if a then 1 else 0)
  | .int m, .int n => m == n
  | .int n, .float x | .float x, .int n => FloatData.eqInt x n
  | .float x, .float y => FloatData.eq x y
  | .str s, .str t => s == t
  | .arr vs, .arr ws => eqItems vs ws
  | .obj ms, .obj ns => ms.length == ns.length && eqMembers ms ns
  | _, _ => false

def eqItems : List Value → List Value → Bool
  | [], [] => true
  | v :: vs, w :: ws => eq v w && eqItems vs ws
  | _, _ => false

def eqMembers : List (Str × Value) → List (Str × Value) → Bool
  | [], _ => true
  | (k, v) :: ms, ns =>
    (match ns.lookup k with
      | some w => eq v w
      | none => false) && eqMembers ms ns
end

/-- `bool(value)`. -/
def truthy : Value → Bool
  | .null => false
  | .bool b => b
  | .int n => n != 0
  | .float x => !FloatData.eqInt x 0
  | .str s => s != []
  | .arr vs => vs.length != 0
  | .obj ms => ms.length != 0
  | .foreign _ _ => true

/-! ## Encoder -/

mutual
/-- The value with the items of every `dict` in key order. -/
def sortKeys : Value → Value
  | .arr items => .arr (sortItems items)
  | .obj members => .obj ((sortMembers members).insertionSort fun a b => a.1 ≤ b.1)
  | v => v

def sortItems : List Value → List Value
  | [] => []
  | v :: vs => sortKeys v :: sortItems vs

def sortMembers : List (Str × Value) → List (Str × Value)
  | [] => []
  | (k, v) :: ms => (k, sortKeys v) :: sortMembers ms
end

mutual
def render : Value → Except Exc Str
  | .null => .ok (Python.str "null")
  | .bool true => .ok (Python.str "true")
  | .bool false => .ok (Python.str "false")
  | .int n => .ok (Json.renderInt n)
  | .float x =>
    if FloatData.isfinite x then .ok (FloatData.repr x)
    else .error (.valueError (Python.str "Out of range float values are not JSON compliant"))
  | .str s => .ok (Json.renderStr s)
  | .foreign _ encoded => encoded
  | .arr [] => .ok [ch '[', ch ']']
  | .arr (v :: vs) => do
    let first ← render v
    let rest ← renderItems vs
    .ok (ch '[' :: (first ++ rest))
  | .obj [] => .ok [ch '{', ch '}']
  | .obj ((k, v) :: ms) => do
    let first ← render v
    let rest ← renderMembers ms
    .ok (ch '{' :: (Json.renderStr k ++ ch ':' :: first ++ rest))

def renderItems : List Value → Except Exc Str
  | [] => .ok [ch ']']
  | v :: vs => do
    let first ← render v
    let rest ← renderItems vs
    .ok (ch ',' :: (first ++ rest))

def renderMembers : List (Str × Value) → Except Exc Str
  | [] => .ok [ch '}']
  | (k, v) :: ms => do
    let first ← render v
    let rest ← renderMembers ms
    .ok (ch ',' :: (Json.renderStr k ++ ch ':' :: first ++ rest))
end

/-- `json.dumps(value, sort_keys=True, separators=(",", ":"), ensure_ascii=False,
allow_nan=False)`. -/
def dumps (v : Value) : Except Exc Str := v.sortKeys.render

/-- `json.dumps(value, …).encode("utf-8")`. -/
def dumpsBytes (v : Value) : Except Exc Bytes := do
  let text ← v.dumps
  match encodeUtf8 text with
  | some b => .ok b
  | none => .error .unicodeEncodeError

/-! ## Texts -/

section
variable [UnicodeData]

/-- The texts between commas. -/
def joined : List Str → Str
  | [] => []
  | [s] => s
  | s :: rest => s ++ Python.str ", " ++ joined rest

mutual
/-- `repr(value)`. -/
def repr : Value → Str
  | .null => Python.str "None"
  | .bool true => Python.str "True"
  | .bool false => Python.str "False"
  | .int n => Json.renderInt n
  | .float x => FloatData.repr x
  | .str s => Str.repr s
  | .arr vs => ch '[' :: joined (reprItems vs) ++ [ch ']']
  | .obj ms => ch '{' :: joined (reprMembers ms) ++ [ch '}']
  | .foreign _ _ => Python.str "object"

def reprItems : List Value → List Str
  | [] => []
  | v :: vs => repr v :: reprItems vs

def reprMembers : List (Str × Value) → List Str
  | [] => []
  | (k, v) :: ms => (Str.repr k ++ Python.str ": " ++ repr v) :: reprMembers ms
end

/-- `str(value)`. -/
def text : Value → Str
  | .str s => s
  | v => v.repr

end

/-! ## Decoder -/

def invalid : Exc := .valueError (Python.str "invalid JSON")

def scanNumber (s : Str) : Except Exc (Value × Str) :=
  match Json.integerPart s with
  | none =>
    if (Python.str "-Infinity").isPrefixOf s then .ok (.float FloatData.negInfinity, s.drop 9)
    else .error invalid
  | some (digits, rest) =>
    let (frac, rest) := Json.fraction rest
    let (exp, rest) := Json.exponent rest
    if frac = [] ∧ exp = [] then .ok (.int (Json.integerValue digits), rest)
    else .ok (.float (FloatData.ofText (digits ++ frac ++ exp)), rest)

def scanKeyword (s : Str) : Except Exc (Value × Str) :=
  if (Python.str "null").isPrefixOf s then .ok (.null, s.drop 4)
  else if (Python.str "true").isPrefixOf s then .ok (.bool true, s.drop 4)
  else if (Python.str "false").isPrefixOf s then .ok (.bool false, s.drop 5)
  else if (Python.str "NaN").isPrefixOf s then .ok (.float FloatData.nan, s.drop 3)
  else if (Python.str "Infinity").isPrefixOf s then .ok (.float FloatData.infinity, s.drop 8)
  else scanNumber s

/-- `dict(pairs)`: a repeated key keeps its place and takes the last value. -/
def ofPairs (pairs : List (Str × Value)) : List (Str × Value) :=
  pairs.foldl (fun members pair =>
    if pair.1 ∈ members.map Prod.fst then
      members.map fun m => if m.1 = pair.1 then pair else m
    else members ++ [pair]) []

def scanText (s : Str) : Except Exc (Str × Str) :=
  match Json.scanString (s.length + 1) s with
  | .ok p => .ok p
  | .error _ => .error invalid

mutual
/-- `scan_once`, on the text from the current position on. -/
def scanOnce : Nat → Str → Except Exc (Value × Str)
  | 0, _ => .error invalid
  | _ + 1, [] => .error invalid
  | fuel + 1, c :: rest =>
    if c = ch '"' then do
      let (s, rest) ← scanText rest
      .ok (.str s, rest)
    else if c = ch '{' then
      match Json.skipWhitespace rest with
      | [] => .error invalid
      | d :: rest =>
        if d = ch '}' then .ok (.obj [], rest)
        else do
          let (pairs, rest) ← scanMembers fuel (d :: rest)
          .ok (.obj (ofPairs pairs), rest)
    else if c = ch '[' then
      match Json.skipWhitespace rest with
      | [] => .error invalid
      | d :: rest =>
        if d = ch ']' then .ok (.arr [], rest)
        else do
          let (items, rest) ← scanItems fuel (d :: rest)
          .ok (.arr items, rest)
    else scanKeyword (c :: rest)

/-- The items of an array up to its closing bracket; at least one is read. -/
def scanItems : Nat → Str → Except Exc (List Value × Str)
  | 0, _ => .error invalid
  | fuel + 1, s => do
    let (v, rest) ← scanOnce fuel s
    match Json.skipWhitespace rest with
    | [] => .error invalid
    | c :: rest =>
      if c = ch ']' then .ok ([v], rest)
      else if c = ch ',' then do
        let (vs, rest) ← scanItems fuel (Json.skipWhitespace rest)
        .ok (v :: vs, rest)
      else .error invalid

/-- The items of an object up to its closing brace; at least one is read. -/
def scanMembers : Nat → Str → Except Exc (List (Str × Value) × Str)
  | 0, _ => .error invalid
  | _ + 1, [] => .error invalid
  | fuel + 1, q :: rest =>
    if q = ch '"' then do
      let (key, rest) ← scanText rest
      match Json.skipWhitespace rest with
      | [] => .error invalid
      | colon :: rest =>
        if colon = ch ':' then do
          let (v, rest) ← scanOnce fuel (Json.skipWhitespace rest)
          match Json.skipWhitespace rest with
          | [] => .error invalid
          | c :: rest =>
            if c = ch '}' then .ok ([(key, v)], rest)
            else if c = ch ',' then do
              let (ms, rest) ← scanMembers fuel (Json.skipWhitespace rest)
              .ok ((key, v) :: ms, rest)
            else .error invalid
        else .error invalid
    else .error invalid
end

/-- `json.loads(data)` on bytes. -/
def loadsBytes (data : Bytes) : Except Exc Value :=
  match Json.decodeAs (Json.detectEncoding data) data with
  | none => .error invalid
  | some text =>
    if text.head? = some ⟨0xfeff, CodePoint.bom_lt⟩ then .error invalid
    else do
      let start := Json.skipWhitespace text
      let (v, rest) ← scanOnce (2 * start.length + 2) start
      if Json.skipWhitespace rest = [] then .ok v else .error invalid

end Value

end

end IntegrityGuardian.Python
