import IntegrityGuardian.Python.ValueText

/-!
# Redaction

`redact_text` and `redact_value` of `codex_action_log.py`.  The two regular
expressions are matched by hand: after a sensitive word only one way of reading
the rest is possible, so no backtracking is needed beyond trying every word.
-/

namespace IntegrityGuardian.ActionLog

open Python
open Json (ch)

/-- Membership in the class `\w` of the Unicode database. -/
class WordData where
  isWord : CodePoint → Bool
  isWord_ascii : ∀ c : CodePoint, c.val < 128 →
    isWord c = ((48 ≤ c.val && c.val ≤ 57) || (65 ≤ c.val && c.val ≤ 90) || c.val == 95
      || (97 ≤ c.val && c.val ≤ 122))

/-- One item of a sensitive word. -/
inductive Item where
  | letter (c : Char)
  /-- `[_-]?` -/
  | dash

/-- The letter in either case; `re.IGNORECASE` also takes the dotless and dotted i, the long s
and the Kelvin sign. -/
def matchesLetter (letter : Char) (c : CodePoint) : Bool :=
  c.val == letter.toNat || c.val + 32 == letter.toNat
    || (letter == 'i' && (c.val == 0x130 || c.val == 0x131))
    || (letter == 's' && c.val == 0x17f)
    || (letter == 'k' && c.val == 0x212a)

/-- The text an item sequence matches, and what follows. -/
def matchItems : List Item → Str → Option (Str × Str)
  | [], s => some ([], s)
  | .letter _ :: _, [] => none
  | .letter l :: items, c :: s =>
    if matchesLetter l c then (matchItems items s).map fun m => (c :: m.1, m.2) else none
  | .dash :: items, [] => matchItems items []
  | .dash :: items, c :: s =>
    if c = ch '_' ∨ c = ch '-' then (matchItems items s).map fun m => (c :: m.1, m.2)
    else matchItems items (c :: s)

def letters (word : String) : List Item := word.toList.map .letter

/-- The alternatives of both expressions. -/
def sensitiveWords : List (List Item) :=
  [letters "password", letters "passwd", letters "passphrase", letters "secret", letters "token",
    letters "api" ++ .dash :: letters "key", letters "authorization", letters "cookie",
    letters "credential", letters "session"]

/-- `SENSITIVE_KEY_RE.search`. -/
def isSensitiveKey : Str → Bool
  | [] => false
  | c :: s => (sensitiveWords.any fun word => (matchItems word (c :: s)).isSome) || isSensitiveKey s

/-- A match of `SENSITIVE_PAIR_RE`: its three groups and the rest of the text. -/
structure Pair where
  word : Str
  separator : Str
  value : Str
  rest : Str

/-- The two groups after the word. -/
def matchSeparator (word s : Str) : Option Pair :=
  let before := s.takeWhile CodePoint.isspace
  match s.dropWhile CodePoint.isspace with
  | [] => none
  | c :: s =>
    if c = ch ':' ∨ c = ch '=' then
      let after := s.takeWhile CodePoint.isspace
      let s := s.dropWhile CodePoint.isspace
      let inside := fun d : CodePoint => !(d.isspace || d == ch ',' || d == ch ';')
      if s.takeWhile inside = [] then none
      else some ⟨word, before ++ c :: after, s.takeWhile inside, s.dropWhile inside⟩
    else none

/-- The match that starts here. -/
def matchPair (s : Str) : Option Pair :=
  sensitiveWords.findSome? fun word => (matchItems word s).bind fun m => matchSeparator m.1 m.2

section
variable [WordData]

/-- The substitution from a position on; `before` tells whether a word character stands before
it.  The length of the text is fuel enough. -/
def redactFrom : Nat → Bool → Str → Str
  | 0, _, s => s
  | _ + 1, _, [] => []
  | fuel + 1, before, c :: s =>
    match if before != WordData.isWord c then matchPair (c :: s) else none with
    | some pair => pair.word ++ pair.separator ++ str "[REDACTED]" ++
        redactFrom fuel (pair.value.getLast?.any WordData.isWord) pair.rest
    | none => c :: redactFrom fuel (WordData.isWord c) s

/-- `redact_text`. -/
def redactText (value : Str) : Str := redactFrom (value.length + 1) false value

variable [FloatData]

mutual
/-- `redact_value`. -/
def redactValue (keyHint : Str) : Value → Value
  | .obj members =>
    if isSensitiveKey keyHint then .str (str "[REDACTED]") else .obj (redactMembers members)
  | .arr items =>
    if isSensitiveKey keyHint then .str (str "[REDACTED]") else .arr (redactItems keyHint items)
  | .str s => if isSensitiveKey keyHint then .str (str "[REDACTED]") else .str (redactText s)
  | v => if isSensitiveKey keyHint then .str (str "[REDACTED]") else v

def redactItems (keyHint : Str) : List Value → List Value
  | [] => []
  | v :: vs => redactValue keyHint v :: redactItems keyHint vs

def redactMembers : List (Str × Value) → List (Str × Value)
  | [] => []
  | (k, v) :: ms => (k, redactValue k v) :: redactMembers ms
end

theorem map_fst_redactMembers (ms : List (Str × Value)) :
    (redactMembers ms).map Prod.fst = ms.map Prod.fst := by
  induction ms with
  | nil => rfl
  | cons m ms ih =>
    obtain ⟨k, v⟩ := m
    rw [redactMembers, List.map_cons, List.map_cons, ih]

mutual
theorem plain_redactValue : ∀ (keyHint : Str) {v : Value}, v.plain = true →
    (redactValue keyHint v).plain = true
  | keyHint, .null, h | keyHint, .bool _, h | keyHint, .int _, h | keyHint, .float _, h => by
    unfold redactValue
    split_ifs
    · rfl
    · exact h
  | keyHint, .str s, h => by
    unfold redactValue
    split_ifs
    · rfl
    · rfl
  | _, .foreign _ _, h => by cases h
  | keyHint, .arr items, h => by
    unfold redactValue
    split_ifs
    · rfl
    · rw [Value.plain] at h ⊢
      exact plain_redactItems keyHint h
  | keyHint, .obj members, h => by
    unfold redactValue
    split_ifs
    · rfl
    · rw [Value.plain, Bool.and_eq_true, decide_eq_true_eq] at h ⊢
      rw [map_fst_redactMembers]
      exact ⟨h.1, plain_redactMembers h.2⟩

theorem plain_redactItems : ∀ (keyHint : Str) {vs : List Value}, Value.plainItems vs = true →
    Value.plainItems (redactItems keyHint vs) = true
  | _, [], _ => rfl
  | keyHint, v :: vs, h => by
    rw [Value.plainItems, Bool.and_eq_true] at h
    rw [redactItems, Value.plainItems, Bool.and_eq_true]
    exact ⟨plain_redactValue keyHint h.1, plain_redactItems keyHint h.2⟩

theorem plain_redactMembers : ∀ {ms : List (Str × Value)}, Value.plainMembers ms = true →
    Value.plainMembers (redactMembers ms) = true
  | [], _ => rfl
  | (k, v) :: ms, h => by
    rw [Value.plainMembers, Bool.and_eq_true] at h
    rw [redactMembers, Value.plainMembers, Bool.and_eq_true]
    exact ⟨plain_redactValue k h.1, plain_redactMembers h.2⟩
end

end

end IntegrityGuardian.ActionLog
