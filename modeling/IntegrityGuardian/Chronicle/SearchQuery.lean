import IntegrityGuardian.Python.Json
import Mathlib.Data.List.SplitBy

/-!
# Queries of the search

`_query_terms`, `_build_fts_query` and `_term_score` of `search.py` and `search_index.py`,
with what they use of `unicodedata`, `re` and `shlex`.
-/

namespace IntegrityGuardian.Chronicle

open Python
open Json (ch)

/-- The data of `unicodedata`, and the classes of `str.isalnum` and `\w`. -/
class TextData where
  nfkc : Str → Str
  nfd : Str → Str
  isMn : CodePoint → Bool
  isalnum : CodePoint → Bool
  isWord : CodePoint → Bool

/-! ## `shlex.split` -/

/-- The state of the lexer, between characters. -/
inductive LexState where
  | blank
  | word
  | quote (mark : CodePoint)
  /-- Behind a backslash, and the quote it stands in. -/
  | escape (mark : Option CodePoint)

structure Lexer where
  state : LexState
  token : Str
  quoted : Bool
  tokens : List Str

def isShellSpace (c : CodePoint) : Bool := [ch ' ', ch '\t', ch '\r', ch '\n'].contains c

def isQuote (c : CodePoint) : Bool := c == ch (Char.ofNat 39) || c == ch '"'

/-- The token that was read; an empty one counts when it was quoted. -/
def Lexer.emit (lexer : Lexer) : Lexer :=
  if lexer.token = [] ∧ lexer.quoted = false then { lexer with state := .blank }
  else ⟨.blank, [], false, lexer.tokens ++ [lexer.token]⟩

/-- One character of `read_token`, with `posix` and `whitespace_split`. -/
def Lexer.next (lexer : Lexer) (c : CodePoint) : Lexer :=
  match lexer.state with
  | .blank | .word =>
    if isShellSpace c then lexer.emit
    else if c = ch '\\' then { lexer with state := .escape none }
    else if isQuote c then { lexer with state := .quote c }
    else { lexer with state := .word, token := lexer.token ++ [c] }
  | .quote mark =>
    if c = mark then { lexer with state := .word, quoted := true }
    else if c = ch '\\' ∧ mark = ch '"' then
      { lexer with state := .escape (some mark), quoted := true }
    else { lexer with token := lexer.token ++ [c], quoted := true }
  | .escape none => { lexer with state := .word, token := lexer.token ++ [c] }
  | .escape (some mark) =>
    let token := if c ≠ ch '\\' ∧ c ≠ mark then lexer.token ++ [ch '\\'] else lexer.token
    { lexer with state := .quote mark, token := token ++ [c] }

/-- `shlex.split`; none where it raises `ValueError`. -/
def shlexSplit (text : Str) : Option (List Str) :=
  let lexer := text.foldl Lexer.next ⟨.blank, [], false, []⟩
  match lexer.state with
  | .blank | .word => some lexer.emit.tokens
  | _ => none

/-! ## Texts -/

/-- `str.split`. -/
def splitWords (text : Str) : List Str :=
  (text.splitBy fun a b => a.isspace == b.isspace).filter fun part => !part.any CodePoint.isspace

/-- The number of times a text that is not empty occurs, as `str.count` counts. -/
def countFrom (part : Str) : Nat → Str → Nat
  | _, [] => 0
  | skip + 1, _ :: text => countFrom part skip text
  | 0, c :: text =>
    if part.isPrefixOf (c :: text) then countFrom part (part.length - 1) text + 1
    else countFrom part 0 text

section
variable [UnicodeData] [TextData]

/-- `_normalize_text` of a `str`. -/
def normalizeText (value : Str) : Str :=
  let normalized := (TextData.nfkc value).flatMap UnicodeData.casefold
  let decomposed := (TextData.nfd normalized).filter fun c => !TextData.isMn c
  [ch ' '].intercalate (splitWords (Str.strip decomposed))

/-- `_tokenize_text`. -/
def tokenizeText (value : Str) : List Str :=
  let parts := (normalizeText value).splitBy fun a b => TextData.isWord a == TextData.isWord b
  parts.filter fun part => part.all TextData.isWord

/-! ## Terms -/

inductive TermKind where
  | phrase
  | prefixed
  | term
  deriving DecidableEq

structure SearchTerm where
  value : Str
  kind : TermKind
  deriving DecidableEq

/-- The loop of `_query_terms`. -/
def searchTerm (rawTerm : Str) : Option SearchTerm :=
  let normalized := normalizeText rawTerm
  if normalized = [] then none
  else if ch ' ' ∈ rawTerm then some ⟨normalized, .phrase⟩
  else if normalized.getLast? = some (ch '*') ∧ 1 < normalized.length then
    some ⟨normalized.dropLast, .prefixed⟩
  else some ⟨normalized, .term⟩

/-- `_query_terms`. -/
def queryTerms (query : Option Str) : List SearchTerm :=
  match query with
  | none | some [] => []
  | some text => ((shlexSplit text).getD (splitWords (normalizeText text))).filterMap searchTerm

/-- `_escape_fts_token`. -/
def escapeFtsToken (value : Str) : Str :=
  let escaped := value.flatMap fun c => if c = ch '"' then [ch '"', ch '"'] else [c]
  escaped.filter fun c => TextData.isalnum c || [ch '_', ch '-', ch '*', ch '?'].contains c

/-- One term in an FTS expression. -/
def ftsExpression (term : SearchTerm) : Option Str :=
  match term.kind with
  | .phrase =>
    if term.value = [] then none
    else some (ch '"' :: (term.value.flatMap fun c => if c = ch '"' then [ch '"', ch '"'] else [c])
      ++ [ch '"'])
  | .prefixed => some (escapeFtsToken term.value ++ [ch '*'])
  | .term => some (escapeFtsToken term.value)

/-- `_build_fts_query`. -/
def buildFtsQuery (terms : List SearchTerm) : Option Str :=
  match terms.filterMap ftsExpression with
  | [] => none
  | expressions => some ((str " AND ").intercalate expressions)

/-- What a term adds to the score. -/
def termPoints (normalizedText : Str) (tokens : List Str) (term : SearchTerm) : Nat :=
  match term.kind with
  | .phrase => if term.value = [] then 0 else countFrom term.value 0 normalizedText * 8
  | .prefixed => tokens.countP term.value.isPrefixOf
  | .term => tokens.count term.value

/-- `_term_score`. -/
def termScore (normalizedText : Str) (tokens : List Str) (terms : List SearchTerm) : Nat :=
  match terms with
  | [] => 1
  | terms => (terms.map (termPoints normalizedText tokens)).sum

end

end IntegrityGuardian.Chronicle
