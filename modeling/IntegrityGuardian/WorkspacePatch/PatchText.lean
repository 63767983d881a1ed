import IntegrityGuardian.Python.SplitLines
import IntegrityGuardian.Python.StrictJson

/-!
# The scanner of workspace patches

`_patch_paths` of `workspace_patch_adapter.py`: one pass over the lines of a payload that
collects the path of every `diff --git` line and checks one pair of markers after it.
-/

namespace IntegrityGuardian.WorkspacePatch

open Python Library
open Json (ch)

inductive Error where
  | workspacePatchError (message : Str)
  deriving DecidableEq

def rejected (message : String) : Error := .workspacePatchError (str message)

/-! ## Paths -/

/-- `[A-Za-z0-9]`. -/
def isAlphanumeric (c : CodePoint) : Bool :=
  (65 ≤ c.val && c.val ≤ 90) || (97 ≤ c.val && c.val ≤ 122) || Json.isDigit c

/-- The characters of a safe path. -/
def isPathChar (c : CodePoint) : Bool :=
  isAlphanumeric c || c == ch '.' || c == ch '_' || c == ch '/' || c == ch '-'

/-- `_SAFE_PATH`. -/
def isSafePath : Str → Bool
  | [] => false
  | c :: rest => isAlphanumeric c && rest.length ≤ 239 && rest.all isPathChar

/-- The parts of a `PurePosixPath` that is not absolute. -/
def pathParts (value : Str) : List Str :=
  (value.splitOnP fun c => c == ch '/').filter fun part => part != [] && part != str "."

/-- `_normalize_path`; a safe path has a part, so `path.parts[0]` is there. -/
def normalizePath (value : Str) : Except Error Str := do
  ensure (isSafePath value = true ∧ ch '\\' ∉ value) (rejected "workspace patch path rejected")
  ensure (value.head? ≠ some (ch '/') ∧
      ∀ part ∈ pathParts value, part ∉ ["", ".", ".."].map str)
    (rejected "workspace patch path rejected")
  ensure ((pathParts value).head? ≠ some (str ".git"))
    (rejected "workspace patch Git metadata path rejected")
  .ok ([ch '/'].intercalate (pathParts value))

/-! ## Lines -/

/-- `line.startswith(prefix)` for the texts of the source. -/
def startsWith (lead : String) (line : Str) : Bool := (str lead).isPrefixOf line

/-- The text after a prefix. -/
def afterPrefix (lead : String) (line : Str) : Option Str :=
  if startsWith lead line then some (line.drop (str lead).length) else none

/-- The groups of `_DIFF_HEADER.fullmatch(line)`; a safe path has no blank. -/
def diffHeader (line : Str) : Option (Str × Str) := do
  let rest ← afterPrefix "diff --git a/" line
  let second ← afterPrefix " b/" (rest.dropWhile fun c => c != ch ' ')
  let first := rest.takeWhile fun c => c != ch ' '
  if isSafePath first && isSafePath second then some (first, second) else none

/-- `_FORBIDDEN_PATCH_PREFIXES`. -/
def forbiddenPatchPrefixes : List String :=
  ["GIT binary patch", "Binary files ", "new file mode ", "deleted file mode ", "old mode ",
    "new mode ", "rename from ", "rename to ", "copy from ", "copy to "]

/-! ## The scan -/

/-- The variables of the loop. -/
structure Scan where
  paths : List Str
  currentPath : Option Str
  oldMarkerSeen : Bool
  newMarkerSeen : Bool
  deriving DecidableEq

def Scan.start : Scan := ⟨[], none, false, false⟩

/-- The markers of the current file were seen. -/
def Scan.isSettled (s : Scan) : Bool :=
  s.currentPath.isNone || (s.oldMarkerSeen && s.newMarkerSeen)

/-- A `diff --git` line. -/
def Scan.header (s : Scan) (line : Str) : Except Error Scan := do
  ensure (s.isSettled = true) (rejected "workspace patch file markers rejected")
  match diffHeader line with
  | none => .error (rejected "workspace patch diff header rejected")
  | some (first, second) =>
    ensure (first = second) (rejected "workspace patch diff header rejected")
    let path ← normalizePath first
    .ok ⟨s.paths ++ [path], some path, false, false⟩

/-- The body of the loop. -/
def Scan.line (s : Scan) (line : Str) : Except Error Scan :=
  if forbiddenPatchPrefixes.any fun lead => startsWith lead line then
    .error (rejected "workspace patch unsupported transition rejected")
  else if startsWith "--- /dev/null" line || startsWith "+++ /dev/null" line then
    .error (rejected "workspace patch create/delete rejected")
  else if startsWith "diff --git " line then s.header line
  else
    match s.currentPath with
    | none => .ok s
    | some path =>
      if !s.oldMarkerSeen && startsWith "--- " line then do
        ensure (line = str "--- a/" ++ path)
          (rejected "workspace patch old path marker rejected")
        .ok { s with oldMarkerSeen := true }
      else if s.oldMarkerSeen && !s.newMarkerSeen && startsWith "+++ " line then do
        ensure (line = str "+++ b/" ++ path)
          (rejected "workspace patch new path marker rejected")
        .ok { s with newMarkerSeen := true }
      else .ok s

/-- The loop. -/
def scanLines : Scan → List Str → Except Error Scan
  | s, [] => .ok s
  | s, line :: lines => do
    let s ← s.line line
    scanLines s lines

/-- A section of a patch: the lines before it, those that open it, those after these, and
its paths. -/
structure FileSection where
  before : List Str
  opening : List Str
  after : List Str
  old : Str
  new : Str

/-- The lines by which a section creates, deletes, renames or copies a file or changes its
mode. -/
def transitionPrefixes : List String :=
  ["new file mode ", "deleted file mode ", "old mode ", "new mode ", "rename from ",
    "rename to ", "copy from ", "copy to ", "--- /dev/null", "+++ /dev/null"]

/-- The lines of a section before its hunks. -/
def FileSection.head (s : FileSection) : List Str :=
  s.opening ++ s.after.takeWhile fun line =>
    !startsWith "@@ -" line && !startsWith "diff --git " line

end IntegrityGuardian.WorkspacePatch
