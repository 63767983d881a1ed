import IntegrityGuardian.Python.Json

/-!
# `str.splitlines`

Python breaks lines at more characters than the line feed.  What a reader makes of the
lines that are not empty is what it makes of the lines between line feeds, each broken up
further.
-/

namespace IntegrityGuardian.Python

open Json (ch)

/-- The characters `str.splitlines` breaks at. -/
def isLineBreak (c : CodePoint) : Bool :=
  (10 ≤ c.val && c.val ≤ 13) || (28 ≤ c.val && c.val ≤ 30) || c.val == 0x85 || c.val == 0x2028
    || c.val == 0x2029

/-- The lines that are not empty. -/
def nonempty (lines : List Str) : List Str := lines.filter fun line => !line.isEmpty

/-- The pieces `splitlines` makes of one line. -/
def pieces (line : Str) : List Str := nonempty (line.splitOnP isLineBreak)

end IntegrityGuardian.Python
