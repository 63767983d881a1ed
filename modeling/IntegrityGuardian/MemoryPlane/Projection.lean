import IntegrityGuardian.Canonical

/-!
# Searchable parts of an event

The parts of `p2_projection.py` that the compact index shares with the other
projections: the tokens of a text, the text of an event and the nodes of the
event graph it touches.
-/

namespace IntegrityGuardian.MemoryPlane

open Python

/-- One character of `TOKEN_RE`. -/
def isTokenChar (c : CodePoint) : Bool :=
  (48 ≤ c.val && c.val ≤ 57) || (65 ≤ c.val && c.val ≤ 90) || (97 ≤ c.val && c.val ≤ 122)
    || (0x410 ≤ c.val && c.val ≤ 0x44f) || c.val == 0x401 || c.val == 0x451
    || (str "_./:-").contains c

section
variable [UnicodeData]

/-- `value.casefold()`. -/
def casefold (s : Str) : Str := s.flatMap UnicodeData.casefold

/-- `tokens`: the longest runs of token characters of two characters or more. -/
def tokens (text : Str) : List Str :=
  ((text.splitOnP fun c => !isTokenChar c).filter fun run => 2 ≤ run.length).map casefold

/-! ## Values as text -/

/-- `bool(value)`. -/
def truthy : Json → Bool
  | .null => false
  | .bool b => b
  | .int n => n != 0
  | .str s => s != []
  | .arr items => !items.isEmpty
  | .obj members => !members.isEmpty

mutual

/-- `repr(value)`. -/
def repr : Json → Str
  | .null => str "None"
  | .bool true => str "True"
  | .bool false => str "False"
  | .int n => Json.renderInt n
  | .str s => s.repr
  | .arr items => Json.ch '[' :: (str ", ").intercalate (reprItems items) ++ [Json.ch ']']
  | .obj members =>
    Json.ch '\x7b' :: (str ", ").intercalate (reprMembers members) ++ [Json.ch '\x7d']

def reprItems : List Json → List Str
  | [] => []
  | item :: items => repr item :: reprItems items

def reprMembers : List (Str × Json) → List Str
  | [] => []
  | (key, value) :: members => (key.repr ++ str ": " ++ repr value) :: reprMembers members

end

/-- `str(value)`. -/
def text : Json → Str
  | .str s => s
  | value => repr value

/-- `object_text`; the canonical text of a container fails where UTF-8 refuses it. -/
def objectText : Json → Except Exc Str
  | value@(.arr _) | value@(.obj _) =>
    match encodeUtf8 value.dumps with
    | some _ => .ok value.dumps
    | none => .error .unicodeEncodeError
  | value => .ok (if truthy value then text value else [])

/-! ## Events -/

/-- The event inside an envelope. -/
abbrev Event := List (Str × Json)

/-- `event.get(key)`. -/
def Event.get (event : Event) (key : String) : Json := (event.lookup (str key)).getD .null

/-- `event_body`. -/
def eventBody (event : Event) : Except Exc Str := do
  let parts ← ["summary", "details", "tags", "actor", "action", "session_id", "task_id"].mapM
    fun key => objectText (event.get key)
  .ok ((str "\n").intercalate parts)

/-- `[value]` unless `value` is a list. -/
def listed : Json → List Json
  | .arr items => items
  | value => [value]

/-- `first or second`. -/
def either (first second : Json) : Json := if truthy first then first else second

/-- `details`, when it is a dictionary. -/
def Event.details (event : Event) : Event :=
  match event.get "details" with
  | .obj members => members
  | _ => []

/-- The nodes of one field that may hold a list. -/
def listedNodes (kind : String) (values : Json) : List (Str × Str) :=
  if truthy values then
    ((listed values).filter fun value => (text value).strip != []).map fun value =>
      (str kind, text value)
  else []

/-- The node of one field that holds a single value. -/
def singleNode (kind : String) (value : Json) : List (Str × Str) :=
  if truthy value then [(str kind, text value)] else []

/-- `event_nodes`, without the relation each node is yielded with. -/
def eventNodes (event : Event) : List (Str × Str) :=
  ["actor", "action"].flatMap (fun key => singleNode key (event.get key))
    ++ listedNodes "tag" (event.get "tags")
    ++ ["task_id", "goal_id", "roadmap_item_id", "parent_task_id"].flatMap (fun key =>
      singleNode key (either (event.get key) (event.details.get key)))
    ++ ["subsystem", "touched_hosts", "related_task_ids", "depends_on_task_ids"].flatMap fun key =>
      listedNodes key (either (event.get key) (event.details.get key))

end

end IntegrityGuardian.MemoryPlane
