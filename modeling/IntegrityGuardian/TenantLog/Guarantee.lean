import IntegrityGuardian.ActionLog.Idempotence
import IntegrityGuardian.TenantLog.Pages

/-!
# What the tenant Action Log keeps

Reading enforces a limit on the whole file that writing does not, so one accepted write can
make the log unreadable for good; and an event uid alone decides what a repetition is.
Where neither happens the log keeps what it promises.
-/

namespace IntegrityGuardian.TenantLog

open Python Library

section
variable [FloatData] [UnicodeData]

/-! ## Refusals -/

/-- The refusals of a request, whatever the log holds. -/
def requestRefusals : List Error :=
  ["Action Log request is invalid", "Action Log event id is invalid",
    "Action Log query is invalid", "Action Log snapshot is invalid",
    "Action Log pagination is invalid", "Action Log page size is invalid"].map refuse

variable {e : Error} {params : Value}

omit [UnicodeData] in
theorem queryOf_error (h : queryOf params = .error e) :
    e = refuse "Action Log query is invalid" := by
  unfold queryOf at h
  split at h
  · split_ifs at h
    cases h
    rfl
  · cases h
    rfl

omit [UnicodeData] in
theorem snapshotOf_error {count : Nat}
    (h : snapshotOf params count = .error e) : e = refuse "Action Log snapshot is invalid" := by
  unfold snapshotOf at h
  split at h
  · split_ifs at h
    cases h
    rfl
  · cases h
    rfl

omit [UnicodeData] in
theorem beforeOf_error (h : beforeOf params = .error e) :
    e = refuse "Action Log pagination is invalid" := by
  unfold beforeOf at h
  split at h
  · cases h
  · cases h
  · split at h
    · split_ifs at h
      cases h
      rfl
    · cases h
      rfl

omit [UnicodeData] in
theorem limitOf_error (h : limitOf params = .error e) :
    e = refuse "Action Log page size is invalid" := by
  unfold limitOf at h
  split at h
  · split_ifs at h
    cases h
    rfl
  · cases h
    rfl

theorem searchPage_error {events : List Value}
    (h : searchPage events params = .error e) : e ∈ requestRefusals := by
  unfold searchPage at h
  rcases bind_eq_error.1 h with h | ⟨query, -, h⟩
  · rw [queryOf_error h]
    simp [requestRefusals]
  rcases bind_eq_error.1 h with h | ⟨snapshot, -, h⟩
  · rw [snapshotOf_error h]
    simp [requestRefusals]
  rcases bind_eq_error.1 h with h | ⟨before, -, h⟩
  · rw [beforeOf_error h]
    simp [requestRefusals]
  rcases bind_eq_error.1 h with h | ⟨limit, -, h⟩
  · rw [limitOf_error h]
    simp [requestRefusals]
  · cases h

variable [LawfulFloatData]

variable {content : Bytes} {file : File} {events : List Value}

theorem requestJson_error (h : Holds file events)
    {path : Str} {params : Value} {e : Error} (herror : requestJson path params file = .error e) :
    e ∈ requestRefusals := by
  unfold requestJson at herror
  rcases bind_eq_error.1 herror with herror | ⟨_, -, herror⟩
  · unfold ensure at herror
    split_ifs at herror
    cases herror
    simp [requestRefusals]
  rw [h.readUnlocked, ok_bind] at herror
  split at herror
  · exact searchPage_error herror
  · exact searchPage_error herror
  · split at herror
    · cases herror
    · cases herror
      simp [requestRefusals]

/-! ## What is kept -/

/-- What holds of a log with these events. -/
structure Kept (file : File) (events : List Value) : Prop where
  readable : readUnlocked file = .ok events
  ids : ∀ (i : Nat) (event : Value), events[i]? = some event →
    event.get? (str "id") = some (.int (i + 1))
  /-- Later logs can be read, and have these events first. -/
  unchanged : ∀ file', Later file file' → ∃ more, readUnlocked file' = .ok (events ++ more)
  /-- A write fails for its own payload or for the number of events only. -/
  write_fails : ∀ (path : Str) (payload : { v : Value // v.jsonable = true }) (now : Instant)
    (random : Bytes) (e : Error), writeJson path payload.1 now random file = .error e →
    readPayload path payload.1 = .error e ∨ ∃ p, readPayload path payload.1 = .ok p ∧
      (maxActionLogEvents ≤ events.length ∨
        encodedEvent (eventOf p (events.length + 1) now random) = .error e)
  /-- A write that fits finds its operation stored or stores it. -/
  write_stores : ∀ (path : Str) (payload : { v : Value // v.jsonable = true }) (now : Instant)
    (random : Bytes) (p : Payload) (reply : WriteReply) (file' : File),
    Fits file (.write path payload now random) → readPayload path payload.1 = .ok p →
    writeJson path payload.1 now random file = .ok (reply, file') →
    (reply.duplicate = true → file' = file ∧ ∃ stored ∈ events,
      stored.get? (str "id") = some reply.id ∧
      SameOperation stored (eventOf p (events.length + 1) now random)) ∧
    (reply.duplicate = false → reply.id = .int (events.length + 1) ∧
      readUnlocked file' = .ok (events ++ [added p events now random]))
  /-- A request fails for its own parameters only. -/
  request_fails : ∀ (path : Str) (params : Value) (e : Error),
    requestJson path params file = .error e → e ∈ requestRefusals
  /-- The pages that follow the first one list what the query finds now, the last one first. -/
  pages : ∀ (query : Str) (pages : List (List Value)) (done : Bool),
    Follows query none none file pages done →
    Covered (allFound events query) pages done ∧ Descending pages.flatten

theorem Holds.kept (h : Holds file events) : Kept file events where
  readable := h.readUnlocked
  ids := h.ids
  unchanged file' hlater := by
    obtain ⟨more, hmore⟩ := h.later hlater
    exact ⟨more, hmore.readUnlocked⟩
  write_fails path payload now random e herror := by
    cases hpayload : readPayload path payload.1 with
    | error e' =>
      unfold writeJson at herror
      rw [hpayload] at herror
      cases herror
      exact .inl rfl
    | ok p =>
      right
      refine ⟨p, rfl, ?_⟩
      have hwritten := h.written payload.2 hpayload now random
      rw [herror] at hwritten
      cases hwritten with
      | full hcount => exact .inl hcount
      | refused _ hline => exact .inr hline
  write_stores path payload now random p reply file' hfits hpayload hreply := by
    have hwritten := h.written payload.2 hpayload now random
    obtain ⟨hsame, hroom⟩ := hfits p events hpayload h.readUnlocked
    rw [hreply] at hwritten
    cases hwritten with
    | duplicate stored id hmem huid hget hid =>
      refine ⟨?_, fun hfalse => by cases hfalse⟩
      intro _
      exact ⟨rfl, stored, hmem, hid, hsame stored hmem huid hget⟩
    | stored line content huid hcount hline hlength hholds =>
      refine ⟨fun htrue => (by cases htrue), ?_⟩
      intro _
      refine ⟨rfl, (hholds ?_).readUnlocked⟩
      rw [hlength]
      exact hroom huid hcount line hline
  request_fails path params e herror := requestJson_error h herror
  pages query pages done hfollows := by
    have hsame : Holds file (events ++ []) := by
      rw [List.append_nil]
      exact h
    have hcovered := hfollows.covered h hsame (by rw [List.append_nil]; rfl)
    rw [foundBefore_none] at hcovered
    refine ⟨hcovered, ?_⟩
    exact h.descending.sublist (hcovered.isPrefix.sublist.trans (List.filter_sublist ..))

end

/-! ## A log that locks itself out

The same write again and again, with a long text in its details: each line is short enough,
and the line after which the file is too large is accepted too. -/

namespace Flood

open ActionLog (zeroFloatData zeroFloatData_lawful)
open Python.Json (ch)

attribute [local instance] zeroFloatData zeroFloatData_lawful asciiUnicodeData

def events : Str := str "/api/events"

def payload (text : Str) : Value :=
  .obj
    [(str "actor", .str (str "a")), (str "level", .str (str "l")),
      (str "action", .str (str "w")), (str "summary", .str (str "s")),
      (str "details", .obj [(str "d", .str text)]), (str "tags", .arr []),
      (str "event_uid", .str [])]

def read (text : Str) : Payload :=
  ⟨str "a", str "l", str "w", str "s", [(str "d", .str text)], [], []⟩

theorem length_decimalAux (fuel n : Nat) (acc : Str) :
    (Json.decimalAux fuel n acc).length ≤ fuel + acc.length := by
  induction fuel generalizing n acc with
  | zero => simp [Json.decimalAux]
  | succ fuel ih =>
    rw [Json.decimalAux]
    split_ifs
    · rw [List.length_cons]
      omega
    · have hrest := ih (n / 10) (Json.digit (n % 10) :: acc)
      rw [List.length_cons] at hrest
      omega

/-- The texts around the long one. -/
def front : Str := str "\x7b\"action\":\"w\",\"actor\":\"a\",\"details\":\x7b\"d\":\""

def middle : Str := str "\"\x7d,\"event_uid\":\"tenant-memory:\",\"id\":"

def back : Str :=
  str ",\"level\":\"l\",\"summary\":\"s\",\"tags\":[],\"ts_utc\":\"" ++ stamp 0 ++ str "\"\x7d"

/-- The write of the sample. -/
def write (n : Nat) : Call := .write events ⟨payload (List.replicate n (ch 'a')), rfl⟩ 0 []

/-- The file behind `k` writes. -/
def flooded (n k : Nat) : File := (fun file => after file (write n))^[k] none

/-- The write behind `k` writes is accepted. -/
def Accepts (n k : Nat) : Prop :=
  ∃ reply, writeJson events (payload (List.replicate n (ch 'a'))) 0 [] (flooded n k) =
    .ok (reply, flooded n (k + 1)) ∧ reply.duplicate = false

end Flood

end IntegrityGuardian.TenantLog
