import IntegrityGuardian.Python.JsonFields
import IntegrityGuardian.TenantLog.Store

/-!
# Runs of the tenant Action Log

A file is what its events are encoded to, line by line, as long as it stays within what a
reader accepts.
-/

namespace IntegrityGuardian.TenantLog

open Python Library
open Python.Json (ch)

section
variable [FloatData]

/-! ## Encoded events -/

theorem encodedEvent_eq_ok {event : Value} {line : Bytes} (h : encodedEvent event = .ok line) :
    ∃ text, event.dumps = .ok text ∧ encodeUtf8 (text ++ [ch '\n']) = some line ∧
      line.length ≤ maxEventLineBytes := by
  unfold encodedEvent at h
  cases hdumps : event.dumps with
  | error e =>
    rw [hdumps] at h
    cases e <;> cases h
  | ok text =>
    simp only [hdumps] at h
    cases hencode : encodeUtf8 (text ++ [ch '\n']) with
    | none =>
      simp only [hencode] at h
      cases h
    | some encoded =>
      simp only [hencode] at h
      split_ifs at h with hlength
      cases h
      exact ⟨text, rfl, hencode, hlength⟩

theorem encodedEvent_sortKeys (event : Value) : encodedEvent event.sortKeys = encodedEvent event := by
  unfold encodedEvent
  rw [Value.dumps, Value.sortKeys_sortKeys, ← Value.dumps]

/-- The event `read` gives back: its keys are in order. -/
structure Stored (event : Value) : Prop where
  isObj : ∃ members, event = .obj members
  jsonable : event.jsonable = true
  sorted : event.sortKeys = event

theorem stored_sortKeys {members : List (Str × Value)} (h : (Value.obj members).jsonable = true) :
    Stored (Value.obj members).sortKeys where
  isObj := ⟨_, by rw [Value.sortKeys]⟩
  jsonable := Value.jsonable_sortKeys h
  sorted := Value.sortKeys_sortKeys _

variable [LawfulFloatData] [UnicodeData]

variable {line : Bytes} {file : File} {events : List Value} {p : Payload} {eventUid path : Str}
  {payload : Value}

theorem readLine_encoded {event : Value} (hstored : Stored event)
    (hline : encodedEvent event = .ok line) {before : List Value}
    (hid : event.get? (str "id") = some (.int (before.length + 1)))
    (hcount : before.length < maxActionLogEvents) : IsLine (10 : UInt8) line ∧
      readLine (before, before.length) line = .ok (before ++ [event], before.length + 1) := by
  obtain ⟨text, hdumps, hencode, hlength⟩ := encodedEvent_eq_ok hline
  obtain ⟨hisLine, hdecode, hloads⟩ := Value.line_of_dumps hstored.jsonable hdumps hencode
  obtain ⟨members, rfl⟩ := hstored.isObj
  rw [hstored.sorted] at hloads
  refine ⟨hisLine, ?_⟩
  -- an object starts with a brace, so the line is not blank
  have hblank : isBlank line = false := by
    obtain ⟨-, -, rfl⟩ := Value.render_eq_ok (Value.jsonable_sortKeys hstored.jsonable) hdumps
    rw [hstored.sorted] at hencode
    have hbrace : ∃ tail, Value.compact (.obj members) = ch '{' :: tail := by
      cases members with
      | nil => exact ⟨_, by rw [Value.compact, Value.encode]⟩
      | cons m ms => exact ⟨_, by rw [Value.compact, Value.encode]⟩
    obtain ⟨tail, htail⟩ := hbrace
    unfold encodeUtf8 at hencode
    split_ifs at hencode
    cases hencode
    rw [htail, List.cons_append, List.flatMap_cons]
    rfl
  unfold readLine
  rw [if_neg (Nat.not_lt.2 hlength), hblank]
  simp only [hdecode, hloads, hid, ne_eq]
  simp only [not_true_eq_false, Bool.false_eq_true, if_false]
  rw [if_neg (by omega)]

/-! ## The file and its events -/

omit [LawfulFloatData] [UnicodeData] in
/-- The file holds the encoded events, numbered from one, within what a reader accepts. -/
structure Holds (file : File) (events : List Value) : Prop where
  content : file = none ∧ events = [] ∨ ∃ ls : List Bytes, file = some ls.flatten ∧
    List.Forall₂ (fun event line => encodedEvent event = .ok line) events ls
  stored : ∀ event ∈ events, Stored event
  ids : ∀ (i : Nat) (event : Value), events[i]? = some event →
    event.get? (str "id") = some (.int (i + 1))
  size : (file.getD []).length ≤ maxActionLogBytes
  count : events.length ≤ maxActionLogEvents

omit [LawfulFloatData] [UnicodeData] in
theorem holds_none : Holds none ([] : List Value) where
  content := .inl ⟨rfl, rfl⟩
  stored := by simp
  ids := by simp
  size := by simp
  count := by simp

theorem foldlM_readLine {ls : List Bytes}
    (h : List.Forall₂ (fun event line => encodedEvent event = .ok line) events ls)
    (before : List Value) (hstored : ∀ event ∈ events, Stored event)
    (hids : ∀ (i : Nat) (event : Value), events[i]? = some event →
      event.get? (str "id") = some (.int (before.length + i + 1)))
    (hcount : before.length + events.length ≤ maxActionLogEvents) :
    (∀ line ∈ ls, IsLine (10 : UInt8) line) ∧
      ls.foldlM readLine (before, (before.length : Int)) =
        .ok (before ++ events, ((before ++ events).length : Int)) := by
  induction h generalizing before with
  | nil => exact ⟨by simp, by rw [List.append_nil]; rfl⟩
  | @cons event line events ls hline _ ih =>
    rw [List.forall_mem_cons] at hstored
    rw [List.length_cons] at hcount
    obtain ⟨hisLine, hread⟩ := readLine_encoded hstored.1 hline
      (by simpa using hids 0 event rfl) (by omega)
    obtain ⟨hisLines, hfold⟩ := ih (before ++ [event]) hstored.2
      (by
        intro i e he
        have hid := hids (i + 1) e (by simpa using he)
        rw [hid, List.length_append, List.length_singleton]
        push_cast
        congr 2
        omega)
      (by rw [List.length_append, List.length_singleton]; omega)
    refine ⟨List.forall_mem_cons.2 ⟨hisLine, hisLines⟩, ?_⟩
    rw [List.foldlM_cons, hread]
    rw [List.length_append, List.length_singleton, List.append_assoc] at hfold
    push_cast at hfold
    exact hfold

theorem Holds.readUnlocked (h : Holds file events) : readUnlocked file = .ok events := by
  rcases h.content with ⟨rfl, rfl⟩ | ⟨ls, rfl, hlines⟩
  · rfl
  · obtain ⟨hisLine, hfold⟩ := foldlM_readLine hlines [] h.stored
      (by simpa using h.ids) (by simpa using h.count)
    unfold TenantLog.readUnlocked
    refine ensure_bind_eq_ok.2 ⟨h.size, ?_⟩
    rw [lines_flatten hisLine]
    exact bind_eq_ok.2 ⟨_, hfold, rfl⟩

/-! ## One write -/

omit [LawfulFloatData] [UnicodeData] in
theorem jsonable_of_get? {w : Value} {key : Str} (h : payload.jsonable = true)
    (hget : payload.get? key = some w) : w.jsonable = true := by
  cases payload with
  | obj members =>
    rw [Value.jsonable, Bool.and_eq_true, decide_eq_true_eq, Value.jsonableMembers_iff] at h
    exact h.2 (key, w) ((Json.lookup_eq_some_iff_mem h.1).1 hget)
  | _ => cases hget

omit [LawfulFloatData] [UnicodeData] in
theorem readPayload_details (h : readPayload path payload = .ok p) :
    payload.get? (str "details") = some (.obj p.details) := by
  unfold readPayload at h
  obtain ⟨-, h⟩ := ensure_bind_eq_ok.1 h
  obtain ⟨members, -, h⟩ := bind_eq_ok.1 h
  obtain ⟨-, h⟩ := ensure_bind_eq_ok.1 h
  obtain ⟨actor, -, h⟩ := bind_eq_ok.1 h
  obtain ⟨level, -, h⟩ := bind_eq_ok.1 h
  obtain ⟨action, -, h⟩ := bind_eq_ok.1 h
  obtain ⟨summary, -, h⟩ := bind_eq_ok.1 h
  obtain ⟨details, hdetails, h⟩ := bind_eq_ok.1 h
  obtain ⟨tags, -, h⟩ := bind_eq_ok.1 h
  obtain ⟨eventUid, -, h⟩ := bind_eq_ok.1 h
  cases h
  unfold detailsOf at hdetails
  split at hdetails
  · rename_i found hget
    cases hdetails
    exact hget
  · cases hdetails

omit [LawfulFloatData] [UnicodeData] in
theorem jsonable_eventOf
    (hjson : payload.jsonable = true) (h : readPayload path payload = .ok p) (id : Nat)
    (now : Instant) (random : Bytes) : (eventOf p id now random).jsonable = true := by
  have hdetails := jsonable_of_get? hjson (readPayload_details h)
  have htags : Value.jsonableItems (p.tags.eraseDups.map .str) = true := by
    induction p.tags.eraseDups with
    | nil => rfl
    | cons tag tags ih =>
      rw [List.map_cons, Value.jsonableItems, ih]
      rfl
  unfold eventOf
  rw [Value.jsonable, Bool.and_eq_true, decide_eq_true_eq]
  refine ⟨by simp [str_inj], ?_⟩
  simp only [Value.jsonableMembers, hdetails, Bool.and_true, Bool.and_eq_true]
  simp [Value.jsonable, htags]

/-- The event a write adds, as a reader finds it. -/
def added (p : Payload) (events : List Value) (now : Instant) (random : Bytes) : Value :=
  (eventOf p (events.length + 1) now random).sortKeys

omit [LawfulFloatData] [UnicodeData] in
theorem Holds.write (h : Holds file events) (hjson : payload.jsonable = true)
    (hpayload : readPayload path payload = .ok p) {now : Instant} {random : Bytes}
    (hline : encodedEvent (eventOf p (events.length + 1) now random) = .ok line)
    (hcount : events.length < maxActionLogEvents) :
    ∃ content, replaceUnlocked (events ++ [eventOf p (events.length + 1) now random]) =
        .ok content ∧ content.length = (file.getD []).length + line.length ∧
      (content.length ≤ maxActionLogBytes →
        Holds (some content) (events ++ [added p events now random])) := by
  have hjsonEvent := jsonable_eventOf hjson hpayload (events.length + 1) now random
  have hadded : encodedEvent (added p events now random) = .ok line := by
    rw [added, encodedEvent_sortKeys, hline]
  obtain ⟨ls, hfile, hlines⟩ : ∃ ls : List Bytes, file.getD [] = ls.flatten ∧
      List.Forall₂ (fun event line => encodedEvent event = .ok line) events ls := by
    rcases h.content with ⟨rfl, rfl⟩ | ⟨ls, rfl, hlines⟩
    · exact ⟨[], rfl, .nil⟩
    · exact ⟨ls, rfl, hlines⟩
  refine ⟨(ls ++ [line]).flatten, ?_, ?_, ?_⟩
  · exact bind_eq_ok.2 ⟨ls ++ [line],
      mapM_eq_ok.2 (List.rel_append hlines (.cons hline .nil)), rfl⟩
  · rw [hfile, List.flatten_append, List.length_append]
    simp
  · intro hsize
    refine ⟨.inr ⟨ls ++ [line], rfl, List.rel_append hlines (.cons hadded .nil)⟩, ?_, ?_, hsize, ?_⟩
    · intro event hevent
      rcases List.mem_append.1 hevent with hevent | hevent
      · exact h.stored event hevent
      · rw [List.mem_singleton.1 hevent]
        exact stored_sortKeys hjsonEvent
    · intro i event hevent
      rcases Nat.lt_trichotomy i events.length with hlt | rfl | hgt
      · exact h.ids i event (by rwa [List.getElem?_append_left hlt] at hevent)
      · rw [List.getElem?_concat_length, Option.some.injEq] at hevent
        rw [← hevent, added, Value.get?_sortKeys hjsonEvent]
        rfl
      · rw [List.getElem?_eq_none (by simp; omega)] at hevent
        cases hevent
    · rw [List.length_append, List.length_singleton]
      omega

/-! ## Stored events with an event uid -/

omit [LawfulFloatData] [UnicodeData] in
theorem withUid_eq_some {stored : Value} (h : withUid events eventUid = some stored) :
    stored ∈ events ∧ eventUid ≠ [] ∧
      stored.get? (str "event_uid") = some (.str eventUid) := by
  unfold withUid at h
  split_ifs at h with hempty
  refine ⟨List.mem_of_find?_eq_some h, hempty, ?_⟩
  have hfound := List.find?_some h
  obtain ⟨uid, hget, hsame⟩ := Option.any_eq_true _ _ |>.1 hfound
  rw [hget]
  cases uid with
  | str s => rw [show s = eventUid from beq_iff_eq.1 hsame]
  | _ => cases hsame

omit [LawfulFloatData] [UnicodeData] in
theorem withUid_eq_none (h : withUid events eventUid = none) : eventUid = [] ∨
      ∀ stored ∈ events, stored.get? (str "event_uid") ≠ some (.str eventUid) := by
  unfold withUid at h
  split_ifs at h with hempty
  · exact .inl hempty
  · right
    intro stored hmem hget
    rw [List.find?_eq_none] at h
    apply h stored hmem
    rw [hget]
    exact beq_self_eq_true eventUid

/-! ## Runs -/

/-- One call on the store; a payload is made of what JSON can hold, or `json` refuses it. -/
inductive Call where
  | write (path : Str) (payload : { v : Value // v.jsonable = true }) (now : Instant)
      (random : Bytes)
  | request (path : Str) (params : Value)

omit [LawfulFloatData] in
/-- The file behind a call, which holds the lock while it runs. -/
def after (file : File) : Call → File
  | .write path payload now random =>
    match writeJson path payload.1 now random file with
    | .ok answer => answer.2
    | .error _ => file
  | .request _ _ => file

omit [LawfulFloatData] [UnicodeData] in
/-- The stored event says what the new one would say. -/
def SameOperation (stored event : Value) : Prop :=
  ∀ key ∈ allowedKeys, stored.get? key = (event.get? key).map Value.sortKeys

/-- What a write must meet: its event uid is not taken by another operation, and if it is not
taken at all, the log has room for its line. -/
def Fits (file : File) : Call → Prop
  | .write path payload now random => ∀ p events, readPayload path payload.1 = .ok p →
      readUnlocked file = .ok events →
      (∀ stored ∈ events, p.eventUid ≠ [] →
        stored.get? (str "event_uid") = some (.str p.eventUid) →
        SameOperation stored (eventOf p (events.length + 1) now random)) ∧
      ((p.eventUid = [] ∨
          ∀ stored ∈ events, stored.get? (str "event_uid") ≠ some (.str p.eventUid)) →
        events.length < maxActionLogEvents →
        ∀ line, encodedEvent (eventOf p (events.length + 1) now random) = .ok line →
          (file.getD []).length + line.length ≤ maxActionLogBytes)
  | .request _ _ => True

/-- The files of runs whose calls all fit. -/
inductive Reached : File → Prop
  | start : Reached none
  | step {file : File} {call : Call} (h : Reached file) (hfits : Fits file call) :
      Reached (after file call)

/-- The files further calls that fit lead to. -/
def Later (file file' : File) : Prop :=
  Relation.ReflTransGen (fun a b => ∃ call, Fits a call ∧ b = after a call) file file'

/-- What a write answers, by what the log holds. -/
inductive Written (file : File) (events : List Value) (p : Payload) (now : Instant)
    (random : Bytes) : Except Error (WriteReply × File) → Prop
  | duplicate (stored id : Value) (hmem : stored ∈ events) (huid : p.eventUid ≠ [])
      (hget : stored.get? (str "event_uid") = some (.str p.eventUid))
      (hid : stored.get? (str "id") = some id) :
      Written file events p now random (.ok (⟨id, true⟩, file))
  | full (h : maxActionLogEvents ≤ events.length) : Written file events p now random
      (.error (refuse "tenant Action Log event limit reached"))
  | refused (e : Error)
      (h : encodedEvent (eventOf p (events.length + 1) now random) = .error e) :
      Written file events p now random (.error e)
  | stored (line content : Bytes) (huid : p.eventUid = [] ∨
        ∀ stored ∈ events, stored.get? (str "event_uid") ≠ some (.str p.eventUid))
      (hcount : events.length < maxActionLogEvents)
      (hline : encodedEvent (eventOf p (events.length + 1) now random) = .ok line)
      (hlength : content.length = (file.getD []).length + line.length)
      (hholds : content.length ≤ maxActionLogBytes →
        Holds (some content) (events ++ [added p events now random])) :
      Written file events p now random (.ok (⟨.int (events.length + 1), false⟩, some content))

theorem Holds.written (h : Holds file events) (hjson : payload.jsonable = true)
    (hpayload : readPayload path payload = .ok p) (now : Instant) (random : Bytes) :
    Written file events p now random (writeJson path payload now random file) := by
  unfold writeJson
  rw [hpayload, ok_bind, h.readUnlocked, ok_bind]
  cases hfind : withUid events p.eventUid with
  | some stored =>
    obtain ⟨hmem, huid, hget⟩ := withUid_eq_some hfind
    obtain ⟨i, hi⟩ := List.mem_iff_getElem?.1 hmem
    have hid := h.ids i stored hi
    simp only [hid]
    exact .duplicate stored _ hmem huid hget hid
  | none =>
    simp only []
    by_cases hcount : events.length < maxActionLogEvents
    · rw [(ensure_eq_ok (e := refuse "tenant Action Log event limit reached")).2 hcount, ok_bind]
      cases hline : encodedEvent (eventOf p (events.length + 1) now random) with
      | error e => exact .refused e hline
      | ok line =>
        obtain ⟨content, hreplace, hlength, hholds⟩ := h.write hjson hpayload hline hcount
        rw [ok_bind, hreplace, ok_bind]
        exact .stored line content (withUid_eq_none hfind) hcount hline hlength hholds
    · have hfull : ensure (events.length < maxActionLogEvents)
          (refuse "tenant Action Log event limit reached") =
            .error (refuse "tenant Action Log event limit reached") := by
        unfold ensure
        rw [if_neg hcount]
      rw [hfull]
      exact .full (Nat.le_of_not_lt hcount)

theorem Holds.after (h : Holds file events) {call : Call}
    (hfits : Fits file call) : ∃ more, Holds (after file call) (events ++ more) := by
  cases call with
  | request path params => exact ⟨[], by rw [List.append_nil]; exact h⟩
  | write path payload now random =>
    simp only [TenantLog.after]
    cases hpayload : readPayload path payload.1 with
    | error e =>
      have hrefused : writeJson path payload.1 now random file = .error e := by
        unfold writeJson
        rw [hpayload]
        rfl
      rw [hrefused]
      exact ⟨[], by rw [List.append_nil]; exact h⟩
    | ok p =>
      have hwritten := h.written payload.2 hpayload now random
      obtain ⟨-, hroom⟩ := hfits p events hpayload h.readUnlocked
      generalize writeJson path payload.1 now random file = answer at hwritten
      cases hwritten with
      | duplicate stored id hmem huid hget hid => exact ⟨[], by rw [List.append_nil]; exact h⟩
      | full hcount => exact ⟨[], by rw [List.append_nil]; exact h⟩
      | refused e hline => exact ⟨[], by rw [List.append_nil]; exact h⟩
      | stored line content huid hcount hline hlength hholds =>
        refine ⟨[added p events now random], hholds ?_⟩
        rw [hlength]
        exact hroom huid hcount line hline

theorem Holds.later {file file' : File} {events : List Value} (h : Holds file events)
    (hlater : Later file file') : ∃ more, Holds file' (events ++ more) := by
  induction hlater with
  | refl => exact ⟨[], by rw [List.append_nil]; exact h⟩
  | @tail b c _ hstep ih =>
    obtain ⟨more, hb⟩ := ih
    obtain ⟨call, hfits, rfl⟩ := hstep
    obtain ⟨rest, hc⟩ := hb.after hfits
    exact ⟨more ++ rest, by rw [← List.append_assoc]; exact hc⟩

theorem Reached.holds (h : Reached file) : ∃ events, Holds file events := by
  induction h with
  | start => exact ⟨[], holds_none⟩
  | step _ hfits ih =>
    obtain ⟨events, hevents⟩ := ih
    obtain ⟨more, hmore⟩ := hevents.after hfits
    exact ⟨events ++ more, hmore⟩

end

end IntegrityGuardian.TenantLog
