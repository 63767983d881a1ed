import IntegrityGuardian.ObserverAnchor.Store
import Mathlib.Data.List.Chain

/-!
# One chain under all handles

Every record is written in key order, so the record a handle reads from the file is
the last one published, whatever the handle has cached.  A rename then adds the
successor of that record to the chain, and a handle that is not at its end, or whose
caller is not, stops before the rename.
-/

namespace IntegrityGuardian.ObserverAnchor

open Python Library

/-! ## Frozen values -/

/-- What canonical bytes are parsed to. -/
structure Frozen (v : Json) : Prop where
  wf : v.wf = true
  sorted : v.sortKeys = v

variable {t : Int} {v w : Json} {field : String}

theorem frozen_sortKeys (hwf : v.wf = true) : Frozen v.sortKeys :=
  ⟨Json.wf_sortKeys hwf, Json.sortKeys_sortKeys v⟩

theorem freezeMapping_wf (h : freezeMapping v field = .ok w) : w.wf = true := by
  unfold freezeMapping at h
  cases hpayload : canonicalBytes v with
  | error e => simp [hpayload] at h
  | ok payload =>
    simp only [hpayload] at h
    cases hparse : parseJsonStrict payload with
    | error e => simp [hparse] at h
    | ok u =>
      have hwf : u.wf = true := Json.loadsBytes_wf hparse
      cases u with
      | obj members =>
        simp only [hparse, Except.ok.injEq] at h
        rw [← h]
        exact hwf
      | _ => simp [hparse] at h

theorem freezeMapping_eq (hwf : v.wf = true)
    (h : freezeMapping v field = .ok w) : w = v.sortKeys := by
  unfold freezeMapping at h
  cases hpayload : canonicalBytes v with
  | error e => simp [hpayload] at h
  | ok payload =>
    simp only [hpayload, parseJsonStrict_canonicalBytes hwf hpayload] at h
    cases hsort : v.sortKeys with
    | obj members =>
      simp only [hsort, Except.ok.injEq] at h
      exact h.symm
    | _ => simp [hsort] at h

/-! ## Items of a record -/

theorem item_sortKeys {key : Str} (hwf : v.wf = true) (h : v.get? key = some w) :
    v.sortKeys.get? key = some w.sortKeys := by
  rw [Json.get?_sortKeys hwf, h]
  rfl

theorem ofOptionalText_sortKeys (s : Option Str) :
    (Json.ofOptionalText s).sortKeys = .ofOptionalText s := by
  cases s <;> simp only [Json.ofOptionalText, Json.sortKeys]

theorem parseTime_field {value : Str}
    (h : parseTime value field = .ok t) (other : String) : parseTime value other = .ok t := by
  unfold parseTime at h ⊢
  cases hparse : Datetime.fromisoformat value with
  | none => simp [hparse] at h
  | some d =>
    obtain ⟨reading, offset⟩ := d
    cases offset with
    | none => simp [hparse] at h
    | some offset => simpa [hparse] using h

/-- The moment a record says it was created at. -/
def createdAt (record : Json) : Except Error Int := do
  let text ← raising (record.textItem (str "created_at"))
  parseTime text "creation time"

theorem raising_eq_ok {α : Type} {x : Except Exc α} {a : α} :
    raising x = .ok a ↔ x = .ok a := mapError_eq_ok

theorem createdAt_eq_ok {record : Json} {text : Str}
    (htext : record.textItem (str "created_at") = .ok text)
    (htime : parseTime text field = .ok t) : createdAt record = .ok t :=
  bind_eq_ok.2 ⟨text, raising_eq_ok.2 htext, parseTime_field htime _⟩

theorem wf_toDocument (cursor : ToolzStoreCursor) : cursor.toDocument.wf = true := by
  apply Json.wf_fields
  · simp only [List.map_cons, List.map_nil]
    decide
  · intro f hf
    simp only [List.mem_cons, List.not_mem_nil, or_false] at hf
    rcases hf with rfl | rfl | rfl | rfl | rfl <;> rfl

theorem wf_storageBoundary : storageBoundary.wf = true := by decide

theorem wf_recordFields (identity storeId : Str) (sequence : Int) (previous : Option Str)
    (kind : SubjectKind) (digest created : Str) {document : Json} (hdocument : document.wf = true) :
    (Json.fields (("anchor_id", .str identity) :: recordCore storeId sequence previous kind digest
      document created)).wf = true := by
  apply Json.wf_fields
  · simp only [recordCore, List.map_cons, List.map_nil]
    decide
  · have hprevious : (Json.ofOptionalText previous).wf = true := by cases previous <;> rfl
    simp only [recordCore, List.forall_mem_cons, List.not_mem_nil, false_implies, implies_true,
      and_true]
    exact ⟨rfl, rfl, rfl, rfl, hprevious, rfl, rfl, hdocument, rfl, wf_storageBoundary⟩

theorem build_sequence {storeId anchorId digest : Str} {n : Int} {cursor : Cursor}
    (h : Cursor.build storeId n anchorId digest = .ok cursor) : n = cursor.sequence := by
  unfold Cursor.build at h
  split at h
  · cases n with
    | ofNat n =>
      simp only at h
      split at h
      · split at h
        · split at h
          · cases h
            rfl
          · cases h
        · cases h
      · cases h
    | negSucc n => cases h
  · cases h

section
variable [UnicodeData]

/-! ## Specifications of the record functions -/

variable {failing : Bool} {payload : Bytes} {call : Call} {expected : Cursor}
  {next record subject : Json} {fault : Option Fault} {previous : Option Str} {store : Store}
  {created storeId : Str} {kind : SubjectKind} {w w' : World}

theorem subjectDocument_wf {document : Json} {digest : Str}
    (h : subjectDocument kind subject = .ok (document, digest)) : document.wf = true := by
  unfold subjectDocument at h
  obtain ⟨candidate, hfreeze, h⟩ := bind_eq_ok.1 h
  replace h := mapError_eq_ok.1 h
  cases kind with
  | toolzRouteStoreCursor =>
    obtain ⟨cursor, -, h⟩ := bind_eq_ok.1 h
    obtain ⟨found, -, h⟩ := bind_eq_ok.1 h
    cases h
    exact wf_toDocument cursor
  | toolzAuthorityCheckpoint =>
    obtain ⟨-, -, h⟩ := bind_eq_ok.1 h
    obtain ⟨found, -, h⟩ := bind_eq_ok.1 h
    cases h
    exact freezeMapping_wf hfreeze
  | toolzActionOutcomeObservation =>
    obtain ⟨-, -, h⟩ := bind_eq_ok.1 h
    obtain ⟨observationId, -, h⟩ := bind_eq_ok.1 h
    obtain ⟨identity, -, h⟩ := bind_eq_ok.1 h
    obtain ⟨-, h⟩ := ensure_bind_eq_ok.1 h
    obtain ⟨found, -, h⟩ := bind_eq_ok.1 h
    cases h
    exact freezeMapping_wf hfreeze

theorem verify_eq {candidate : Json} (hwf : record.wf = true)
    (h : verifyObserverAnchorRecord record storeId previous = .ok candidate) :
    candidate = record.sortKeys := by
  unfold verifyObserverAnchorRecord at h
  obtain ⟨-, -, h⟩ := bind_eq_ok.1 h
  obtain ⟨⟨frozen, kind⟩, hparsed, h⟩ := bind_eq_ok.1 h
  obtain ⟨value, hfreeze, hparsed⟩ := bind_eq_ok.1 (mapError_eq_ok.1 hparsed)
  obtain ⟨-, -, hparsed⟩ := bind_eq_ok.1 hparsed
  obtain ⟨found, -, hparsed⟩ := bind_eq_ok.1 hparsed
  cases hparsed
  have hvalue := freezeMapping_eq hwf hfreeze
  obtain ⟨anchorId, -, h⟩ := bind_eq_ok.1 h
  obtain ⟨identity, -, h⟩ := bind_eq_ok.1 h
  obtain ⟨-, h⟩ := ensure_bind_eq_ok.1 h
  obtain ⟨ownStore, -, h⟩ := bind_eq_ok.1 h
  obtain ⟨-, h⟩ := ensure_bind_eq_ok.1 h
  obtain ⟨boundary, -, h⟩ := bind_eq_ok.1 h
  obtain ⟨-, h⟩ := ensure_bind_eq_ok.1 h
  obtain ⟨carried, -, h⟩ := bind_eq_ok.1 h
  obtain ⟨⟨subject, digest⟩, -, h⟩ := bind_eq_ok.1 h
  obtain ⟨carriedDigest, -, h⟩ := bind_eq_ok.1 h
  obtain ⟨-, h⟩ := ensure_bind_eq_ok.1 h
  obtain ⟨sequence, -, h⟩ := bind_eq_ok.1 h
  obtain ⟨previousDigest, -, h⟩ := bind_eq_ok.1 h
  have hlast : ∀ {x : Except Error Unit}, (do
      x
      let createdAt ← raising (frozen.textItem (str "created_at"))
      let _ ← parseTime createdAt "creation time"
      .ok frozen) = .ok candidate → candidate = frozen := by
    intro x hx
    obtain ⟨-, -, hx⟩ := bind_eq_ok.1 hx
    obtain ⟨text, -, hx⟩ := bind_eq_ok.1 hx
    obtain ⟨time, -, hx⟩ := bind_eq_ok.1 hx
    cases hx
    rfl
  by_cases hzero : sequence = 0
  · rw [if_pos hzero] at h
    exact (hlast h).trans hvalue
  · rw [if_neg hzero] at h
    exact (hlast h).trans hvalue

/-- What a new record says. -/
structure Says (record : Json) (sequence : Int) (previous : Option Str) (created : Str) :
    Prop where
  frozen : Frozen record
  sequence : record.intItem (str "sequence") = .ok sequence
  previous : record.optionalTextItem (str "previous_anchor_digest") = .ok previous
  created : record.textItem (str "created_at") = .ok created

theorem newRecord_says {sequence : Int}
    (h : newRecord storeId sequence previous kind subject created = .ok record) :
    Says record sequence previous created := by
  unfold newRecord at h
  obtain ⟨-, -, h⟩ := bind_eq_ok.1 h
  obtain ⟨-, h⟩ := ensure_bind_eq_ok.1 h
  obtain ⟨-, -, h⟩ := bind_eq_ok.1 h
  obtain ⟨time, -, h⟩ := bind_eq_ok.1 h
  obtain ⟨⟨document, digest⟩, hdocument, h⟩ := bind_eq_ok.1 h
  obtain ⟨identity, -, h⟩ := bind_eq_ok.1 h
  have hwf := wf_recordFields identity storeId sequence previous kind digest created
    (subjectDocument_wf hdocument)
  have hrecord := verify_eq hwf h
  have hitem : ∀ {key : String} {w : Json},
      ((("anchor_id", .str identity) :: recordCore storeId sequence previous kind digest document
        created).lookup key = some w) → record.get? (str key) = some w.sortKeys := by
    intro key w hlookup
    rw [hrecord]
    exact item_sortKeys hwf (by rw [Json.get?_fields, hlookup])
  constructor
  · rw [hrecord]
    exact frozen_sortKeys hwf
  · rw [Json.intItem_eq_ok, @hitem "sequence" (.int sequence) rfl]
    simp only [Json.sortKeys]
  · rw [Json.optionalTextItem_eq_ok,
      @hitem "previous_anchor_digest" (.ofOptionalText previous) rfl, ofOptionalText_sortKeys]
  · rw [Json.textItem_eq_ok, @hitem "created_at" (.str created) rfl]
    simp only [Json.sortKeys]

omit [UnicodeData] in
theorem encodeRecord_eq_ok
    (h : encodeRecord record failing = .ok payload) : canonicalBytes record = .ok payload := by
  unfold encodeRecord at h
  obtain ⟨found, hfound, h⟩ := bind_eq_ok.1 h
  obtain ⟨-, h⟩ := ensure_bind_eq_ok.1 h
  obtain ⟨-, h⟩ := ensure_bind_eq_ok.1 h
  cases h
  exact raising_eq_ok.1 hfound

omit [UnicodeData] in
theorem readRecord_eq {stored : Json}
    (hfrozen : Frozen record) (hpayload : canonicalBytes record = .ok payload)
    (h : readRecord (some payload) failing = .ok stored) : stored = record := by
  unfold readRecord at h
  obtain ⟨-, h⟩ := ensure_bind_eq_ok.1 h
  obtain ⟨-, h⟩ := ensure_bind_eq_ok.1 h
  rw [parseJsonStrict_canonicalBytes hfrozen.wf hpayload, hfrozen.sorted] at h
  obtain ⟨value, hvalue, h⟩ := bind_eq_ok.1 h
  cases hvalue
  cases record with
  | obj members =>
    obtain ⟨canonical, -, h⟩ := bind_eq_ok.1 h
    obtain ⟨-, h⟩ := ensure_bind_eq_ok.1 h
    cases h
    rfl
  | _ => cases h

/-! ## One step -/

/-- What the next record of the chain is. -/
structure Follows (previous next : Json) : Prop where
  sequence : ∃ n, previous.intItem (str "sequence") = .ok n ∧
    next.intItem (str "sequence") = .ok (n + 1)
  digest : ∃ digest, observerAnchorRecordDigest previous = .ok digest ∧
    next.optionalTextItem (str "previous_anchor_digest") = .ok (some digest)
  created : ∃ s t, createdAt previous = .ok s ∧ createdAt next = .ok t ∧ s ≤ t

/-- What the first record of a chain is. -/
structure Initial (record : Json) : Prop where
  sequence : record.intItem (str "sequence") = .ok 0
  previous : record.optionalTextItem (str "previous_anchor_digest") = .ok none

structure Sound (w : World) : Prop where
  frozen : ∀ record ∈ w.published, Frozen record
  /-- The file holds the last record published, and there is none before the first. -/
  file : ∀ payload, w.file = some payload →
    ∃ last, w.published.getLast? = some last ∧ canonicalBytes last = .ok payload
  made : w.made = false → w.published = []
  initial : ∀ record, w.published.head? = some record → Initial record
  linked : w.published.IsChain Follows

/-- What a call does to the file. -/
inductive Change (w : World) : World → Prop
  | kept {w' : World} (hmade : w'.made = false → w.made = false) (hfile : w'.file = w.file)
      (hpublished : w'.published = w.published) : Change w w'
  | initial {w' : World} {record : Json} {payload : Bytes} (hmade : w.made = false)
      (hmade' : w'.made = true) (hfile : w'.file = some payload)
      (hpublished : w'.published = w.published ++ [record])
      (hpayload : canonicalBytes record = .ok payload) (hfrozen : Frozen record)
      (hinitial : Initial record) : Change w w'
  | next {w' : World} {last record : Json} {payload : Bytes} (hmade : w'.made = w.made)
      (hlast : w.published.getLast? = some last) (hfile : w'.file = some payload)
      (hpublished : w'.published = w.published ++ [record])
      (hpayload : canonicalBytes record = .ok payload) (hfrozen : Frozen record)
      (hfollows : Follows last record) : Change w w'

theorem Sound.change (hsound : Sound w) (h : Change w w') : Sound w' := by
  cases h with
  | kept hmade hfile hpublished =>
    constructor
    · rw [hpublished]
      exact hsound.frozen
    · rw [hfile, hpublished]
      exact hsound.file
    · intro hmade'
      rw [hpublished]
      exact hsound.made (hmade hmade')
    · rw [hpublished]
      exact hsound.initial
    · rw [hpublished]
      exact hsound.linked
  | @initial record payload hmade hmade' hfile hpublished hpayload hfrozen hinitial =>
    rw [hsound.made hmade, List.nil_append] at hpublished
    constructor
    · simpa [hpublished] using hfrozen
    · intro payload' hpayload'
      rw [hfile] at hpayload'
      cases hpayload'
      exact ⟨record, by rw [hpublished]; rfl, hpayload⟩
    · intro hnot
      rw [hmade'] at hnot
      cases hnot
    · intro first hfirst
      rw [hpublished] at hfirst
      cases hfirst
      exact hinitial
    · rw [hpublished]
      exact List.isChain_singleton _
  | @next last record payload hmade hlast hfile hpublished hpayload hfrozen hfollows =>
    have hne : w.published ≠ [] := by
      intro hnil
      rw [hnil] at hlast
      cases hlast
    constructor
    · rw [hpublished]
      intro r hr
      rcases List.mem_append.1 hr with hr | hr
      · exact hsound.frozen r hr
      · rw [List.mem_singleton.1 hr]
        exact hfrozen
    · intro payload' hpayload'
      rw [hfile] at hpayload'
      cases hpayload'
      exact ⟨record, by rw [hpublished, List.getLast?_concat], hpayload⟩
    · intro hnot
      rw [hmade] at hnot
      exact absurd (hsound.made hnot) hne
    · intro first hfirst
      rw [hpublished, List.head?_append_of_ne_nil _ hne] at hfirst
      exact hsound.initial first hfirst
    · rw [hpublished, List.isChain_append]
      refine ⟨hsound.linked, List.isChain_singleton _, ?_⟩
      intro x hx y hy
      rw [hlast] at hx
      cases hx
      cases hy
      exact hfollows

/-- What the first part of `advance` says of the record it found. -/
theorem prepare_spec (hsound : Sound w) {current : Json}
    (h : store.prepare w.file expected kind subject created fault = .ok (current, next, payload)) :
    w.published.getLast? = some current ∧ cursorOf current = .ok expected ∧
      canonicalBytes next = .ok payload ∧ Frozen next ∧ Follows current next := by
  unfold Store.prepare at h
  obtain ⟨stored, hstored, h⟩ := bind_eq_ok.1 h
  obtain ⟨verified, hverified, h⟩ := bind_eq_ok.1 h
  obtain ⟨cursor, hcursor, h⟩ := bind_eq_ok.1 h
  obtain ⟨own, -, h⟩ := bind_eq_ok.1 h
  obtain ⟨⟨hexpected, -⟩, h⟩ := ensure_bind_eq_ok.1 h
  obtain ⟨n, hn, h⟩ := bind_eq_ok.1 h
  obtain ⟨-, h⟩ := ensure_bind_eq_ok.1 h
  obtain ⟨t, ht, h⟩ := bind_eq_ok.1 h
  obtain ⟨text, htext, h⟩ := bind_eq_ok.1 h
  obtain ⟨s, hs, h⟩ := bind_eq_ok.1 h
  obtain ⟨hle, h⟩ := ensure_bind_eq_ok.1 h
  obtain ⟨digest, hdigest, h⟩ := bind_eq_ok.1 h
  obtain ⟨record, hrecord, h⟩ := bind_eq_ok.1 h
  obtain ⟨bytes, hbytes, h⟩ := bind_eq_ok.1 h
  cases h
  -- the record in the file is the last one published
  have hcurrent : w.published.getLast? = some current := by
    cases hfile : w.file with
    | none =>
      rw [hfile] at hstored
      unfold readRecord at hstored
      obtain ⟨-, hstored⟩ := ensure_bind_eq_ok.1 hstored
      cases hstored
    | some bytes' =>
      obtain ⟨last, hlast, hpayload⟩ := hsound.file bytes' hfile
      have hfrozen := hsound.frozen last (List.mem_of_getLast? hlast)
      rw [hfile] at hstored
      have hsame := readRecord_eq hfrozen hpayload hstored
      rw [hsame] at hverified
      rw [verify_eq hfrozen.wf hverified, hfrozen.sorted]
      exact hlast
  have hnew := newRecord_says hrecord
  rw [hexpected] at hcursor
  refine ⟨hcurrent, hcursor, encodeRecord_eq_ok hbytes, hnew.frozen, ?_⟩
  constructor
  · exact ⟨n, raising_eq_ok.1 hn, hnew.sequence⟩
  · exact ⟨digest, raising_eq_ok.1 hdigest, hnew.previous⟩
  · exact ⟨s, t, createdAt_eq_ok (raising_eq_ok.1 htext) hs, createdAt_eq_ok hnew.created ht, hle⟩

theorem confirm_spec {store' : Store} {current : Json}
    (hfrozen : Frozen next) (hpayload : canonicalBytes next = .ok payload)
    (h : store.confirm (some payload) current next fault = .ok store') :
    store'.record = next := by
  unfold Store.confirm at h
  obtain ⟨-, h⟩ := ensure_bind_eq_ok.1 h
  obtain ⟨stored, hstored, h⟩ := bind_eq_ok.1 h
  obtain ⟨digest, -, h⟩ := bind_eq_ok.1 h
  obtain ⟨persisted, hpersisted, h⟩ := bind_eq_ok.1 h
  obtain ⟨-, h⟩ := ensure_bind_eq_ok.1 h
  cases h
  rw [readRecord_eq hfrozen hpayload hstored] at hpersisted
  show persisted = next
  rw [verify_eq hfrozen.wf hpersisted, hfrozen.sorted]

/-- An `advance` stops before the rename and has changed nothing, or it has put the
successor of the last record, the expected one, in its place. -/
theorem advance_cases (hsound : Sound w) (handle : Nat) (expected : Cursor)
    (subjectKind : Str) (subject : Json) (created : Str) (fault : Option Fault) :
    let result := w.advance handle expected subjectKind subject created fault
    (result.2 = w ∧ ∃ e, result.1 = .error e) ∨
      ∃ last next payload, w.published.getLast? = some last ∧ cursorOf last = .ok expected ∧
        result.2.made = w.made ∧ result.2.file = some payload ∧
        result.2.published = w.published ++ [next] ∧ canonicalBytes next = .ok payload ∧
        Frozen next ∧ Follows last next ∧
        ∀ cursor, result.1 = .ok cursor → ∃ c, cursor = some c ∧ cursorOf next = .ok c := by
  have hreleased : ∀ e : Error, ∃ e', (if fault = some .unlock then (.error .localLock)
      else (Except.error e : Except Error Cursor).map some) = .error e' := by
    intro e
    by_cases hfault : fault = some .unlock
    · exact ⟨_, if_pos hfault⟩
    · exact ⟨e, if_neg hfault⟩
  intro result
  cases hstore : w.stores[handle]? with
  | none =>
    left
    constructor
    · simp only [result, World.advance, hstore]
    · exact ⟨_, by simp only [result, World.advance, hstore]; rfl⟩
  | some store =>
    cases hadmit : store.admit subjectKind fault with
    | error e =>
      left
      constructor
      · simp only [result, World.advance, hstore, hadmit]
      · exact ⟨e, by simp only [result, World.advance, hstore, hadmit]⟩
    | ok kind =>
      cases hprepare : store.prepare w.file expected kind subject created fault with
      | error e =>
        left
        constructor
        · simp only [result, World.advance, hstore, hadmit, hprepare]
        · simpa only [result, World.advance, hstore, hadmit, hprepare] using hreleased e
      | ok p =>
        obtain ⟨last, next, payload⟩ := p
        obtain ⟨hlast, hcursor, hpayload, hfrozen, hfollows⟩ := prepare_spec hsound hprepare
        right
        refine ⟨last, next, payload, hlast, hcursor, ?_⟩
        cases hconfirm : store.confirm (w.rename next payload).file last next fault with
        | error e =>
          have hresult : result =
              (if fault = some .unlock then .error .localLock
                else (Except.error e : Except Error Cursor).map some,
                w.rename next payload) := by
            simp only [result, World.advance, hstore, hadmit, hprepare, hconfirm]
          rw [hresult]
          refine ⟨rfl, rfl, rfl, hpayload, hfrozen, hfollows, ?_⟩
          intro cursor hok
          obtain ⟨e', he'⟩ := hreleased e
          rw [he'] at hok
          cases hok
        | ok store' =>
          have hresult : result =
              (if fault = some .unlock then .error .localLock
                else store'.cursor.map some,
                { w.rename next payload with
                  stores := (w.rename next payload).stores.set handle store' }) := by
            simp only [result, World.advance, hstore, hadmit, hprepare, hconfirm]
          rw [hresult]
          refine ⟨rfl, rfl, rfl, hpayload, hfrozen, hfollows, ?_⟩
          intro cursor hok
          by_cases hfault : fault = some .unlock
          · rw [if_pos hfault] at hok
            cases hok
          · rw [if_neg hfault] at hok
            obtain ⟨c, hc, rfl⟩ := map_eq_ok.1 hok
            obtain ⟨-, hc⟩ := ensure_bind_eq_ok.1 hc
            rw [confirm_spec hfrozen hpayload hconfirm] at hc
            exact ⟨c, rfl, hc⟩

theorem initialize_change (storeId subjectKind : Str) (subject : Json) (created : Str)
    (fault : Option Fault) :
    Change w (w.initialize_ storeId subjectKind subject created fault).2 := by
  unfold World.initialize_
  cases SubjectKind.ofText subjectKind with
  | error e => exact .kept (fun h => h) rfl rfl
  | ok kind =>
    cases hmade : w.made with
    | true => exact .kept (fun h => h) rfl rfl
    | false =>
      simp only [Bool.false_eq_true, if_false]
      cases hprepare : World.prepareInitial storeId kind subject created fault with
      | error e => exact .kept (fun _ => hmade) rfl rfl
      | ok p =>
        obtain ⟨record, payload⟩ := p
        unfold World.prepareInitial at hprepare
        obtain ⟨-, hprepare⟩ := ensure_bind_eq_ok.1 hprepare
        obtain ⟨found, hfound, hprepare⟩ := bind_eq_ok.1 hprepare
        obtain ⟨bytes, hbytes, hprepare⟩ := bind_eq_ok.1 hprepare
        cases hprepare
        have hnew := newRecord_says hfound
        have hchange : ∀ w' : World, w'.made = true → w'.file = some payload →
            w'.published = w.published ++ [record] → Change w w' :=
          fun w' hmade' hfile hpublished => .initial hmade hmade' hfile hpublished
            (encodeRecord_eq_ok hbytes) hnew.frozen ⟨hnew.sequence, hnew.previous⟩
        cases hconfirm : World.confirmInitial (some payload) storeId fault with
        | error e =>
          simp only [World.rename, hconfirm]
          exact hchange _ rfl rfl rfl
        | ok store =>
          simp only [World.rename, hconfirm]
          exact hchange _ rfl rfl rfl

theorem step_change (hsound : Sound w) (call : Call) : Change w (w.step call).2 := by
  cases call with
  | initialize_ storeId subjectKind subject created fault => exact initialize_change ..
  | open_ storeId expected allow fault =>
    show Change w (w.open_ storeId expected allow fault).2
    unfold World.open_
    cases w.opened storeId expected allow fault with
    | error e => exact .kept (fun h => h) rfl rfl
    | ok store => exact .kept (fun h => h) rfl rfl
  | advance handle expected subjectKind subject created fault =>
    rcases advance_cases hsound handle expected subjectKind subject created fault with
      ⟨hkept, -⟩ | ⟨last, next, payload, hlast, -, hmade, hfile, hpublished, hpayload, hfrozen,
        hfollows, -⟩
    · show Change w (w.advance handle expected subjectKind subject created fault).2
      rw [hkept]
      exact .kept (fun h => h) rfl rfl
    · exact .next hmade hlast hfile hpublished hpayload hfrozen hfollows
  | close handle => exact .kept (fun h => h) rfl rfl

/-! ## Runs -/

theorem perform_eq_ok {r : Except Error (Option Cursor)} :
    perform call w = .ok (r, w') ↔ (w.step call).1 = r ∧ (w.step call).2 = w' := by
  simp only [perform, Except.ok.injEq, Prod.ext_iff]

theorem sound_start : Sound World.start where
  frozen _ h := by cases h
  file _ h := by cases h
  made _ := rfl
  initial _ h := by cases h
  linked := .nil

theorem sound_reached (calls : List Call) : Sound (reached calls) := by
  apply run_invariant _ sound_start
  intro w call r w' hsound h
  obtain ⟨-, rfl⟩ := perform_eq_ok.1 h
  exact hsound.change (step_change hsound call)

theorem Sound.sequence (hsound : Sound w) {i : Nat}
    (h : w.published[i]? = some record) : record.intItem (str "sequence") = .ok i := by
  induction i generalizing record with
  | zero =>
    rw [← List.head?_eq_getElem?] at h
    exact (hsound.initial record h).sequence
  | succ i ih =>
    obtain ⟨hlt, rfl⟩ := List.getElem?_eq_some_iff.1 h
    have hfollows := List.isChain_iff_getElem.1 hsound.linked i hlt
    obtain ⟨n, hn, hnext⟩ := hfollows.sequence
    rw [ih (List.getElem?_eq_getElem _)] at hn
    cases hn
    exact hnext

theorem Sound.cursor_sequence (hsound : Sound w) {last : Json} {cursor : Cursor}
    (hlast : w.published.getLast? = some last) (hcursor : cursorOf last = .ok cursor) :
    cursor.sequence + 1 = w.published.length := by
  have hplace : w.published[w.published.length - 1]? = some last := by
    rw [← List.getLast?_eq_getElem?]
    exact hlast
  have hsequence := hsound.sequence hplace
  have hpos : 0 < w.published.length := by
    obtain ⟨hlt, -⟩ := List.getElem?_eq_some_iff.1 hplace
    omega
  obtain ⟨storeId, -, hcursor⟩ := bind_eq_ok.1 hcursor
  obtain ⟨n, hn, hcursor⟩ := bind_eq_ok.1 hcursor
  obtain ⟨anchorId, -, hcursor⟩ := bind_eq_ok.1 hcursor
  obtain ⟨digest, -, hcursor⟩ := bind_eq_ok.1 hcursor
  rw [raising_eq_ok.1 hn] at hsequence
  cases hsequence
  have hbuild := build_sequence hcursor
  omega

/-- Where a world stands after the successful advances of its past. -/
structure Account (past : List (Call × Except Empty (Except Error (Option Cursor)))) (w : World) :
    Prop where
  sound : Sound w
  ascending : (past.filterMap advancedFrom).Pairwise fun c d => c.sequence < d.sequence
  passed : ∀ c ∈ past.filterMap advancedFrom, c.sequence + 1 < w.published.length

theorem Change.length_le (h : Change w w') : w.published.length ≤ w'.published.length := by
  cases h with
  | kept hmade hfile hpublished => rw [hpublished]
  | initial hmade hmade' hfile hpublished =>
    rw [hpublished, List.length_append]
    omega
  | next hmade hlast hfile hpublished =>
    rw [hpublished, List.length_append]
    omega

theorem advancedFrom_eq_some (hsound : Sound w)
    (h : advancedFrom (call, .ok (w.step call).1) = some expected) :
    expected.sequence + 1 = w.published.length ∧
      (w.step call).2.published.length = w.published.length + 1 := by
  cases call with
  | advance handle cursor subjectKind subject created fault =>
    rcases advance_cases hsound handle cursor subjectKind subject created fault with
      ⟨-, e, he⟩ | ⟨last, next, payload, hlast, hcursor, -, -, hpublished, -⟩
    · have he' : (w.step (.advance handle cursor subjectKind subject created fault)).1
          = .error e := he
      rw [he'] at h
      cases h
    · have hexpected : cursor = expected := by
        cases hreturn : (w.step (.advance handle cursor subjectKind subject created fault)).1 with
        | error e =>
          rw [hreturn] at h
          cases h
        | ok c =>
          rw [hreturn] at h
          exact Option.some.inj h
      rw [← hexpected]
      refine ⟨hsound.cursor_sequence hlast hcursor, ?_⟩
      show (w.advance handle cursor subjectKind subject created fault).2.published.length = _
      rw [hpublished, List.length_append]
      rfl
  | _ => cases h

theorem Account.step {past : List (Call × Except Empty (Except Error (Option Cursor)))}
    (h : Account past w) (call : Call) :
    Account (past ++ [(call, .ok (w.step call).1)]) (w.step call).2 := by
  have hchange := step_change h.sound call
  have hsound := h.sound.change hchange
  rw [← List.concat_eq_append]
  cases hfrom : advancedFrom (call, .ok (w.step call).1) with
  | none =>
    have hsame : ((past.concat (call, .ok (w.step call).1)).filterMap advancedFrom)
        = past.filterMap advancedFrom := by
      rw [List.concat_eq_append, List.filterMap_append, List.filterMap_cons, hfrom]
      simp
    constructor
    · exact hsound
    · rw [hsame]
      exact h.ascending
    · rw [hsame]
      intro c hc
      exact lt_of_lt_of_le (h.passed c hc) hchange.length_le
  | some expected =>
    have hadvanced := advancedFrom_eq_some h.sound hfrom
    have hsnoc : ((past.concat (call, .ok (w.step call).1)).filterMap advancedFrom)
        = past.filterMap advancedFrom ++ [expected] := by
      rw [List.concat_eq_append, List.filterMap_append, List.filterMap_cons, hfrom]
      simp
    constructor
    · exact hsound
    · rw [hsnoc, List.pairwise_append]
      refine ⟨h.ascending, List.pairwise_singleton _ _, ?_⟩
      intro c hc d hd
      have hpassed := h.passed c hc
      rw [List.mem_singleton.1 hd]
      omega
    · rw [hsnoc]
      intro c hc
      rcases List.mem_append.1 hc with hc | hc
      · have hpassed := h.passed c hc
        omega
      · rw [List.mem_singleton.1 hc]
        omega

theorem account_reached (calls : List Call) :
    Account (trace perform World.start calls) (reached calls) := by
  have hstart : Account [] World.start := ⟨sound_start, .nil, fun _ h => by cases h⟩
  have hok : ∀ past w call r w', Account past w → perform call w = .ok (r, w') →
      Account (past ++ [(call, .ok r)]) w' := by
    intro past w call r w' hpast hstep
    obtain ⟨rfl, rfl⟩ := perform_eq_ok.1 hstep
    exact hpast.step call
  have herror : ∀ past w call e, Account past w → perform call w = .error e →
      Account (past ++ [(call, .error e)]) w := by
    intro past w call e hpast hstep
    cases hstep
  have h := run_trace_invariant hok herror hstart calls
  rwa [List.nil_append] at h

/-- In every interleaving of calls on one root, the records published are a chain: their
sequence numbers count from zero, each names the digest of the one before it, and their
times never go back.  An advance from a cursor succeeds at most once.  An advance that
publishes nothing raises and leaves the file and every handle as they were; any other
replaces exactly the record of its cursor, and returns the cursor of its own. -/
theorem anchors_form_one_chain (calls : List Call) :
    (∀ (i : Nat) (record : Json), (reached calls).published[i]? = some record →
      record.intItem (str "sequence") = .ok i) ∧
    (∀ record : Json, (reached calls).published[0]? = some record →
      record.optionalTextItem (str "previous_anchor_digest") = .ok none) ∧
    (∀ (i : Nat) (previous next : Json), (reached calls).published[i]? = some previous →
      (reached calls).published[i + 1]? = some next →
      (∃ digest, observerAnchorRecordDigest previous = .ok digest ∧
        next.optionalTextItem (str "previous_anchor_digest") = .ok (some digest)) ∧
      ∃ s t, createdAt previous = .ok s ∧ createdAt next = .ok t ∧ s ≤ t) ∧
    (∀ cursor, (advancedCursors calls).count cursor ≤ 1) ∧
    ∀ handle expected subjectKind subject created fault,
      let result := (reached calls).advance handle expected subjectKind subject created fault
      (result.2.published = (reached calls).published →
        result.2 = reached calls ∧ ∃ e, result.1 = .error e) ∧
      (result.2.published ≠ (reached calls).published →
        ∃ last next, (reached calls).published.getLast? = some last ∧
          cursorOf last = .ok expected ∧
          result.2.published = (reached calls).published ++ [next] ∧
          ∀ cursor, result.1 = .ok cursor → ∃ c, cursor = some c ∧ cursorOf next = .ok c) := by
  have hsound := sound_reached calls
  have haccount := account_reached calls
  refine ⟨fun i record h => hsound.sequence h, ?_, ?_, ?_, ?_⟩
  · intro record h
    rw [← List.head?_eq_getElem?] at h
    exact (hsound.initial record h).previous
  · intro i previous next hprevious hnext
    obtain ⟨hlt, rfl⟩ := List.getElem?_eq_some_iff.1 hnext
    obtain ⟨hlt', rfl⟩ := List.getElem?_eq_some_iff.1 hprevious
    have hfollows := List.isChain_iff_getElem.1 hsound.linked i hlt
    exact ⟨hfollows.digest, hfollows.created⟩
  · intro cursor
    apply List.nodup_iff_count_le_one.1
    apply haccount.ascending.imp
    rintro c d hlt rfl
    exact lt_irrefl _ hlt
  · intro handle expected subjectKind subject created fault result
    rcases advance_cases hsound handle expected subjectKind subject created fault with
      ⟨hkept, herror⟩ | ⟨last, next, payload, hlast, hcursor, -, -, hpublished, -, -, -, hreturn⟩
    · refine ⟨fun _ => ⟨hkept, herror⟩, ?_⟩
      intro hne
      exact absurd (congrArg World.published hkept) hne
    · constructor
      · intro heq
        rw [hpublished] at heq
        simp at heq
      · intro _
        exact ⟨last, next, hlast, hcursor, hpublished, hreturn⟩

end

end IntegrityGuardian.ObserverAnchor
