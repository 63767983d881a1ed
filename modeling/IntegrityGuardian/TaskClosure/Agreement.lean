import IntegrityGuardian.Python.JsonDisplays
import IntegrityGuardian.TaskClosure.Receipts

/-!
# Builder and verifier of append attempts

The verifier sees the schema, the identity and the event id of an attempt.  The
builder writes one row of a table.  A document the verifier accepts is one the builder
can write exactly when it is a row of the table.
-/

namespace IntegrityGuardian.TaskClosure

open Python Library
open Schemas.TurnMemory (eventUidBody sha256Body)
open Schemas.TaskClosure (appendAttemptReceipt attemptProperties eventUidReconciliation)

section
variable [UnicodeData]

/-! ## Single steps -/

omit [UnicodeData] in
theorem raising_eq_ok {α : Type} {x : Except Exc α} {a : α} : raising x = .ok a ↔ x = .ok a :=
  mapError_eq_ok

variable {document frozen v w : Json}

omit [UnicodeData] in
theorem validated_eq_ok {schema : Schema} {field : String} :
    validated schema v field = .ok () ↔ schema.accepts v = true := by
  rw [validated, mapError_eq_ok, Schemas.validate_eq_ok]

omit [UnicodeData] in
theorem freeze_eq_ok (field : String) (hwf : v.wf = true) :
    freeze v field = .ok w ↔ v.IsObj ∧ v.encodable = true ∧ w = v.sortKeys := by
  unfold freeze
  cases hpayload : canonicalBytes v with
  | error e =>
    simp only [reduceCtorEq, false_iff]
    rintro ⟨-, hencodable, -⟩
    obtain ⟨b, hb⟩ := canonicalBytes_of_encodable hencodable
    rw [hb] at hpayload
    cases hpayload
  | ok payload =>
    have hencodable := encodable_of_canonicalBytes hpayload
    simp only [parseJsonStrict_canonicalBytes hwf hpayload, hencodable, true_and]
    cases v with
    | obj ms =>
      have hobj : (Json.obj ms).IsObj := ⟨ms, rfl⟩
      simp only [hobj, true_and, Json.sortKeys, Except.ok.injEq, eq_comm]
    | _ => simp [Json.sortKeys, Json.IsObj]

omit [UnicodeData] in
theorem freeze_congr (h : v.sortKeys = w.sortKeys) (field : String) :
    freeze v field = freeze w field := by
  have hbytes : canonicalBytes v = canonicalBytes w := by
    rw [← canonicalBytes_sortKeys v, h, canonicalBytes_sortKeys]
  unfold freeze
  rw [hbytes]

theorem identity_congr (h : v.sortKeys = w.sortKeys) (head domain : String) :
    identity v head domain = identity w head domain := by
  unfold identity
  rw [digestObject_congr h]

theorem verifyEventUidReconciliation_congr (h : v.sortKeys = w.sortKeys) :
    verifyEventUidReconciliation v = verifyEventUidReconciliation w := by
  unfold verifyEventUidReconciliation
  rw [freeze_congr h]

theorem frozen_of_verifyEventUidReconciliation (hwf : v.wf = true)
    (h : verifyEventUidReconciliation v = .ok frozen) :
    v.encodable = true ∧ frozen = v.sortKeys := by
  unfold verifyEventUidReconciliation at h
  obtain ⟨u, hfreeze, h⟩ := bind_eq_ok.1 h
  obtain ⟨-, hencodable, hsort⟩ := (freeze_eq_ok _ hwf).1 hfreeze
  obtain ⟨_, -, h⟩ := bind_eq_ok.1 h
  obtain ⟨_, -, h⟩ := bind_eq_ok.1 h
  obtain ⟨_, -, h⟩ := bind_eq_ok.1 h
  obtain ⟨-, h⟩ := ensure_bind_eq_ok.1 h
  obtain ⟨_, -, h⟩ := bind_eq_ok.1 h
  obtain ⟨_, -, h⟩ := bind_eq_ok.1 h
  obtain ⟨-, h⟩ := ensure_bind_eq_ok.1 h
  cases h
  exact ⟨hencodable, hsort⟩

theorem counts_of_verify {matchCount : Int} (h : verifyEventUidReconciliation v = .ok frozen)
    (hcount : frozen.get? (str "match_count") = some (.int matchCount)) :
    (matchCount = 0 ∨ matchCount = 1) ∧
      (matchCount ≠ 1 → frozen.get? (str "event_id") = some .null) := by
  unfold verifyEventUidReconciliation at h
  obtain ⟨u, -, h⟩ := bind_eq_ok.1 h
  obtain ⟨_, hschema, h⟩ := bind_eq_ok.1 h
  obtain ⟨_, -, h⟩ := bind_eq_ok.1 h
  obtain ⟨_, -, h⟩ := bind_eq_ok.1 h
  obtain ⟨-, h⟩ := ensure_bind_eq_ok.1 h
  obtain ⟨count, hcount', h⟩ := bind_eq_ok.1 h
  obtain ⟨eventId, heventId, h⟩ := bind_eq_ok.1 h
  obtain ⟨hrule, h⟩ := ensure_bind_eq_ok.1 h
  cases h
  rw [raising_eq_ok, Json.intItem_eq_ok, hcount] at hcount'
  cases hcount'
  rw [raising_eq_ok, Json.item_eq_ok] at heventId
  constructor
  · obtain ⟨w, hw, haccepts⟩ := @Schema.get?_of_closed _ _ _ (validated_eq_ok.1 hschema)
      "match_count" (.keywords [.ofType .integer, .minimum 0, .maximum 1]) (by simp) (by simp)
    rw [hcount] at hw
    cases hw
    have hlow := Schema.accepts_keywords haccepts (s := .minimum 0) (by simp)
    have hhigh := Schema.accepts_keywords haccepts (s := .maximum 1) (by simp)
    simp only [Schema.minimum, Schema.maximum, decide_eq_true_eq] at hlow hhigh
    omega
  · intro hne
    have hnull : eventId = .null := by
      by_contra hevent
      exact hne (hrule.2 hevent)
    rw [heventId, hnull]

/-! ## What the verifier accepts -/

/-- The verifier's own rules. -/
structure Recognized (document : Json) : Prop where
  encodable : document.encodable = true
  schema : appendAttemptReceipt.accepts document = true
  identity : ∃ text, document.get? (str "attempt_id") = some (.str text) ∧
    attemptIdentity (document.pop (str "attempt_id")) = .ok text
  confirmed : ∀ state ∈ confirmedAppendStates, document.get? (str "state") = some (.str state) →
    document.get? (str "event_id") ≠ some .null ∧
      document.get? (str "permitted_next_step") = some (.str (str "none"))
  unconfirmed : ∀ state ∉ confirmedAppendStates,
    document.get? (str "state") = some (.str state) →
      document.get? (str "event_id") = some .null

omit [UnicodeData] in
theorem get?_of_schema (h : appendAttemptReceipt.accepts document = true)
    (key : String) (s : Schema) (hs : (key, s) ∈ attemptProperties) :
    ∃ w, document.get? (str key) = some w ∧ s.accepts w = true :=
  Schema.get?_of_closed h (List.mem_map_of_mem hs) hs

omit [UnicodeData] in
theorem eventId_sortKeys {eventId : Json} (hwf : document.wf = true)
    (h : document.sortKeys.item (str "event_id") = .ok eventId) :
    document.get? (str "event_id") = some .null ↔ eventId = .null := by
  rw [Json.item_eq_ok, Json.get?_sortKeys hwf, Option.map_eq_some_iff] at h
  obtain ⟨w, hw, rfl⟩ := h
  rw [hw]
  cases w <;> simp [Json.sortKeys]

theorem attemptIdentity_sortKeys (hobj : document.IsObj) (hwf : document.wf = true) :
    attemptIdentity (document.sortKeys.pop (str "attempt_id")) =
      attemptIdentity (document.pop (str "attempt_id")) :=
  identity_congr (Json.sortKeys_pop_congr hobj.sortKeys hobj (Json.wf_sortKeys hwf) hwf
    (Json.sortKeys_sortKeys document) _) _ _

theorem recognized_of_verify (hwf : document.wf = true)
    (h : verifyAppendAttemptReceipt document = .ok frozen) :
    Recognized document ∧ frozen = document.sortKeys := by
  unfold verifyAppendAttemptReceipt at h
  obtain ⟨u, hfreeze, h⟩ := bind_eq_ok.1 h
  obtain ⟨hobj, hencodable, rfl⟩ := (freeze_eq_ok _ hwf).1 hfreeze
  obtain ⟨_, hschema, h⟩ := bind_eq_ok.1 h
  rw [validated_eq_ok, Schema.accepts_sortKeys _ hwf] at hschema
  obtain ⟨expected, hexpected, h⟩ := bind_eq_ok.1 h
  rw [attemptIdentity_sortKeys hobj hwf] at hexpected
  obtain ⟨attemptId, hattemptId, h⟩ := bind_eq_ok.1 h
  rw [raising_eq_ok, Json.textItem_sortKeys hwf, Json.textItem_eq_ok] at hattemptId
  obtain ⟨hidentity, h⟩ := ensure_bind_eq_ok.1 h
  rw [← hidentity] at hexpected
  obtain ⟨retry, -, h⟩ := bind_eq_ok.1 h
  obtain ⟨-, h⟩ := ensure_bind_eq_ok.1 h
  obtain ⟨state, hstate, h⟩ := bind_eq_ok.1 h
  rw [raising_eq_ok, Json.textItem_sortKeys hwf, Json.textItem_eq_ok] at hstate
  obtain ⟨eventId, heventId, h⟩ := bind_eq_ok.1 h
  have hnull := eventId_sortKeys hwf (raising_eq_ok.1 heventId)
  obtain ⟨nextStep, hnextStep, h⟩ := bind_eq_ok.1 h
  rw [raising_eq_ok, Json.textItem_sortKeys hwf, Json.textItem_eq_ok] at hnextStep
  have hsame : ∀ other, document.get? (str "state") = some (.str other) → other = state := by
    intro other hother
    rw [hstate] at hother
    cases hother
    rfl
  split_ifs at h with hmem
  · obtain ⟨⟨hevent, hnext⟩, h⟩ := ensure_bind_eq_ok.1 h
    cases h
    refine ⟨⟨hencodable, hschema, ⟨_, hattemptId, hexpected⟩, ?_, ?_⟩, rfl⟩
    · intro other _ _
      exact ⟨fun hzero => hevent (hnull.1 hzero), hnext ▸ hnextStep⟩
    · intro other hother hget
      exact absurd (hsame other hget ▸ hmem) hother
  · obtain ⟨hevent, h⟩ := ensure_bind_eq_ok.1 h
    cases h
    refine ⟨⟨hencodable, hschema, ⟨_, hattemptId, hexpected⟩, ?_, ?_⟩, rfl⟩
    · intro other hother hget
      exact absurd (hsame other hget ▸ hother) hmem
    · intro other _ _
      exact hnull.2 hevent

theorem verify_of_recognized (hwf : document.wf = true) (h : Recognized document) :
    verifyAppendAttemptReceipt document = .ok document.sortKeys := by
  have hobj := Schema.isObj_of_closed h.schema
  obtain ⟨attemptId, hattemptId, hidentity⟩ := h.identity
  have hfreeze := (freeze_eq_ok "append attempt" hwf).2 ⟨hobj, h.encodable, rfl⟩
  have hvalid : validated appendAttemptReceipt document.sortKeys "append attempt schema" =
      .ok () := by
    rw [validated_eq_ok, Schema.accepts_sortKeys _ hwf]
    exact h.schema
  have htext : ∀ {key text}, document.get? key = some (.str text) →
      raising (document.sortKeys.textItem key) = .ok text := by
    intro key text hget
    rw [raising_eq_ok, Json.textItem_sortKeys hwf, Json.textItem_eq_ok, hget]
  obtain ⟨retry, hretry, hretry'⟩ := get?_of_schema h.schema "automatic_retry_allowed" (.constBool false) (by simp [attemptProperties])
  have hflag : raising (document.sortKeys.boolItem (str "automatic_retry_allowed")) =
      .ok false := by
    rw [raising_eq_ok, Json.boolItem_eq_ok, Json.get?_sortKeys hwf, hretry,
      Schema.eq_of_constBool hretry']
    rfl
  obtain ⟨state, hstate, hstate'⟩ := get?_of_schema h.schema "state" (.enum Schemas.TaskClosure.appendStates) (by simp [attemptProperties])
  obtain ⟨next, hnext, hnext'⟩ := get?_of_schema h.schema "permitted_next_step" (.enum Schemas.TaskClosure.nextSteps) (by simp [attemptProperties])
  obtain ⟨eventId, heventId, -⟩ := get?_of_schema h.schema "event_id" (Schemas.TaskClosure.eventId) (by simp [attemptProperties])
  obtain ⟨stateText, rfl⟩ := Schema.eq_str_of_enum hstate'
  obtain ⟨nextText, rfl⟩ := Schema.eq_str_of_enum hnext'
  have hitem : document.sortKeys.item (str "event_id") = .ok eventId.sortKeys := by
    rw [Json.item_eq_ok, Json.get?_sortKeys hwf, heventId, Option.map_some]
  have hnull := eventId_sortKeys hwf hitem
  unfold verifyAppendAttemptReceipt
  rw [hfreeze, ok_bind, hvalid, ok_bind, attemptIdentity_sortKeys hobj hwf, hidentity, ok_bind,
    htext hattemptId, ok_bind, ensure_of rfl, ok_bind, hflag, ok_bind, ensure_of rfl, ok_bind,
    htext hstate, ok_bind, raising_eq_ok.2 hitem, ok_bind, htext hnext, ok_bind]
  by_cases hmem : stateText ∈ confirmedAppendStates
  · obtain ⟨hevent, hnone⟩ := h.confirmed stateText hmem hstate
    rw [hnext] at hnone
    cases hnone
    rw [if_pos hmem, ensure_of ⟨fun hzero => hevent (hnull.2 hzero), rfl⟩]
    rfl
  · have hevent := h.unconfirmed stateText hmem hstate
    rw [if_neg hmem, ensure_of (hnull.1 hevent)]
    rfl

/-! ## The table -/

/-- What a document says about an attempt. -/
structure Reads (document : Json) (uid request : Str) (sent received : Bool)
    (outcome : Outcome) : Prop where
  eventUid : document.get? (str "event_uid") = some (.str uid)
  requestSha256 : document.get? (str "request_sha256") = some (.str request)
  requestSent : document.get? (str "request_sent") = some (.bool sent)
  responseReceived : document.get? (str "response_received") = some (.bool received)
  state : document.get? (str "state") = some (.str (str outcome.state))
  serverOutcome : document.get? (str "server_outcome") = some outcome.serverOutcome
  eventId : document.get? (str "event_id") = some outcome.eventId
  reconciliation : document.get? (str "reconciliation") = some outcome.reconciliation
  firstRequest : document.get? (str "first_request_allowed") =
    some (.bool (outcome.state == "not-started"))
  nextStep : document.get? (str "permitted_next_step") = some (.str (str outcome.nextStep))
  createAttempted : ∃ boundary, document.get? (str "authority_boundary") = some boundary ∧
    boundary.get? (str "event_create_attempted") = some (.bool sent)

/-- A reconciliation of one event and request, with its number of matches. -/
def BoundReconciliation (eventUid requestSha256 : Str) (matchCount : Int) (eventId : Json)
    (reconciliation : Json) : Prop :=
  ∃ frozen, verifyEventUidReconciliation reconciliation = .ok frozen ∧
    frozen.get? (str "event_uid") = some (.str eventUid) ∧
    frozen.get? (str "request_sha256") = some (.str requestSha256) ∧
    frozen.get? (str "match_count") = some (.int matchCount) ∧
    frozen.get? (str "event_id") = some eventId

/-- The rows of the table: what may stand beside the two transport flags. -/
inductive Row (eventUid requestSha256 : Str) : Bool → Bool → Outcome → Prop
  | notStarted :
      Row eventUid requestSha256 false false ⟨"not-started", .null, .null, .null, "send-once"⟩
  | unknownOutcome (received : Bool) :
      Row eventUid requestSha256 true received
        ⟨"unknown-outcome", .null, .null, .null, "reconcile-by-event-uid"⟩
  | created {eventId : Int} (h : 1 ≤ eventId) :
      Row eventUid requestSha256 true true
        ⟨"confirmed-created", .str (str "created"), .int eventId, .null, "none"⟩
  | duplicate {eventId : Int} (h : 1 ≤ eventId) :
      Row eventUid requestSha256 true true
        ⟨"confirmed-duplicate", .str (str "duplicate"), .int eventId, .null, "none"⟩
  | reconciledCreated (received : Bool) {eventId : Int} {reconciliation : Json}
      (h : BoundReconciliation eventUid requestSha256 1 (.int eventId) reconciliation) :
      Row eventUid requestSha256 true received
        ⟨"reconciled-created", .null, .int eventId, reconciliation, "none"⟩
  | reconciledAbsent (received : Bool) {reconciliation : Json}
      (h : BoundReconciliation eventUid requestSha256 0 .null reconciliation) :
      Row eventUid requestSha256 true received
        ⟨"reconciled-absent", .null, .null, reconciliation, "owner-decision-required"⟩

/-- The document is a row of the table, for an event uid and a request digest in full. -/
def Tabled (document : Json) : Prop :=
  ∃ eventUid requestSha256 sent received outcome, eventUidBody eventUid = true ∧
    sha256Body requestSha256 = true ∧ Row eventUid requestSha256 sent received outcome ∧
      Reads document eventUid requestSha256 sent received outcome

/-- Some arguments make the builder return the document; key order does not count. -/
def Built (document : Json) : Prop :=
  ∃ arguments receipt, buildAppendAttemptReceipt arguments = .ok receipt ∧
    receipt.sortKeys = document.sortKeys

namespace Row

variable {eventUid requestSha256 : Str} {sent received : Bool} {outcome : Outcome}

theorem serverOutcome_leaf (h : Row eventUid requestSha256 sent received outcome) :
    outcome.serverOutcome.Leaf := by
  cases h <;> trivial

theorem eventId_leaf (h : Row eventUid requestSha256 sent received outcome) :
    outcome.eventId.Leaf := by
  cases h <;> trivial

theorem reorder (h : Row eventUid requestSha256 sent received outcome) {reconciliation : Json}
    (hsame : reconciliation.sortKeys = outcome.reconciliation.sortKeys) :
    Row eventUid requestSha256 sent received { outcome with reconciliation } := by
  have hverify := verifyEventUidReconciliation_congr hsame
  cases h with
  | notStarted =>
    cases Json.eq_of_sortKeys_leaf (w := .null) trivial hsame
    exact .notStarted
  | unknownOutcome received =>
    cases Json.eq_of_sortKeys_leaf (w := .null) trivial hsame
    exact .unknownOutcome received
  | created h =>
    cases Json.eq_of_sortKeys_leaf (w := .null) trivial hsame
    exact .created h
  | duplicate h =>
    cases Json.eq_of_sortKeys_leaf (w := .null) trivial hsame
    exact .duplicate h
  | reconciledCreated received h =>
    obtain ⟨frozen, hfrozen, hbound⟩ := h
    exact .reconciledCreated received ⟨frozen, hverify.trans hfrozen, hbound⟩
  | reconciledAbsent received h =>
    obtain ⟨frozen, hfrozen, hbound⟩ := h
    exact .reconciledAbsent received ⟨frozen, hverify.trans hfrozen, hbound⟩

theorem confirmed_iff (h : Row eventUid requestSha256 sent received outcome) :
    str outcome.state ∈ confirmedAppendStates ↔ outcome.eventId ≠ .null := by
  cases h <;> simp [confirmedAppendStates, str_inj]

theorem nextStep_of_confirmed (h : Row eventUid requestSha256 sent received outcome)
    (hstate : str outcome.state ∈ confirmedAppendStates) : outcome.nextStep = "none" := by
  cases h <;> simp_all [confirmedAppendStates, str_inj]

theorem sent_of_received (h : Row eventUid requestSha256 sent received outcome) :
    received = true → sent = true := by
  cases h <;> simp

end Row

/-! ## What the builder returns -/

omit [UnicodeData] in
theorem text_of_isOutcome {w : Json} (h : isOutcome w = .ok true) :
    w = .str (str "created") ∨ w = .str (str "duplicate") := by
  cases w with
  | str text =>
    rw [isOutcome, Except.ok.injEq, Bool.or_eq_true, beq_iff_eq, beq_iff_eq] at h
    exact h.imp (congrArg Json.str) (congrArg Json.str)
  | _ => simp [isOutcome] at h

variable {received sent : Bool} {eventId : Int} {document receipt v : Json} {outcome : Outcome}
  {request text uid : Str}

omit [UnicodeData] in
theorem outcome_of_validatedAppendReceipt {outcome : Str}
    (h : validatedAppendReceipt receipt uid request = .ok (outcome, eventId)) :
    (outcome = str "created" ∨ outcome = str "duplicate") ∧ 1 ≤ eventId := by
  unfold validatedAppendReceipt at h
  dsimp only at h
  obtain ⟨frozen, -, h⟩ := bind_eq_ok.1 h
  obtain ⟨-, h⟩ := ensure_bind_eq_ok.1 h
  obtain ⟨-, h⟩ := ensure_bind_eq_ok.1 h
  obtain ⟨known, hknown, h⟩ := bind_eq_ok.1 h
  obtain ⟨htrue, h⟩ := ensure_bind_eq_ok.1 h
  rw [htrue] at hknown
  have htext := text_of_isOutcome hknown
  split at h
  · rename_i text id hget hid
    split_ifs at h with hpositive
    cases h
    rw [hget] at htext
    exact ⟨htext.imp Json.str.inj Json.str.inj, hpositive⟩
  · cases h

theorem row_of_classify {appendReceipt reconciliation : Option Document}
    (hsent : received = true → sent = true)
    (h : classify uid request sent received appendReceipt reconciliation = .ok outcome) :
    Row uid request sent received outcome ∧ outcome.reconciliation.wf = true := by
  cases appendReceipt with
  | some receipt =>
    simp only [classify] at h
    obtain ⟨⟨hsent, hreceived⟩, h⟩ := ensure_bind_eq_ok.1 h
    obtain ⟨⟨text, eventId⟩, hreceipt, h⟩ := bind_eq_ok.1 h
    rw [hsent, hreceived]
    obtain ⟨htext, hpositive⟩ := outcome_of_validatedAppendReceipt hreceipt
    cases h
    rcases htext with rfl | rfl
    · exact ⟨.created hpositive, rfl⟩
    · exact ⟨.duplicate hpositive, rfl⟩
  | none =>
    cases reconciliation with
    | none =>
      simp only [classify] at h
      cases sent with
      | true =>
        cases h
        exact ⟨.unknownOutcome received, rfl⟩
      | false =>
        cases h
        have hreceived : received = false := Bool.eq_false_iff.2 fun ht => by
          exact absurd (hsent ht) Bool.false_ne_true
        rw [hreceived]
        exact ⟨.notStarted, rfl⟩
    | some evidence =>
      simp only [classify] at h
      obtain ⟨hstarted, h⟩ := ensure_bind_eq_ok.1 h
      rw [hstarted]
      obtain ⟨frozen, hfrozen, h⟩ := bind_eq_ok.1 h
      obtain ⟨-, hsort⟩ := frozen_of_verifyEventUidReconciliation evidence.wf hfrozen
      have hwf : frozen.wf = true := hsort ▸ Json.wf_sortKeys evidence.wf
      have hagain : verifyEventUidReconciliation frozen = .ok frozen := by
        rw [← hfrozen]
        exact verifyEventUidReconciliation_congr (hsort ▸ Json.sortKeys_sortKeys _)
      obtain ⟨boundUid, huid, h⟩ := bind_eq_ok.1 h
      obtain ⟨boundRequest, hrequest, h⟩ := bind_eq_ok.1 h
      obtain ⟨⟨hu, hr⟩, h⟩ := ensure_bind_eq_ok.1 h
      rw [hu, raising_eq_ok, Json.textItem_eq_ok] at huid
      rw [hr, raising_eq_ok, Json.textItem_eq_ok] at hrequest
      obtain ⟨matchCount, hcount, h⟩ := bind_eq_ok.1 h
      rw [raising_eq_ok, Json.intItem_eq_ok] at hcount
      obtain ⟨hbound, hrule⟩ := counts_of_verify hagain hcount
      split_ifs at h with hone
      · obtain ⟨eventId, heventId, h⟩ := bind_eq_ok.1 h
        rw [raising_eq_ok, Json.intItem_eq_ok] at heventId
        cases h
        exact ⟨.reconciledCreated received
          ⟨frozen, hagain, huid, hrequest, hone ▸ hcount, heventId⟩, hwf⟩
      · cases h
        have hzero : matchCount = 0 := hbound.resolve_right hone
        exact ⟨.reconciledAbsent received
          ⟨frozen, hagain, huid, hrequest, hzero ▸ hcount, hrule hone⟩, hwf⟩

omit [UnicodeData] in
theorem requireText_eq_ok {body : Str → Bool} {value : Json} {field : String} :
    requireText body value field = .ok text ↔ value = .str text ∧ body text = true := by
  unfold requireText
  cases value with
  | str s =>
    simp only [Json.str.injEq]
    split_ifs with hbody
    · rw [Except.ok.injEq]
      constructor
      · rintro rfl
        exact ⟨rfl, hbody⟩
      · exact fun h => h.1
    · simp only [false_iff]
      rintro ⟨rfl, htrue⟩
      exact hbody htrue
  | _ => simp

/-- The receipt of an outcome under an identity. -/
def attemptFields (uid request : Str) (sent received : Bool) (outcome : Outcome)
    (attemptId : Str) : List (String × Json) :=
  attemptCore uid request sent received outcome ++ [("attempt_id", .str attemptId)]

theorem build_eq_ok {arguments : AttemptArguments}
    (h : buildAppendAttemptReceipt arguments = .ok receipt) :
    ∃ uid request sent received outcome attemptId, eventUidBody uid = true ∧
      sha256Body request = true ∧ Row uid request sent received outcome ∧
      outcome.reconciliation.wf = true ∧
      attemptIdentity (.fields (attemptCore uid request sent received outcome)) = .ok attemptId ∧
      receipt = .fields (attemptFields uid request sent received outcome attemptId) ∧
      appendAttemptReceipt.accepts receipt = true := by
  unfold buildAppendAttemptReceipt at h
  obtain ⟨uid, huid, h⟩ := bind_eq_ok.1 h
  obtain ⟨request, hrequest, h⟩ := bind_eq_ok.1 h
  obtain ⟨⟨sent, received⟩, -, h⟩ := bind_eq_ok.1 h
  obtain ⟨hsent, h⟩ := ensure_bind_eq_ok.1 h
  obtain ⟨-, h⟩ := ensure_bind_eq_ok.1 h
  obtain ⟨-, h⟩ := ensure_bind_eq_ok.1 h
  obtain ⟨outcome, hclassify, h⟩ := bind_eq_ok.1 h
  obtain ⟨attemptId, hidentity, h⟩ := bind_eq_ok.1 h
  obtain ⟨_, hvalid, h⟩ := bind_eq_ok.1 h
  cases h
  obtain ⟨hrow, hwf⟩ := row_of_classify hsent hclassify
  exact ⟨uid, request, sent, received, outcome, attemptId, (requireText_eq_ok.1 huid).2,
    (requireText_eq_ok.1 hrequest).2, hrow, hwf, hidentity, rfl, validated_eq_ok.1 hvalid⟩

omit [UnicodeData] in
theorem wf_attemptFields (uid request attemptId : Str) (sent received : Bool) {outcome : Outcome}
    (hserver : outcome.serverOutcome.Leaf) (hevent : outcome.eventId.Leaf)
    (hwf : outcome.reconciliation.wf = true) :
    (Json.fields (attemptFields uid request sent received outcome attemptId)).wf = true := by
  apply Json.wf_fields
  · have hkeys : (attemptFields uid request sent received outcome attemptId).map Prod.fst =
        ["protocol", "event_uid", "request_sha256", "request_sent", "response_received", "state",
          "server_outcome", "event_id", "reconciliation", "first_request_allowed",
          "automatic_retry_allowed", "permitted_next_step", "privacy_boundary",
          "authority_boundary", "attempt_id"] := rfl
    rw [hkeys]
    decide
  · simp only [attemptFields, attemptCore, List.cons_append, List.nil_append,
      List.forall_mem_cons, List.not_mem_nil, false_implies, implies_true, and_true]
    refine ⟨rfl, rfl, rfl, rfl, rfl, rfl, Json.wf_of_leaf hserver, Json.wf_of_leaf hevent, hwf,
      rfl, rfl, rfl, ?_, ?_, rfl⟩
    · decide
    · cases sent <;> decide

theorem reads_of_sortKeys_eq {attemptId : Str} (hwf : document.wf = true)
    (hrow : Row uid request sent received outcome) (hevidence : outcome.reconciliation.wf = true)
    (h : document.sortKeys =
      (Json.fields (attemptFields uid request sent received outcome attemptId)).sortKeys) :
    document.get? (str "attempt_id") = some (.str attemptId) ∧
      ∃ reconciliation, reconciliation.sortKeys = outcome.reconciliation.sortKeys ∧
        Reads document uid request sent received { outcome with reconciliation } := by
  have hwf' := wf_attemptFields uid request attemptId sent received hrow.serverOutcome_leaf
    hrow.eventId_leaf hevidence
  have hleaf : ∀ {key : String} {w : Json}, w.Leaf →
      (attemptFields uid request sent received outcome attemptId).lookup key = some w →
        document.get? (str key) = some w := by
    intro key w hleaf hlookup
    exact Json.get?_leaf_of_sortKeys_eq hwf hwf' h hleaf ((Json.get?_fields _ _).trans hlookup)
  have hinner : ∀ (key : String) {w : Json},
      (attemptFields uid request sent received outcome attemptId).lookup key = some w →
        ∃ u, document.get? (str key) = some u ∧ u.sortKeys = w.sortKeys := by
    intro key w hlookup
    have hsame := Json.map_get?_of_sortKeys_eq hwf hwf' h (str key)
    rw [Json.get?_fields, hlookup, Option.map_some, Option.map_eq_some_iff] at hsame
    exact hsame
  obtain ⟨boundary, hboundary, hsort⟩ := hinner "authority_boundary" rfl
  obtain ⟨reconciliation, hreconciliation, hsame⟩ := hinner "reconciliation" rfl
  have hattempted : boundary.get? (str "event_create_attempted") = some (.bool sent) := by
    have hflags : (flagsObject (attemptAuthority sent)).wf = true := by cases sent <;> decide
    apply Json.get?_leaf_of_sortKeys_eq (Json.wf_of_get? hwf hboundary) hflags hsort
      (x := .bool sent) trivial
    rw [flagsObject, Json.get?_fields]
    rfl
  refine ⟨hleaf trivial rfl, reconciliation, hsame, ?_⟩
  exact
    { eventUid := hleaf trivial rfl
      requestSha256 := hleaf trivial rfl
      requestSent := hleaf trivial rfl
      responseReceived := hleaf trivial rfl
      state := hleaf trivial rfl
      serverOutcome := hleaf hrow.serverOutcome_leaf rfl
      eventId := hleaf hrow.eventId_leaf rfl
      reconciliation := hreconciliation
      firstRequest := hleaf trivial rfl
      nextStep := hleaf trivial rfl
      createAttempted := ⟨boundary, hboundary, hattempted⟩ }

theorem encodable_of_identity {head domain : String}
    (hhead : (Json.str (str head)).encodable = true)
    (h : identity document head domain = .ok text) :
    document.encodable = true ∧ (Json.str text).encodable = true := by
  unfold identity at h
  obtain ⟨digest, hdigest, h⟩ := bind_eq_ok.1 h
  cases h
  obtain ⟨payload, hpayload, rfl⟩ := digestObject_eq_ok (raising_eq_ok.1 hdigest)
  refine ⟨encodable_of_canonicalBytes hpayload, ?_⟩
  rw [Schemas.afterColon_sha256Digest]
  have hhex := (Schemas.ascii_of_hex (sha256 (digestPrefix (str domain) ++ payload))).encodable
  simp only [Json.encodable, List.any_append, Bool.not_or, Bool.and_eq_true] at hhead hhex ⊢
  exact ⟨hhead, hhex⟩

theorem recognized_of_built (hwf : document.wf = true)
    (h : Built document) : Recognized document ∧ Tabled document := by
  obtain ⟨arguments, receipt, hbuild, hsort⟩ := h
  obtain ⟨uid, request, sent, received, outcome, attemptId, huid, hrequest, hrow, hevidence,
    hidentity, rfl, hschema⟩ := build_eq_ok hbuild
  have hwf' := wf_attemptFields uid request attemptId sent received hrow.serverOutcome_leaf
    hrow.eventId_leaf hevidence
  obtain ⟨hattemptId, reconciliation, hsame, hreads⟩ :=
    reads_of_sortKeys_eq hwf hrow hevidence hsort.symm
  have hrow' := hrow.reorder hsame
  have haccepts : appendAttemptReceipt.accepts document = true := by
    rw [← Schema.accepts_sortKeys _ hwf, ← hsort, Schema.accepts_sortKeys _ hwf']
    exact hschema
  have hcore : attemptIdentity (document.pop (str "attempt_id")) = .ok attemptId := by
    rw [← hidentity]
    apply identity_congr
    rw [Json.sortKeys_pop_congr (Schema.isObj_of_closed haccepts) (Json.isObj_fields _) hwf hwf'
      hsort.symm, Json.pop_fields]
    rfl
  have hencodable : document.encodable = true := by
    obtain ⟨hinner, htext⟩ := encodable_of_identity (by decide) hidentity
    rw [← Json.encodable_sortKeys, ← hsort, Json.encodable_sortKeys]
    simp only [Json.fields, Json.encodable, Json.encodableMembers_iff] at hinner ⊢
    simp only [attemptFields, List.map_append, List.forall_mem_append]
    refine ⟨hinner, ?_⟩
    rintro m hm
    obtain rfl := List.mem_singleton.1 hm
    exact ⟨any_isSurrogate_str _, htext⟩
  refine ⟨⟨hencodable, haccepts, ⟨attemptId, hattemptId, hcore⟩, ?_, ?_⟩,
    uid, request, sent, received, _, huid, hrequest, hrow', hreads⟩
  · intro state hstate hget
    rw [hreads.state] at hget
    cases hget
    have hevent := hrow'.confirmed_iff.1 hstate
    rw [hreads.eventId, hreads.nextStep, hrow'.nextStep_of_confirmed hstate]
    exact ⟨fun hnull => hevent (Option.some.inj hnull), rfl⟩
  · intro state hstate hget
    rw [hreads.state] at hget
    cases hget
    rw [hreads.eventId]
    exact congrArg some (by_contra fun hevent => hstate (hrow'.confirmed_iff.2 hevent))

/-! ## Arguments for a row -/

omit [UnicodeData] in
theorem hasKeys_fields (fs : List (String × Json)) (keys : List String) :
    hasKeys (.fields fs) keys =
      (fs.all (fun f => keys.contains f.1) && keys.all fun key => (fs.lookup key).isSome) := by
  show ((fs.map fun f => (str f.1, f.2)).all (fun m => (keys.map str).contains m.1)
    && keys.all fun key => ((Json.fields fs).get? (str key)).isSome) = _
  simp only [Json.get?_fields, List.all_map]
  congr 1
  apply List.all_congr rfl
  intro f
  apply Bool.eq_iff_iff.2
  simp only [Function.comp, List.contains_iff_mem]
  exact List.mem_map_of_injective str_injective

/-- A receipt of the server. -/
def serverReceipt (uid request : Str) (eventId : Int) (outcome : String) : Json :=
  .fields
    [("event_id", .int eventId),
      ("event_uid", .str uid),
      ("observed_utc", .null),
      ("outcome", .str (str outcome)),
      ("protocol", .str clientAppendReceiptProtocol),
      ("request_sha256", .str request),
      ("source_label", .null)]

omit [UnicodeData] in
theorem wf_serverReceipt (uid request : Str) (eventId : Int) (outcome : String) :
    (serverReceipt uid request eventId outcome).wf = true := by
  apply Json.wf_fields
  · show ["event_id", "event_uid", "observed_utc", "outcome", "protocol", "request_sha256",
      "source_label"].Nodup
    decide
  · simp only [List.forall_mem_cons, List.not_mem_nil, false_implies, implies_true, and_true]
    exact ⟨rfl, rfl, rfl, rfl, rfl, rfl, rfl⟩

omit [UnicodeData] in
theorem validated_serverReceipt {outcome : String}
    (huid : (Json.str uid).encodable = true) (hrequest : (Json.str request).encodable = true)
    (houtcome : outcome = "created" ∨ outcome = "duplicate") (hpositive : 1 ≤ eventId) :
    validatedAppendReceipt (serverReceipt uid request eventId outcome) uid request =
      .ok (str outcome, eventId) := by
  have hwf := wf_serverReceipt uid request eventId outcome
  have htext : ∀ s : String, (Json.str (str s)).encodable = true := by
    intro s
    rw [Json.encodable, any_isSurrogate_str]
    rfl
  have hencodable : (serverReceipt uid request eventId outcome).encodable = true := by
    apply Json.encodable_fields
    simp only [List.forall_mem_cons, List.not_mem_nil, false_implies, implies_true, and_true]
    exact ⟨rfl, huid, rfl, htext outcome, by decide, hrequest, rfl⟩
  have hsorted : (serverReceipt uid request eventId outcome).sortKeys =
      serverReceipt uid request eventId outcome := by
    simp only [serverReceipt, Json.fields, List.map_cons, List.map_nil, Json.sortKeys,
      Json.sortMembers]
    rfl
  have hfreeze := (freeze_eq_ok "server append receipt" hwf).2
    ⟨Json.isObj_fields _, hencodable, hsorted.symm⟩
  have hknown : isOutcome (.str (str outcome)) = .ok true := by
    rcases houtcome with rfl | rfl <;> rfl
  unfold validatedAppendReceipt
  rw [hfreeze, ok_bind]
  dsimp only
  have hget : ∀ (key : String) (w : Json), (serverReceipt uid request eventId outcome).get?
      (str key) = some w → ((serverReceipt uid request eventId outcome).get?
        (str key)).getD .null = w := by
    intro key w h
    rw [h, Option.getD_some]
  have hprotocol := hget "protocol" (.str clientAppendReceiptProtocol)
    (by rw [serverReceipt, Json.get?_fields]; rfl)
  have hboundUid := hget "event_uid" (.str uid)
    (by rw [serverReceipt, Json.get?_fields]; rfl)
  have hboundRequest := hget "request_sha256" (.str request)
    (by rw [serverReceipt, Json.get?_fields]; rfl)
  have hboundOutcome := hget "outcome" (.str (str outcome))
    (by rw [serverReceipt, Json.get?_fields]; rfl)
  have hboundEvent := hget "event_id" (.int eventId)
    (by rw [serverReceipt, Json.get?_fields]; rfl)
  have hkeys : hasKeys (serverReceipt uid request eventId outcome) appendReceiptKeys = true := by
    rw [serverReceipt, hasKeys_fields]
    rfl
  rw [ensure_of ⟨hkeys, hprotocol⟩, ok_bind, ensure_of ⟨hboundUid, hboundRequest⟩, ok_bind,
    hboundOutcome, hknown, ok_bind, ensure_of rfl, ok_bind, hboundEvent]
  exact if_pos hpositive

/-- The outcome with the reconciliation as it is frozen. -/
def sorted (outcome : Outcome) : Outcome :=
  { outcome with reconciliation := outcome.reconciliation.sortKeys }

/-- Every row has evidence from which the builder classifies it. -/
theorem evidence_of_row
    (hrow : Row uid request sent received outcome) (hwf : outcome.reconciliation.wf = true)
    (huid : (Json.str uid).encodable = true) (hrequest : (Json.str request).encodable = true) :
    ∃ appendReceipt reconciliation,
      (sent = false → appendReceipt.isNone = true ∧ reconciliation.isNone = true) ∧
      (appendReceipt.isNone = true ∨ reconciliation.isNone = true) ∧
      classify uid request sent received appendReceipt reconciliation =
        .ok (sorted outcome) := by
  cases hrow with
  | notStarted => exact ⟨none, none, fun _ => ⟨rfl, rfl⟩, .inl rfl, rfl⟩
  | unknownOutcome => exact ⟨none, none, fun _ => ⟨rfl, rfl⟩, .inl rfl, rfl⟩
  | @created eventId h =>
    refine ⟨some ⟨_, wf_serverReceipt uid request eventId "created"⟩, none, nofun, .inr rfl, ?_⟩
    unfold classify
    dsimp only
    rw [ensure_of ⟨rfl, rfl⟩, ok_bind, validated_serverReceipt huid hrequest (.inl rfl) h,
      ok_bind]
    rfl
  | @duplicate eventId h =>
    refine ⟨some ⟨_, wf_serverReceipt uid request eventId "duplicate"⟩, none, nofun, .inr rfl, ?_⟩
    unfold classify
    dsimp only
    rw [ensure_of ⟨rfl, rfl⟩, ok_bind, validated_serverReceipt huid hrequest (.inr rfl) h,
      ok_bind]
    rfl
  | @reconciledCreated _ eventId reconciliation h =>
    obtain ⟨frozen, hfrozen, hboundUid, hboundRequest, hcount, heventId⟩ := h
    have hsort := (frozen_of_verifyEventUidReconciliation hwf hfrozen).2
    refine ⟨none, some ⟨reconciliation, hwf⟩, nofun, .inl rfl, ?_⟩
    unfold classify
    dsimp only
    rw [ensure_of rfl, ok_bind, hfrozen, ok_bind,
      raising_eq_ok.2 (Json.textItem_eq_ok.2 hboundUid), ok_bind,
      raising_eq_ok.2 (Json.textItem_eq_ok.2 hboundRequest), ok_bind, ensure_of ⟨rfl, rfl⟩,
      ok_bind, raising_eq_ok.2 (Json.intItem_eq_ok.2 hcount), ok_bind, if_pos rfl,
      raising_eq_ok.2 (Json.intItem_eq_ok.2 heventId), ok_bind, hsort]
    rfl
  | @reconciledAbsent _ reconciliation h =>
    obtain ⟨frozen, hfrozen, hboundUid, hboundRequest, hcount, -⟩ := h
    have hsort := (frozen_of_verifyEventUidReconciliation hwf hfrozen).2
    refine ⟨none, some ⟨reconciliation, hwf⟩, nofun, .inl rfl, ?_⟩
    unfold classify
    dsimp only
    rw [ensure_of rfl, ok_bind, hfrozen, ok_bind,
      raising_eq_ok.2 (Json.textItem_eq_ok.2 hboundUid), ok_bind,
      raising_eq_ok.2 (Json.textItem_eq_ok.2 hboundRequest), ok_bind, ensure_of ⟨rfl, rfl⟩,
      ok_bind, raising_eq_ok.2 (Json.intItem_eq_ok.2 hcount), ok_bind, if_neg (by decide), hsort]
    rfl

omit [UnicodeData] in
theorem sortKeys_of_flags {fs : List (String × Bool)} (hnodup : (fs.map Prod.fst).Nodup)
    (hwf : v.wf = true) (h : (Schemas.flags fs).accepts v = true) :
    v.sortKeys = (flagsObject fs).sortKeys := by
  apply Json.sortKeys_eq_fields (Schema.isObj_of_closed h) hwf
  · apply Json.wf_fields
    · rwa [List.map_map]
    · intro f hf
      obtain ⟨_, -, rfl⟩ := List.mem_map.1 hf
      rfl
  · intro key w hw
    obtain ⟨p, hp, hkey⟩ := Schema.mem_properties_of_closed h hw
    obtain ⟨f, hf, rfl⟩ := List.mem_map.1 hp
    exact ⟨_, List.mem_map_of_mem hf, hkey⟩
  · intro g hg
    obtain ⟨f, hf, rfl⟩ := List.mem_map.1 hg
    obtain ⟨w, hw, haccepts⟩ := Schema.get?_of_closed h (List.mem_map_of_mem hf)
      (List.mem_map_of_mem (f := fun f : String × Bool => (f.1, Schema.constBool f.2)) hf)
    rw [hw, Schema.eq_of_constBool haccepts]
    rfl

omit [UnicodeData] in
theorem sortKeys_of_attemptAuthority (hwf : v.wf = true)
    (h : Schemas.TaskClosure.attemptAuthority.accepts v = true)
    (hsent : v.get? (str "event_create_attempted") = some (.bool sent)) :
    v.sortKeys = (flagsObject (attemptAuthority sent)).sortKeys := by
  have hfalse : ∀ {key : String}, key ∈ ["event_create_attempted", "event_update",
      "event_delete", "event_import", "event_overwrite", "bulk_write",
      "production_authority"] → (key, Schema.constBool false) ∈
        [("event_create_attempted", Schema.ofType .boolean),
          ("event_update", .constBool false), ("event_delete", .constBool false),
          ("event_import", .constBool false), ("event_overwrite", .constBool false),
          ("bulk_write", .constBool false), ("production_authority", .constBool false)] →
      (v.get? (str key)).map Json.sortKeys = some (Json.bool false).sortKeys := by
    intro key hkey hproperty
    obtain ⟨w, hw, haccepts⟩ := Schema.get?_of_closed h hkey hproperty
    rw [hw, Schema.eq_of_constBool haccepts]
    rfl
  apply Json.sortKeys_eq_fields (Schema.isObj_of_closed h) hwf
  · cases sent <;> decide
  · intro key w hw
    obtain ⟨p, hp, hkey⟩ := Schema.mem_properties_of_closed h hw
    have hname : p.1 ∈ (attemptAuthority sent).map Prod.fst := List.mem_map_of_mem (f := Prod.fst) hp
    obtain ⟨f, hf, hf'⟩ := List.mem_map.1 hname
    exact ⟨_, List.mem_map_of_mem hf, hf' ▸ hkey⟩
  · simp only [attemptAuthority, List.map_cons, List.map_nil, List.forall_mem_cons,
      List.not_mem_nil, false_implies, implies_true, and_true]
    refine ⟨by rw [hsent]; rfl, ?_, ?_, ?_, ?_, ?_, ?_⟩
    all_goals exact hfalse (by simp) (by simp)

omit [UnicodeData] in
/-- The rules of the verifier leave no freedom beside what the document says. -/
theorem sortKeys_eq_attemptFields {attemptId : Str}
    (hwf : document.wf = true)
    (hschema : appendAttemptReceipt.accepts document = true)
    (hserver : outcome.serverOutcome.Leaf) (hevent : outcome.eventId.Leaf)
    (hreads : Reads document uid request sent received outcome)
    (hattemptId : document.get? (str "attempt_id") = some (.str attemptId)) :
    document.sortKeys =
      (Json.fields (attemptFields uid request sent received (sorted outcome) attemptId)).sortKeys := by
  have hevidence : outcome.reconciliation.sortKeys.wf = true :=
    Json.wf_sortKeys (Json.wf_of_get? hwf hreads.reconciliation)
  obtain ⟨protocol, hprotocol, hprotocol'⟩ := get?_of_schema hschema "protocol" (.const "integrity-guardian/action-log-append-attempt-receipt/v1") (by simp [attemptProperties])
  obtain ⟨retry, hretry, hretry'⟩ := get?_of_schema hschema "automatic_retry_allowed" (.constBool false) (by simp [attemptProperties])
  obtain ⟨privacy, hprivacy, hprivacy'⟩ := get?_of_schema hschema "privacy_boundary" (Schemas.flags Schemas.TaskClosure.privacyBoundary) (by simp [attemptProperties])
  obtain ⟨authority, hauthority, hauthority'⟩ := get?_of_schema hschema
    "authority_boundary" (Schemas.TaskClosure.attemptAuthority) (by simp [attemptProperties])
  obtain ⟨boundary, hboundary, hsent⟩ := hreads.createAttempted
  rw [hauthority] at hboundary
  cases hboundary
  have hwf' : (Json.fields (attemptFields uid request sent received (sorted outcome)
      attemptId)).wf = true :=
    wf_attemptFields uid request attemptId sent received hserver hevent hevidence
  apply Json.sortKeys_eq_fields (Schema.isObj_of_closed hschema) hwf hwf'
  · intro key w hw
    obtain ⟨p, hp, hkey⟩ := Schema.mem_properties_of_closed hschema hw
    have hname : p.1 ∈ attemptProperties.map Prod.fst := List.mem_map_of_mem hp
    have hcovers : ∀ name ∈ attemptProperties.map Prod.fst, name ∈
        (attemptFields uid request sent received (sorted outcome) attemptId).map Prod.fst := by
      show ∀ name ∈ attemptProperties.map Prod.fst, name ∈
        ["protocol", "event_uid", "request_sha256", "request_sent", "response_received", "state",
          "server_outcome", "event_id", "reconciliation", "first_request_allowed",
          "automatic_retry_allowed", "permitted_next_step", "privacy_boundary",
          "authority_boundary", "attempt_id"]
      simp [attemptProperties]
    obtain ⟨f, hf, hf'⟩ := List.mem_map.1 (hcovers p.1 hname)
    exact ⟨f, hf, hf' ▸ hkey⟩
  · simp only [attemptFields, attemptCore, sorted, List.cons_append, List.nil_append,
      List.forall_mem_cons, List.not_mem_nil, false_implies, implies_true, and_true,
      hreads.eventUid, hreads.requestSha256, hreads.requestSent, hreads.responseReceived,
      hreads.state, hreads.serverOutcome, hreads.eventId, hreads.reconciliation,
      hreads.firstRequest, hreads.nextStep, hprotocol, hretry, hprivacy, hauthority, hattemptId,
      Option.map_some, Option.some.injEq, Json.sortKeys_sortKeys, true_and,
      Schema.eq_of_const hprotocol', Schema.eq_of_constBool hretry']
    exact ⟨sortKeys_of_flags (by decide) (Json.wf_of_get? hwf hprivacy) hprivacy',
      sortKeys_of_attemptAuthority (Json.wf_of_get? hwf hauthority) hauthority' hsent⟩

theorem built_of_tabled (hwf : document.wf = true)
    (hrecognized : Recognized document) (h : Tabled document) : Built document := by
  obtain ⟨uid, request, sent, received, outcome, huid, hrequest, hrow, hreads⟩ := h
  obtain ⟨attemptId, hattemptId, hidentity⟩ := hrecognized.identity
  have hevidence := Json.wf_of_get? hwf hreads.reconciliation
  have hobj := Schema.isObj_of_closed hrecognized.schema
  have hencodable : ∀ {key w}, document.get? key = some w → w.encodable = true := fun hget =>
    Json.encodable_of_get? hrecognized.encodable hget
  obtain ⟨appendReceipt, reconciliation, hunsent, hsingle, hclassify⟩ :=
    evidence_of_row hrow hevidence (hencodable hreads.eventUid) (hencodable hreads.requestSha256)
  have hsort := sortKeys_eq_attemptFields hwf hrecognized.schema hrow.serverOutcome_leaf
    hrow.eventId_leaf hreads hattemptId
  have hwf' : (Json.fields (attemptFields uid request sent received (sorted outcome)
      attemptId)).wf = true :=
    wf_attemptFields uid request attemptId sent received hrow.serverOutcome_leaf
      hrow.eventId_leaf (Json.wf_sortKeys hevidence)
  have hcore : attemptIdentity (.fields (attemptCore uid request sent received
      (sorted outcome))) = .ok attemptId := by
    rw [← hidentity]
    apply identity_congr
    rw [Json.sortKeys_pop_congr hobj (Json.isObj_fields _) hwf hwf' hsort, Json.pop_fields]
    rfl
  have hvalid : appendAttemptReceipt.accepts (.fields (attemptFields uid request sent received
      (sorted outcome) attemptId)) = true := by
    rw [← Schema.accepts_sortKeys _ hwf', ← hsort, Schema.accepts_sortKeys _ hwf]
    exact hrecognized.schema
  refine ⟨⟨.str uid, .str request, .bool sent, .bool received, appendReceipt, reconciliation⟩,
    _, ?_, hsort.symm⟩
  unfold buildAppendAttemptReceipt
  rw [show requireEventUid (.str uid) = .ok uid from requireText_eq_ok.2 ⟨rfl, huid⟩, ok_bind,
    show requireHexDigest (.str request) "request SHA-256" = .ok request from
      requireText_eq_ok.2 ⟨rfl, hrequest⟩, ok_bind]
  simp only [transportFlags]
  rw [ok_bind, ensure_of hrow.sent_of_received, ok_bind, ensure_of hunsent, ok_bind,
    ensure_of hsingle, ok_bind, hclassify, ok_bind, hcore, ok_bind]
  exact bind_eq_ok.2 ⟨(), validated_eq_ok.2 hvalid, rfl⟩

/-! ## Agreement -/

/-- The request was sent, and the server or a reconciliation of the same event and request
confirmed it. -/
def Confirmed (document : Json) : Prop :=
  ∃ uid request, document.get? (str "event_uid") = some (.str uid) ∧
    document.get? (str "request_sha256") = some (.str request) ∧
    document.get? (str "request_sent") = some (.bool true) ∧
    ((document.get? (str "response_received") = some (.bool true) ∧
        ∃ text, document.get? (str "server_outcome") = some (.str text)) ∨
      ∃ eventId reconciliation, document.get? (str "reconciliation") = some reconciliation ∧
        BoundReconciliation uid request 1 eventId reconciliation)

theorem confirmed_of_tabled (h : Tabled document) {state : Str}
    (hget : document.get? (str "state") = some (.str state))
    (hstate : state ∈ confirmedAppendStates) : Confirmed document := by
  obtain ⟨uid, request, sent, received, outcome, -, -, hrow, hreads⟩ := h
  have hsame : state = str outcome.state := by
    rw [hreads.state] at hget
    exact (Json.str.inj (Option.some.inj hget)).symm
  rw [hsame] at hstate
  have hevent := hrow.confirmed_iff.1 hstate
  refine ⟨uid, request, hreads.eventUid, hreads.requestSha256, ?_⟩
  cases hrow with
  | notStarted => exact absurd rfl hevent
  | unknownOutcome => exact absurd rfl hevent
  | created => exact ⟨hreads.requestSent, .inl ⟨hreads.responseReceived, _, hreads.serverOutcome⟩⟩
  | duplicate =>
    exact ⟨hreads.requestSent, .inl ⟨hreads.responseReceived, _, hreads.serverOutcome⟩⟩
  | reconciledCreated received hbound =>
    exact ⟨hreads.requestSent, .inr ⟨_, _, hreads.reconciliation, hbound⟩⟩
  | reconciledAbsent => exact absurd rfl hevent

section
variable [Ed25519Keys]

theorem attempt_of_closure {instructions : List Json} {evidenceDigest completedAt : Str}
    {document closure : Json} {ownerKey : TrustedKey} (hwf : document.wf = true)
    (h : buildTaskClosureReceipt instructions evidenceDigest completedAt document ownerKey =
      .ok closure) :
    Recognized document ∧ ∃ state ∈ confirmedAppendStates,
      document.get? (str "state") = some (.str state) := by
  unfold buildTaskClosureReceipt at h
  obtain ⟨event, -, h⟩ := bind_eq_ok.1 h
  obtain ⟨attempt, hattempt, h⟩ := bind_eq_ok.1 h
  obtain ⟨hrecognized, rfl⟩ := recognized_of_verify hwf hattempt
  obtain ⟨state, hstate, h⟩ := bind_eq_ok.1 h
  rw [raising_eq_ok, Json.textItem_sortKeys hwf, Json.textItem_eq_ok] at hstate
  obtain ⟨hmem, -⟩ := ensure_bind_eq_ok.1 h
  exact ⟨hrecognized, state, hmem, hstate⟩

/-- Builder and verifier agree on a document, and a closure that names it rests on a confirmed
request, exactly when the verifier's own rules only pass a row of the table. -/
theorem append_attempts_agree_iff (document : Document) :
    (((∃ frozen, verifyAppendAttemptReceipt document.value = .ok frozen) ↔
        Built document.value) ∧
      ∀ instructions evidenceDigest completedAt ownerKey closure,
        buildTaskClosureReceipt instructions evidenceDigest completedAt document.value ownerKey =
          .ok closure → Confirmed document.value) ↔
    (Recognized document.value → Tabled document.value) := by
  constructor
  · rintro ⟨hagree, -⟩ hrecognized
    have haccepted := verify_of_recognized document.wf hrecognized
    exact (recognized_of_built document.wf (hagree.1 ⟨_, haccepted⟩)).2
  · intro htable
    refine ⟨⟨?_, ?_⟩, ?_⟩
    · rintro ⟨frozen, hfrozen⟩
      have hrecognized := (recognized_of_verify document.wf hfrozen).1
      exact built_of_tabled document.wf hrecognized (htable hrecognized)
    · intro hbuilt
      exact ⟨_, verify_of_recognized document.wf (recognized_of_built document.wf hbuilt).1⟩
    · intro instructions evidenceDigest completedAt ownerKey closure hclosure
      obtain ⟨hrecognized, state, hstate, hget⟩ := attempt_of_closure document.wf hclosure
      exact confirmed_of_tabled (htable hrecognized) hget hstate

end

end

/-! ## A forged attempt -/

namespace Forged

/-- A request that was never sent, in a confirmed state. -/
def core : List (String × Json) :=
  attemptCore (str "client:abcdefgh")
    (str "0000000000000000000000000000000000000000000000000000000000000000") false false
    ⟨"confirmed-created", .null, .int 1, .null, "none"⟩

def attemptId : Str :=
  match @attemptIdentity asciiUnicodeData (.fields core) with
  | .ok text => text
  | .error _ => []

def attempt : Document where
  value := .fields (core ++ [("attempt_id", .str attemptId)])
  wf := @wf_attemptFields _ _ _ _ _
    ⟨"confirmed-created", .null, .int 1, .null, "none"⟩ trivial trivial rfl

theorem attemptId_eq : ∃ payload, attemptId = str "action-log-append-attempt:" ++
    hex (sha256 payload) ∧ @attemptIdentity asciiUnicodeData (.fields core) = .ok attemptId := by
  let _ := asciiUnicodeData
  have hencodable : (Json.fields core).encodable = true := by decide
  have hdomain : validateDomain (str "action-log-append-attempt-v1") = .ok () :=
    validateDomain_of_ascii (by decide) (by decide)
  obtain ⟨payload, hpayload⟩ := Schemas.digestObject_of_encodable hencodable hdomain
  have hidentity : attemptIdentity (.fields core) =
      .ok (str "action-log-append-attempt:" ++ hex (sha256 payload)) := by
    rw [attemptIdentity, identity, hpayload]
    rfl
  have hid : attemptId = str "action-log-append-attempt:" ++ hex (sha256 payload) := by
    unfold attemptId
    rw [hidentity]
  exact ⟨payload, hid, hidentity.trans (congrArg Except.ok hid.symm)⟩

theorem accepts_attempt : appendAttemptReceipt.accepts attempt.value = true := by
  obtain ⟨payload, hid, -⟩ := attemptId_eq
  have hattemptId : (Schemas.matching (Schemas.hashBody "action-log-append-attempt:")).accepts
      (.str attemptId) = true :=
    Schemas.accepts_matching_of (hid ▸ Schemas.hashBody_append_hex _ payload)
  refine Schema.accepts_closed_fields.2 ⟨?_, ?_, ?_⟩
  · show ∀ f ∈ core ++ [("attempt_id", Json.str attemptId)], _
    simp [core, attemptCore, attemptProperties]
  · show ∀ key ∈ attemptProperties.map Prod.fst,
      ((core ++ [("attempt_id", Json.str attemptId)]).lookup key).isSome = true
    simp [core, attemptCore, attemptProperties, List.lookup_cons]
  · simp only [attemptProperties, List.forall_mem_cons, List.not_mem_nil, false_implies,
      implies_true, and_true]
    refine ⟨Schema.accepts_of_lookup rfl (by decide), Schema.accepts_of_lookup rfl hattemptId,
      Schema.accepts_of_lookup rfl (by decide), Schema.accepts_of_lookup rfl (by decide),
      Schema.accepts_of_lookup rfl (by decide), Schema.accepts_of_lookup rfl (by decide),
      Schema.accepts_of_lookup rfl (by decide), Schema.accepts_of_lookup rfl (by decide),
      Schema.accepts_of_lookup rfl (by decide), Schema.accepts_of_lookup rfl (by decide),
      Schema.accepts_of_lookup rfl (by decide), Schema.accepts_of_lookup rfl (by decide),
      Schema.accepts_of_lookup rfl (by decide), Schema.accepts_of_lookup rfl (by decide),
      Schema.accepts_of_lookup rfl (by decide)⟩

theorem recognized_attempt : @Recognized asciiUnicodeData attempt.value := by
  let _ := asciiUnicodeData
  obtain ⟨payload, hid, hidentity⟩ := attemptId_eq
  have hget : ∀ (key : String) {w : Json},
      (core ++ [("attempt_id", Json.str attemptId)]).lookup key = some w →
        attempt.value.get? (str key) = some w := by
    intro key w h
    exact (Json.get?_fields _ _).trans h
  have hstate := hget "state" rfl
  refine ⟨?_, accepts_attempt, ⟨attemptId, hget "attempt_id" rfl, ?_⟩, ?_, ?_⟩
  · apply Json.encodable_fields
    rw [List.forall_mem_append]
    refine ⟨by decide, ?_⟩
    rintro f hf
    obtain rfl := List.mem_singleton.1 hf
    have hhead : Schemas.Ascii (str "action-log-append-attempt:") := by decide
    exact hid ▸ (hhead.append (Schemas.ascii_of_hex _)).encodable
  · rw [← hidentity]
    exact congrArg attemptIdentity (Json.pop_fields _ _)
  · intro state _ _
    rw [hget "event_id" rfl, hget "permitted_next_step" rfl]
    exact ⟨nofun, rfl⟩
  · intro state hout hsame
    rw [hstate] at hsame
    cases hsame
    exact absurd (by decide) hout

/-- The verifier accepts the forged attempt, and no arguments build it. -/
theorem attempt_only_verified :
    (∃ frozen, @verifyAppendAttemptReceipt asciiUnicodeData attempt.value = .ok frozen) ∧
      ¬@Built asciiUnicodeData attempt.value := by
  let _ := asciiUnicodeData
  refine ⟨⟨_, verify_of_recognized attempt.wf recognized_attempt⟩, fun hbuilt => ?_⟩
  obtain ⟨uid, request, sent, received, outcome, -, -, hrow, hreads⟩ :=
    (recognized_of_built attempt.wf hbuilt).2
  have hsent : attempt.value.get? (str "request_sent") = some (.bool false) :=
    Json.get?_fields _ _
  have hstate : attempt.value.get? (str "state") = some (.str (str "confirmed-created")) :=
    Json.get?_fields _ _
  rw [hreads.requestSent] at hsent
  rw [hreads.state] at hstate
  cases hsent
  cases hrow
  exact absurd (Json.str.inj (Option.some.inj hstate)) (by decide)

end Forged

end IntegrityGuardian.TaskClosure
