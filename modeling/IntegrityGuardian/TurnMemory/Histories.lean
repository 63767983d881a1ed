import IntegrityGuardian.TurnMemory.Store

/-!
# Histories of the turn-memory store

What holds of the tables after any sequence of transactions, whoever makes them.
A stored receipt was verified before it was inserted, or is a policy the store
signed itclient, so that reading it again never fails.
-/

namespace IntegrityGuardian.TurnMemory

open Python Library
open Schemas.TurnMemory (intentBody uuidBody noEventReasons gapStages)

/-! ## Stored receipts -/

variable {receipt : Json} {core : List (String × Json)}

theorem decode_canonicalBytes {receiptJson : Bytes} (hobj : receipt.IsObj)
    (hwf : receipt.wf = true) (h : canonicalBytes receipt = .ok receiptJson) :
    decode receiptJson = .ok receipt.sortKeys := by
  have hread : Json.loadsBytes receiptJson = .ok receipt.sortKeys :=
    parseJsonStrict_canonicalBytes hwf h
  obtain ⟨members, hmembers⟩ := hobj.sortKeys
  rw [decode, hread, hmembers]
  rfl

theorem signedReceipt_eq_ok [Ed25519] {domain : String}
    {signer : Ed25519Signer} (hid : "receipt_id" ∉ core.map Prod.fst)
    (hsignature : "signature" ∉ core.map Prod.fst)
    (h : signedReceipt (.fields core) domain signer = .ok receipt) :
    ∃ receiptId payload, digest (.fields core) domain = .ok receiptId ∧
      signaturePayload (.fields (core ++ [("receipt_id", .str receiptId)])) = .ok payload ∧
      receipt = .fields (core ++ [("receipt_id", .str receiptId),
        ("signature", signatureObject signer.keyId (signer.signBytes payload))]) := by
  obtain ⟨receiptId, hdigest, h⟩ := bind_eq_ok.1 h
  rw [Json.set_fields hid] at h
  have hfresh : "signature" ∉ (core ++ [("receipt_id", Json.str receiptId)]).map Prod.fst := by
    rw [List.map_append, List.mem_append]
    rintro (hmem | hmem)
    · exact hsignature hmem
    · simp at hmem
  unfold Ed25519Signer.sign at h
  obtain ⟨payload, hpayload, h⟩ := bind_eq_ok.1 h
  rw [Json.set_fields hfresh, List.append_assoc] at h
  exact ⟨receiptId, payload, hdigest, hpayload, (Except.ok.inj h).symm⟩

theorem wf_signatureObject (keyId value : Str) : (signatureObject keyId value).wf = true := by
  have hfields : signatureObject keyId value =
      .fields [("algorithm", .str (str "ed25519")), ("key_id", .str keyId),
        ("value", .str value)] := rfl
  rw [hfields]
  apply Json.wf_fields
  · simp
  · intro f hf
    simp only [List.mem_cons, List.not_mem_nil, or_false] at hf
    rcases hf with rfl | rfl | rfl <;> rfl

/-- A display that can be signed: its keys are distinct and leave room for the two that
signing adds. -/
structure Unsigned (core : List (String × Json)) : Prop where
  nodup : (core.map Prod.fst).Nodup
  receiptId : "receipt_id" ∉ core.map Prod.fst
  signature : "signature" ∉ core.map Prod.fst
  wf : ∀ f ∈ core, f.2.wf = true

theorem Unsigned.wf_signed (h : Unsigned core) (receiptId keyId value : Str) :
    (Json.fields (core ++ [("receipt_id", .str receiptId),
      ("signature", signatureObject keyId value)])).wf = true := by
  apply Json.wf_fields
  · rw [List.map_append, List.nodup_append]
    refine ⟨h.nodup, by simp, ?_⟩
    intro key hkey other hother heq
    simp only [List.map_cons, List.map_nil, List.mem_cons, List.not_mem_nil, or_false] at hother
    rcases hother with rfl | rfl
    · exact h.receiptId (heq ▸ hkey)
    · exact h.signature (heq ▸ hkey)
  · intro f hf
    rcases List.mem_append.1 hf with hf | hf
    · exact h.wf f hf
    · simp only [List.mem_cons, List.not_mem_nil, or_false] at hf
      rcases hf with rfl | rfl
      · rfl
      · exact wf_signatureObject keyId value

namespace TurnMemoryStore

variable [Ed25519Keys]

/-- A stored receipt that verifies. -/
structure Stored (client : TurnMemoryStore) (kind : Kind) (receiptJson : Bytes)
    (receipt : Json) : Prop where
  decoded : decode receiptJson = .ok receipt
  wf : receipt.wf = true
  encodable : receipt.encodable = true
  verified : ProfileVerified client.identityProfile client.signer.trustedKey kind receipt

variable {receiptJson : Bytes} {call : Call} {clock : Instant} {generation : Int}
  {identity receipt registration : Json} {kind : Kind} {intentId : Option Str} {outcome : Outcome}
  {row : RegistrationRow} {reply : Reply} {mode registrationId stage : Str} {t t' : Tables}
  {turn : TurnIdentity} {client : TurnMemoryStore}

theorem stored_of_verified (hwf : receipt.wf = true)
    (hverified : ProfileVerified client.identityProfile client.signer.trustedKey kind receipt)
    (hbytes : canonicalBytes receipt = .ok receiptJson) :
    client.Stored kind receiptJson receipt.sortKeys where
  decoded := decode_canonicalBytes (Json.isObj_of_get? hverified.verified.protocol) hwf hbytes
  wf := Json.wf_sortKeys hwf
  encodable := by rw [Json.encodable_sortKeys]; exact encodable_of_canonicalBytes hbytes
  verified := hverified.sortKeys hwf

theorem stored_of_signed {core : List (String × Json)} {verified : Json} (hcore : Unsigned core)
    (hsigned : signedReceipt (.fields core) kind.form.idDomain client.signer = .ok receipt)
    (hverified : client.verifyProfile kind receipt = .ok verified)
    (hbytes : canonicalBytes verified = .ok receiptJson) :
    ∃ stored receiptId, client.Stored kind receiptJson stored ∧
      (∀ key w, core.lookup key = some w → stored.get? (str key) = some w.sortKeys) ∧
      stored.get? (str "receipt_id") = some (.str receiptId) ∧
      verified.get? (str "receipt_id") = some (.str receiptId) := by
  obtain ⟨rfl, hprofile⟩ := verifyProfileReceipt_eq_ok.1 hverified
  obtain ⟨receiptId, payload, -, -, rfl⟩ :=
    signedReceipt_eq_ok hcore.receiptId hcore.signature hsigned
  have hwf := hcore.wf_signed receiptId client.signer.keyId (client.signer.signBytes payload)
  have hid : (Json.fields (core ++ [("receipt_id", .str receiptId), ("signature",
      signatureObject client.signer.keyId (client.signer.signBytes payload))])).get?
        (str "receipt_id") = some (.str receiptId) := by
    have hnone : core.lookup "receipt_id" = none := by
      rw [List.lookup_eq_none_iff]
      intro f hf
      exact bne_iff_ne.2 fun heq => hcore.receiptId (heq ▸ List.mem_map_of_mem hf)
    rw [Json.get?_fields, List.lookup_append, hnone, Option.none_or]
    rfl
  refine ⟨_, receiptId, stored_of_verified hwf hprofile hbytes, ?_, get?_text_sortKeys hwf hid,
    hid⟩
  intro key w hlookup
  rw [Json.get?_sortKeys hwf, Json.get?_fields, List.lookup_append, hlookup]
  rfl

theorem Stored.verify {client : TurnMemoryStore} {kind : Kind} {receiptJson : Bytes}
    {receipt : Json} (h : client.Stored kind receiptJson receipt) :
    client.verifyProfile kind receipt = .ok receipt :=
  verifyProfileReceipt_eq_ok.2 ⟨rfl, h.verified⟩

/-- The receipt of a registration row. -/
structure Registers (client : TurnMemoryStore) (row : RegistrationRow) (receipt turn : Json) :
    Prop where
  stored : client.Stored .registration row.receiptJson receipt
  receiptId : receipt.get? (str "receipt_id") = some (.str row.registrationId)
  fingerprint : receipt.get? (str "namespace_fingerprint") = some (.str client.namespaceFingerprint)
  prompt : receipt.get? (str "prompt_sha256") = some (.str row.promptSha256)
  identity : receipt.get? (str "identity") = some turn
  machineId : turn.get? (str "machine_id") = some (.str row.machineId)
  threadId : turn.get? (str "thread_id") = some (.str row.threadId)
  turnId : turn.get? (str "turn_id") = some (.str row.turnId)
  intentId : (textMember turn "intent_id").getD [] = row.intentId
  column : row.namespaceFingerprint = client.namespaceFingerprint
  legacy : client.identityProfile = .legacy → row.intentId = []

theorem Registers.verifyRow (h : client.Registers row receipt identity) :
    client.verifyRegistrationRow row = .ok receipt := by
  unfold verifyRegistrationRow
  refine bind_eq_ok.2 ⟨receipt, h.stored.decoded, ?_⟩
  refine bind_eq_ok.2 ⟨receipt, h.stored.verify, ?_⟩
  refine bind_eq_ok.2 ⟨identity, mapError_eq_ok.2 (Json.item_eq_ok.2 h.identity), ?_⟩
  refine bind_eq_ok.2 ⟨_, mapError_eq_ok.2 (Json.textItem_eq_ok.2 h.receiptId), ?_⟩
  refine bind_eq_ok.2 ⟨_, mapError_eq_ok.2 (Json.textItem_eq_ok.2 h.fingerprint), ?_⟩
  refine bind_eq_ok.2 ⟨_, mapError_eq_ok.2 (Json.textItem_eq_ok.2 h.machineId), ?_⟩
  refine bind_eq_ok.2 ⟨_, mapError_eq_ok.2 (Json.textItem_eq_ok.2 h.threadId), ?_⟩
  refine bind_eq_ok.2 ⟨_, mapError_eq_ok.2 (Json.textItem_eq_ok.2 h.turnId), ?_⟩
  exact ensure_bind_eq_ok.2 ⟨⟨rfl, rfl, rfl, rfl, rfl, h.intentId⟩, rfl⟩

/-- A receipt about a registration: its row's identifier, identity and prompt. -/
structure Joins (client : TurnMemoryStore) (kind : Kind) (receiptJson : Bytes)
    (row : RegistrationRow) (turn receipt : Json) : Prop where
  stored : client.Stored kind receiptJson receipt
  registrationId : receipt.get? (str "registration_id") = some (.str row.registrationId)
  fingerprint : receipt.get? (str "namespace_fingerprint") = some (.str client.namespaceFingerprint)
  identity : ∃ joined, receipt.get? (str "identity") = some joined ∧ sameDict joined turn
  prompt : receipt.get? (str "prompt_sha256") = some (.str row.promptSha256)

theorem Joins.verifyJoin (h : client.Joins kind receiptJson row identity receipt)
    (hrow : client.Registers row registration identity) (message : String) :
    client.verifyJoin message receipt registration row.registrationId = .ok () := by
  obtain ⟨joined, hjoined, hsame⟩ := h.identity
  unfold TurnMemoryStore.verifyJoin
  refine bind_eq_ok.2 ⟨_, mapError_eq_ok.2 (Json.textItem_eq_ok.2 h.registrationId), ?_⟩
  refine bind_eq_ok.2 ⟨_, mapError_eq_ok.2 (Json.textItem_eq_ok.2 h.fingerprint), ?_⟩
  refine bind_eq_ok.2 ⟨_, mapError_eq_ok.2 (Json.item_eq_ok.2 hjoined), ?_⟩
  refine bind_eq_ok.2 ⟨_, mapError_eq_ok.2 (Json.item_eq_ok.2 hrow.identity), ?_⟩
  refine bind_eq_ok.2 ⟨_, mapError_eq_ok.2 (Json.textItem_eq_ok.2 h.prompt), ?_⟩
  refine bind_eq_ok.2 ⟨_, mapError_eq_ok.2 (Json.textItem_eq_ok.2 hrow.prompt), ?_⟩
  exact ensure_eq_ok.2 ⟨rfl, rfl, hsame, rfl⟩

/-- The request digest of a terminal row is that of the request its receipt answers. -/
def Answers (terminal : TerminalRow) (receipt : Json) : Prop :=
  ∃ outcome fields, receipt.get? (str "outcome") = some (.str outcome) ∧
    requestFields receipt outcome = .ok fields ∧
    digest (.fields (("registration_id", .str terminal.registrationId) :: fields))
      "turn-memory-terminal-request-v1" = .ok terminal.requestDigest

/-- The receipt of a policy row. -/
structure Policy (client : TurnMemoryStore) (row : PolicyRow) (receipt : Json) : Prop where
  decoded : decode row.receiptJson = .ok receipt
  verified : Verified creationPolicyForm client.signer.trustedKey receipt
  fingerprint : receipt.get? (str "namespace_fingerprint") =
    some (.str client.namespaceFingerprint)
  generation : receipt.get? (str "generation") = some (.int row.generation)

/-! ## New rows -/

omit [Ed25519Keys] in
theorem wf_toJson (turn : TurnIdentity) : turn.toJson.wf = true := by
  unfold TurnIdentity.toJson
  split
  · apply Json.wf_fields
    · simp
    · intro f hf
      simp only [List.append_nil, List.mem_cons, List.not_mem_nil, or_false] at hf
      rcases hf with rfl | rfl | rfl <;> rfl
  · apply Json.wf_fields
    · simp
    · intro f hf
      simp only [List.cons_append, List.nil_append, List.mem_cons, List.not_mem_nil,
        or_false] at hf
      rcases hf with rfl | rfl | rfl | rfl <;> rfl

omit [Ed25519Keys] in
theorem textMember_toJson (turn : TurnIdentity) :
    (textMember turn.toJson "intent_id").getD [] = turn.intentId := by
  unfold textMember TurnIdentity.toJson
  rw [Json.get?_fields]
  split
  · rename_i s hs
    split at hs
    · cases hs
    · have hfound : some (Json.str turn.intentId) = some (Json.str s) := hs
      cases hfound
      rfl
  · rename_i hnone
    split at hnone
    · rename_i hempty
      exact hempty.symm
    · exact absurd rfl (hnone turn.intentId)

omit [Ed25519Keys] in
theorem insertRegistration_eq_ok (h : t.insertRegistration row = .ok t') :
    t' = { t with registrations := t.registrations ++ [row] } ∧
      (∀ r ∈ t.registrations, r.registrationId ≠ row.registrationId) ∧
      ∀ r ∈ t.registrations, r.identity ≠ row.identity := by
  obtain ⟨hid, h⟩ := ensure_bind_eq_ok.1 h
  obtain ⟨hidentity, h⟩ := ensure_bind_eq_ok.1 h
  exact ⟨(Except.ok.inj h).symm, hid, hidentity⟩

/-- What `open_turn` inserts for an identity without a row. -/
theorem createRegistration_eq_ok {prompt openedAt : Str}
    (hlegacy : client.identityProfile = .legacy → turn.intentId = [])
    (h : client.createRegistration turn prompt openedAt t = .ok (reply, t')) :
    client.creationFence t = .ok () ∧ ∃ row receipt turn',
      t' = { t with registrations := t.registrations ++ [row] } ∧
      (∀ r ∈ t.registrations, r.registrationId ≠ row.registrationId) ∧
      (∀ r ∈ t.registrations, r.identity ≠ row.identity) ∧ row.promptSha256 = prompt ∧
      client.Registers row receipt turn' := by
  unfold createRegistration at h
  obtain ⟨⟨⟩, hfence, h⟩ := bind_eq_ok.1 h
  obtain ⟨receipt, hsigned, h⟩ := bind_eq_ok.1 h
  obtain ⟨verified, hverified, h⟩ := bind_eq_ok.1 h
  obtain ⟨receiptId, hreceiptId, h⟩ := bind_eq_ok.1 h
  obtain ⟨receiptJson, hbytes, h⟩ := bind_eq_ok.1 h
  obtain ⟨inserted, hinserted, h⟩ := bind_eq_ok.1 h
  cases h
  rw [raising, mapError_eq_ok] at hsigned hreceiptId hbytes
  have hcore : Unsigned (client.registrationCore turn prompt openedAt) := {
    nodup := by simp [registrationCore]
    receiptId := by simp [registrationCore]
    signature := by simp [registrationCore]
    wf := by
      intro f hf
      simp only [registrationCore, List.mem_cons, List.not_mem_nil, or_false] at hf
      rcases hf with rfl | rfl | rfl | rfl | rfl | rfl | rfl
      all_goals first | rfl | exact wf_toJson turn }
  obtain ⟨stored, identifier, hstored, hget, hid, hid'⟩ :=
    stored_of_signed hcore hsigned hverified hbytes
  have hsame : identifier = receiptId := by
    rw [Json.textItem_eq_ok, hid'] at hreceiptId
    exact Json.str.inj (Option.some.inj hreceiptId)
  obtain ⟨rfl, hfresh, hidentity⟩ := insertRegistration_eq_ok hinserted
  have hturn := wf_toJson turn
  refine ⟨hfence, _, stored, turn.toJson.sortKeys, rfl, hfresh, hidentity, rfl, ?_⟩
  exact {
    stored := hstored
    receiptId := hsame ▸ hid
    fingerprint := hget "namespace_fingerprint" (.str client.namespaceFingerprint) rfl
    prompt := hget "prompt_sha256" (.str prompt) rfl
    identity := hget "identity" turn.toJson rfl
    machineId := get?_text_sortKeys hturn (Json.get?_fields _ _)
    threadId := get?_text_sortKeys hturn (Json.get?_fields _ _)
    turnId := get?_text_sortKeys hturn (Json.get?_fields _ _)
    intentId := by rw [textMember_sortKeys hturn, textMember_toJson]
    column := rfl
    legacy := hlegacy }

omit [Ed25519Keys] in
theorem wf_events (references : List EventReference) :
    (Json.arr (references.map EventReference.toJson)).wf = true := by
  show Json.wfItems _ = true
  rw [Json.wfItems_iff]
  intro v hv
  obtain ⟨e, -, rfl⟩ := List.mem_map.1 hv
  apply Json.wf_fields
  · simp
  · intro f hf
    simp only [List.mem_cons, List.not_mem_nil, or_false] at hf
    rcases hf with rfl | rfl | rfl <;> rfl

omit [Ed25519Keys] in
theorem terminalRequestDigest_eq {fields : List (String × Json)}
    (h : fields.map (fun f => (f.1, f.2.sortKeys)) =
      (("outcome", Json.str (str outcome.text)) :: outcome.fields).map
        fun f => (f.1, f.2.sortKeys)) :
    digest (.fields (("registration_id", .str registrationId) :: fields))
        "turn-memory-terminal-request-v1" =
      terminalRequestDigest registrationId outcome.text outcome.fields := by
  have hsorted : ∀ fs : List (String × Json), (Json.fields fs).sortKeys =
      (Json.fields (fs.map fun f => (f.1, f.2.sortKeys))).sortKeys := by
    intro fs
    have hmembers : ∀ ms : List (Str × Json),
        Json.sortMembers (ms.map fun m => (m.1, m.2.sortKeys)) = Json.sortMembers ms := by
      intro ms
      induction ms with
      | nil => rfl
      | cons m ms ih => simp [Json.sortMembers, ih, Json.sortKeys_sortKeys]
    simp only [Json.fields, Json.sortKeys, List.map_map]
    rw [← hmembers (fs.map fun f => (str f.1, f.2)), List.map_map]
    rfl
  apply digest_congr
  rw [hsorted, hsorted (_ ++ _), List.map_cons, h]
  rfl

/-- The outcome of a call, as its stored receipt tells it. -/
def Records (outcome : Outcome) (receipt : Json) : Prop :=
  receipt.get? (str "outcome") = some (.str (str outcome.text)) ∧
    ∀ f ∈ outcome.fields, receipt.get? (str f.1) = some f.2.sortKeys

/-- What `close_turn` inserts for a registration without a terminal receipt. -/
theorem createTerminal_eq_ok {requestDigest closedAt : Str} {turn : Json}
    (hrow : client.Registers row registration turn)
    (hrequest : terminalRequestDigest row.registrationId outcome.text outcome.fields =
      .ok requestDigest)
    (h : client.createTerminal row.registrationId requestDigest closedAt outcome registration t =
      .ok (reply, t')) :
    ∃ terminal receipt, t' = { t with terminals := t.terminals ++ [terminal] } ∧
      (∀ r ∈ t.terminals, r.registrationId ≠ terminal.registrationId) ∧
      terminal.registrationId = row.registrationId ∧
      client.Joins .terminalReceipt terminal.receiptJson row turn receipt ∧
      Records outcome receipt ∧ Answers terminal receipt := by
  unfold createTerminal at h
  obtain ⟨identity, hidentity, h⟩ := bind_eq_ok.1 h
  obtain ⟨prompt, hprompt, h⟩ := bind_eq_ok.1 h
  obtain ⟨receipt, hsigned, h⟩ := bind_eq_ok.1 h
  obtain ⟨verified, hverified, h⟩ := bind_eq_ok.1 h
  obtain ⟨receiptJson, hbytes, h⟩ := bind_eq_ok.1 h
  obtain ⟨inserted, hinserted, h⟩ := bind_eq_ok.1 h
  cases h
  rw [raising, mapError_eq_ok] at hidentity hprompt hsigned hbytes
  have hturn : identity = turn := by
    rw [Json.item_eq_ok, hrow.identity] at hidentity
    exact (Option.some.inj hidentity).symm
  have hsame : prompt = row.promptSha256 := by
    rw [Json.textItem_eq_ok, hrow.prompt] at hprompt
    exact (Json.str.inj (Option.some.inj hprompt)).symm
  subst hturn hsame
  have hwfTurn := Json.wf_of_get? hrow.stored.wf hrow.identity
  have hcore : Unsigned (client.terminalCore row.registrationId row.promptSha256 closedAt identity
      outcome) := by
    cases outcome with
    | events references =>
      exact {
        nodup := by simp [terminalCore, Outcome.fields]
        receiptId := by simp [terminalCore, Outcome.fields]
        signature := by simp [terminalCore, Outcome.fields]
        wf := by
          intro f hf
          simp only [terminalCore, Outcome.fields, List.cons_append, List.nil_append,
            List.mem_cons, List.not_mem_nil, or_false] at hf
          rcases hf with rfl | rfl | rfl | rfl | rfl | rfl | rfl | rfl | rfl
          all_goals first | rfl | exact hwfTurn | exact wf_events references }
    | noEvent reason =>
      exact {
        nodup := by simp [terminalCore, Outcome.fields]
        receiptId := by simp [terminalCore, Outcome.fields]
        signature := by simp [terminalCore, Outcome.fields]
        wf := by
          intro f hf
          simp only [terminalCore, Outcome.fields, List.cons_append, List.nil_append,
            List.mem_cons, List.not_mem_nil, or_false] at hf
          rcases hf with rfl | rfl | rfl | rfl | rfl | rfl | rfl | rfl | rfl
          all_goals first | rfl | exact hwfTurn }
  obtain ⟨stored, identifier, hstored, hget, -, -⟩ :=
    stored_of_signed hcore hsigned hverified hbytes
  obtain ⟨hfresh, hinserted⟩ := ensure_bind_eq_ok.1 hinserted
  cases hinserted
  have houtcome : stored.get? (str "outcome") = some (.str (str outcome.text)) :=
    hget "outcome" (.str (str outcome.text)) rfl
  refine ⟨⟨row.registrationId, requestDigest, receiptJson⟩, stored, rfl, hfresh, rfl, {
    stored := hstored
    registrationId := hget "registration_id" (.str row.registrationId) rfl
    fingerprint := hget "namespace_fingerprint" (.str client.namespaceFingerprint) rfl
    identity := ⟨_, hget "identity" identity rfl, Json.sortKeys_sortKeys identity⟩
    prompt := hget "prompt_sha256" (.str row.promptSha256) rfl }, ⟨houtcome, ?_⟩, ?_⟩
  · intro f hf
    cases outcome with
    | events references =>
      obtain rfl := List.mem_singleton.1 hf
      exact hget "events" _ rfl
    | noEvent reason =>
      obtain rfl := List.mem_singleton.1 hf
      exact hget "no_event_reason" _ rfl
  · cases outcome with
    | events references =>
      refine ⟨str "events", [("outcome", .str (str "events")),
        ("events", (Json.arr (references.map EventReference.toJson)).sortKeys)], houtcome, ?_, ?_⟩
      · rw [requestFields, if_pos rfl, Json.item_eq_ok.2 (hget "events" _ rfl)]
        rfl
      · rw [← hrequest]
        apply terminalRequestDigest_eq
        simp [Outcome.fields, Outcome.text, Json.sortKeys_sortKeys]
    | noEvent reason =>
      refine ⟨str "no-event", [("outcome", .str (str "no-event")),
        ("no_event_reason", .str reason)], houtcome, ?_, ?_⟩
      · rw [requestFields, if_neg events_ne_noEvent, if_pos rfl,
          Json.item_eq_ok.2 (hget "no_event_reason" _ rfl)]
        rfl
      · rw [← hrequest]
        apply terminalRequestDigest_eq
        rfl

/-- What `observe_gap` inserts for a gap that is not recorded yet. -/
theorem createGap_eq_ok {requestDigest observedAt : Str} {turn : Json}
    (hrow : client.Registers row registration turn)
    (h : client.createGap row.registrationId requestDigest stage observedAt registration t =
      .ok (reply, t')) : ∃ gap receipt, t' = { t with gaps := t.gaps ++ [gap] } ∧
      gap.registrationId = row.registrationId ∧
      client.Joins .gapReceipt gap.receiptJson row turn receipt := by
  unfold createGap at h
  obtain ⟨identity, hidentity, h⟩ := bind_eq_ok.1 h
  obtain ⟨prompt, hprompt, h⟩ := bind_eq_ok.1 h
  obtain ⟨receipt, hsigned, h⟩ := bind_eq_ok.1 h
  obtain ⟨verified, hverified, h⟩ := bind_eq_ok.1 h
  obtain ⟨receiptId, -, h⟩ := bind_eq_ok.1 h
  obtain ⟨receiptJson, hbytes, h⟩ := bind_eq_ok.1 h
  obtain ⟨inserted, hinserted, h⟩ := bind_eq_ok.1 h
  cases h
  rw [raising, mapError_eq_ok] at hidentity hprompt hsigned hbytes
  have hturn : identity = turn := by
    rw [Json.item_eq_ok, hrow.identity] at hidentity
    exact (Option.some.inj hidentity).symm
  have hsame : prompt = row.promptSha256 := by
    rw [Json.textItem_eq_ok, hrow.prompt] at hprompt
    exact (Json.str.inj (Option.some.inj hprompt)).symm
  subst hturn hsame
  have hwfTurn := Json.wf_of_get? hrow.stored.wf hrow.identity
  have hcore : Unsigned (client.gapCore row.registrationId row.promptSha256 stage observedAt
      identity) := {
    nodup := by simp [gapCore]
    receiptId := by simp [gapCore]
    signature := by simp [gapCore]
    wf := by
      intro f hf
      simp only [gapCore, List.mem_cons, List.not_mem_nil, or_false] at hf
      rcases hf with rfl | rfl | rfl | rfl | rfl | rfl | rfl | rfl | rfl | rfl
      all_goals first | rfl | exact hwfTurn }
  obtain ⟨stored, identifier, hstored, hget, -, -⟩ :=
    stored_of_signed hcore hsigned hverified hbytes
  obtain ⟨-, hinserted⟩ := ensure_bind_eq_ok.1 hinserted
  obtain ⟨-, hinserted⟩ := ensure_bind_eq_ok.1 hinserted
  cases hinserted
  exact ⟨_, stored, rfl, rfl, {
    stored := hstored
    registrationId := hget "registration_id" (.str row.registrationId) rfl
    fingerprint := hget "namespace_fingerprint" (.str client.namespaceFingerprint) rfl
    identity := ⟨_, hget "identity" identity rfl, Json.sortKeys_sortKeys identity⟩
    prompt := hget "prompt_sha256" (.str row.promptSha256) rfl }⟩

/-! ## Policies -/

theorem isBase64url_ne_nil {signer : Ed25519Signer} (h : signer.Lawful) (payload : Bytes) :
    1 ≤ (signer.signBytes payload).length := by
  rw [Ed25519Signer.signBytes, length_base64url, h.length]
  omega

/-- A policy the store signed itself verifies. -/
theorem verified_signCreationPolicy (hsigner : client.signer.Lawful)
    (hkey : 1 ≤ client.signer.keyId.length)
    (hmode : mode = str "enabled" ∨ mode = str "rollback-read-close") (hgeneration : 0 ≤ generation)
    (h : client.signCreationPolicy mode generation clock = .ok receipt) :
    receipt.wf = true ∧ Verified creationPolicyForm client.signer.trustedKey receipt ∧
      receipt.get? (str "namespace_fingerprint") = some (.str client.namespaceFingerprint) ∧
      receipt.get? (str "generation") = some (.int generation) ∧
      receipt.get? (str "mode") = some (.str mode) := by
  have hcore : Unsigned (client.policyCore mode generation clock) := {
    nodup := by simp [policyCore]
    receiptId := by simp [policyCore]
    signature := by simp [policyCore]
    wf := by
      intro f hf
      simp only [policyCore, List.mem_cons, List.not_mem_nil, or_false] at hf
      rcases hf with rfl | rfl | rfl | rfl | rfl | rfl
      all_goals rfl }
  obtain ⟨receiptId, payload, hdigest, hpayload, rfl⟩ :=
    signedReceipt_eq_ok hcore.receiptId hcore.signature h
  have hdigestBody : Schemas.digest.accepts (.str receiptId) = true := by
    obtain ⟨b, -, hb⟩ := bind_eq_ok.1 hdigest
    cases hb
    exact Schemas.accepts_sha256Digest _
  have hwf := hcore.wf_signed receiptId client.signer.keyId (client.signer.signBytes payload)
  have hfresh : "signature" ∉ (client.policyCore mode generation clock ++
      [("receipt_id", Json.str receiptId)]).map Prod.fst := by simp [policyCore]
  have hsigned := hsigner.verifySignature hfresh hpayload
  rw [List.append_assoc] at hsigned
  have hvalue := isBase64url_ne_nil hsigner payload
  have hsignature : Schemas.TurnMemory.signature.accepts (signatureObject client.signer.keyId
      (client.signer.signBytes payload)) = true := by
    have hfields : signatureObject client.signer.keyId (client.signer.signBytes payload) =
        .fields [("algorithm", .str (str "ed25519")), ("key_id", .str client.signer.keyId),
          ("value", .str (client.signer.signBytes payload))] := rfl
    have htext : ∀ s : Str, 1 ≤ s.length →
        Schemas.TurnMemory.nonEmptyText.accepts (.str s) = true := by
      intro s hs
      simpa [Schemas.TurnMemory.nonEmptyText, Schema.keywords, Schema.ofType, Schema.text,
        JsonType.of] using hs
    rw [hfields, Schemas.TurnMemory.signature, Schema.accepts_closed_fields]
    refine ⟨by simp, by simp [List.lookup_cons], ?_⟩
    simp only [List.forall_mem_cons, List.not_mem_nil, false_implies, implies_true, and_true]
    exact ⟨Schema.accepts_of_lookup rfl (Schemas.accepts_const _),
      Schema.accepts_of_lookup rfl (htext _ hkey), Schema.accepts_of_lookup rfl (htext _ hvalue)⟩
  refine ⟨hwf, ?_, Json.get?_fields _ _, Json.get?_fields _ _, Json.get?_fields _ _⟩
  exact {
    valid := by
      rw [creationPolicyForm, Schemas.TurnMemory.creationPolicy, Schema.accepts_closed_fields]
      refine ⟨by simp [policyCore], by simp [policyCore, List.lookup_cons], ?_⟩
      simp only [List.forall_mem_cons, List.not_mem_nil, false_implies, implies_true, and_true]
      refine ⟨Schema.accepts_of_lookup rfl (Schemas.accepts_const _),
        Schema.accepts_of_lookup rfl (Schemas.accepts_matching_of client.isDigest),
        Schema.accepts_of_lookup rfl ?_, Schema.accepts_of_lookup rfl ?_,
        Schema.accepts_of_lookup rfl ?_, Schema.accepts_of_lookup rfl rfl,
        Schema.accepts_of_lookup rfl hdigestBody, Schema.accepts_of_lookup rfl hsignature⟩
      · rcases hmode with rfl | rfl
        · simp [Schema.enum]
        · simp [Schema.enum]
      · simpa [Schema.keywords, Schema.ofType, Schema.minimum, JsonType.of] using hgeneration
      · rw [Schemas.accepts_timestamp]
        exact Schemas.TurnMemory.isRfc3339_isoformatZ clock
    protocol := Json.get?_fields _ _
    keyId := ⟨_, Json.get?_fields _ _, rfl⟩
    signed := hsigned
    receiptId := by
      refine ⟨receiptId, ?_, ?_⟩
      · rw [Json.pop_fields, Json.get?_fields]
        rfl
      · rw [Json.pop_fields, Json.pop_fields]
        exact hdigest }

theorem creationPolicy_eq_ok :
    client.creationPolicy t = .ok receipt ↔ client.identityProfile = .nativeIntent ∧
      ∃ row, t.latestPolicy = some row ∧ client.Policy row receipt := by
  unfold creationPolicy
  rw [ensure_bind_eq_ok]
  apply and_congr_right
  intro _
  cases hlatest : t.latestPolicy with
  | none => simp
  | some row =>
    simp only [Option.some.injEq, exists_eq_left']
    constructor
    · intro h
      obtain ⟨stored, hstored, h⟩ := bind_eq_ok.1 h
      obtain ⟨verified, hverified, h⟩ := bind_eq_ok.1 h
      obtain ⟨fingerprint, hfingerprint, h⟩ := bind_eq_ok.1 h
      obtain ⟨generation, hgeneration, h⟩ := bind_eq_ok.1 h
      obtain ⟨hsame, h⟩ := ensure_bind_eq_ok.1 h
      cases h
      rw [raising, mapError_eq_ok] at hfingerprint hgeneration
      rw [hsame.1] at hfingerprint
      rw [hsame.2] at hgeneration
      obtain ⟨rfl, hverified⟩ := verifyReceipt_eq_ok.1 hverified
      exact ⟨hstored, hverified, Json.textItem_eq_ok.1 hfingerprint,
        Json.intItem_eq_ok.1 hgeneration⟩
    · intro h
      refine bind_eq_ok.2 ⟨receipt, h.decoded, ?_⟩
      refine bind_eq_ok.2 ⟨receipt, verifyReceipt_eq_ok.2 ⟨rfl, h.verified⟩, ?_⟩
      refine bind_eq_ok.2 ⟨_, mapError_eq_ok.2 (Json.textItem_eq_ok.2 h.fingerprint), ?_⟩
      refine bind_eq_ok.2 ⟨_, mapError_eq_ok.2 (Json.intItem_eq_ok.2 h.generation), ?_⟩
      exact ensure_bind_eq_ok.2 ⟨⟨rfl, rfl⟩, rfl⟩

theorem Policy.bounds {row : PolicyRow} (h : client.Policy row receipt) :
    1 ≤ client.signer.keyId.length ∧ 0 ≤ row.generation := by
  have hvalid := h.verified.valid
  constructor
  · obtain ⟨signature, hsignature, hkeyId⟩ := h.verified.keyId
    obtain ⟨w, hw, haccepts⟩ := @Schema.get?_of_closed _ _ receipt hvalid "signature"
      Schemas.TurnMemory.signature (by simp) (by simp)
    rw [hsignature] at hw
    cases hw
    obtain ⟨w, hw, haccepts⟩ := @Schema.get?_of_closed _ _ signature haccepts "key_id"
      Schemas.TurnMemory.nonEmptyText (by simp) (by simp)
    rw [hkeyId] at hw
    cases hw
    simpa [Schemas.TurnMemory.nonEmptyText, Schema.keywords, Schema.ofType, Schema.text,
      JsonType.of, Ed25519Signer.trustedKey] using haccepts
  · obtain ⟨w, hw, haccepts⟩ := @Schema.get?_of_closed _ _ receipt hvalid "generation"
      (.keywords [.ofType .integer, .minimum 0]) (by simp) (by simp)
    rw [h.generation] at hw
    cases hw
    simpa [Schema.keywords, Schema.ofType, Schema.minimum, JsonType.of] using haccepts

omit [Ed25519Keys] in
theorem latestPolicy_eq_getLast? (h : t.policies.Pairwise (·.generation < ·.generation)) :
    t.latestPolicy = t.policies.getLast? := by
  have hfold (later : Option PolicyRow → PolicyRow → Option PolicyRow)
      (hlater : ∀ b row : PolicyRow, b.generation < row.generation → later (some b) row = some row)
      (rows : List PolicyRow) : ∀ best : PolicyRow,
      (best :: rows).Pairwise (·.generation < ·.generation) →
      rows.foldl later (some best) = (best :: rows).getLast? := by
    induction rows with
    | nil => intro best _; rfl
    | cons row rows ih =>
      intro best hpairwise
      have hlt := (List.pairwise_cons.1 hpairwise).1 row List.mem_cons_self
      rw [List.foldl_cons, hlater best row hlt, ih row (List.pairwise_cons.1 hpairwise).2,
        List.getLast?_cons_cons]
  unfold Tables.latestPolicy
  cases hrows : t.policies with
  | nil => rfl
  | cons row rows => exact hfold _ (fun b row hlt => if_pos hlt) rows row (hrows ▸ h)

/-! ## The invariant -/

/-- A row of another table belongs to a registration. -/
def About (client : TurnMemoryStore) (t : Tables) (kind : Kind) (registrationId : Str)
    (receiptJson : Bytes) (receipt : Json) : Prop :=
  ∃ row ∈ t.registrations, row.registrationId = registrationId ∧ ∃ registration turn,
    client.Registers row registration turn ∧ client.Joins kind receiptJson row turn receipt

/-- What holds of the tables after every history. -/
structure Sound (client : TurnMemoryStore) (t : Tables) : Prop where
  ids : (t.registrations.map RegistrationRow.registrationId).Nodup
  identities : (t.registrations.map RegistrationRow.identity).Nodup
  closedOnce : (t.terminals.map TerminalRow.registrationId).Nodup
  registered : ∀ row ∈ t.registrations, ∃ receipt turn, client.Registers row receipt turn
  terminals : ∀ terminal ∈ t.terminals, ∃ receipt, client.About t .terminalReceipt
    terminal.registrationId terminal.receiptJson receipt ∧ Answers terminal receipt
  gaps : ∀ gap ∈ t.gaps, ∃ receipt, client.About t .gapReceipt gap.registrationId gap.receiptJson
    receipt
  generations : t.policies.Pairwise (·.generation < ·.generation)
  policies : ∀ row ∈ t.policies, ∃ receipt, client.Policy row receipt
  policed : client.identityProfile = .nativeIntent → t.policies ≠ []

/-- What a committed call has done to the tables. -/
inductive Effect (client : TurnMemoryStore) (call : Call) (t : Tables) : Tables → Prop where
  | unchanged : Effect client call t t
  | registered {row : RegistrationRow} {receipt turn : Json}
      (fence : client.creationFence t = .ok ())
      (freshId : ∀ r ∈ t.registrations, r.registrationId ≠ row.registrationId)
      (freshIdentity : ∀ r ∈ t.registrations, r.identity ≠ row.identity)
      (registers : client.Registers row receipt turn) :
      Effect client call t { t with registrations := t.registrations ++ [row] }
  | closed {terminal : TerminalRow} {receipt : Json} {outcome : Outcome}
      {outcomeText : Str} {events : Option (List Json)} {noEventReason closedAt : Option Str}
      (made : call = .closeTurn terminal.registrationId outcomeText events noEventReason closedAt)
      (checked : checkClose outcomeText events noEventReason = .ok outcome)
      (fresh : ∀ r ∈ t.terminals, r.registrationId ≠ terminal.registrationId)
      (about : client.About t .terminalReceipt terminal.registrationId terminal.receiptJson receipt)
      (records : Records outcome receipt)
      (answers : Answers terminal receipt) :
      Effect client call t { t with terminals := t.terminals ++ [terminal] }
  | observed {gap : GapRow} {receipt : Json}
      (isOpen : t.findTerminal gap.registrationId = none)
      (about : client.About t .gapReceipt gap.registrationId gap.receiptJson receipt) :
      Effect client call t { t with gaps := t.gaps ++ [gap] }
  | policy {row : PolicyRow} {receipt : Json}
      (later : ∀ r ∈ t.policies, r.generation < row.generation)
      (signed : client.Policy row receipt) :
      Effect client call t { t with policies := t.policies ++ [row] }

/-! ## What each call does -/

theorem Registers.unique {receipt' turn turn' : Json} (h : client.Registers row receipt turn)
    (h' : client.Registers row receipt' turn') : receipt' = receipt ∧ turn' = turn := by
  have hreceipt : receipt' = receipt :=
    Except.ok.inj (h'.stored.decoded.symm.trans h.stored.decoded)
  have hturn := h'.identity
  rw [hreceipt, h.identity] at hturn
  exact ⟨hreceipt, (Option.some.inj hturn).symm⟩

omit [Ed25519Keys] in
theorem findTerminal_eq_none (h : t.findTerminal registrationId = none) :
    ∀ r ∈ t.terminals, r.registrationId ≠ registrationId := by
  intro r hr
  simpa using List.find?_eq_none.1 h r hr

omit [Ed25519Keys] in
theorem findRegistration_eq_some (h : t.findRegistration registrationId = some row) :
    row ∈ t.registrations ∧ row.registrationId = registrationId :=
  ⟨List.mem_of_find?_eq_some h, by simpa using List.find?_some h⟩

theorem checkIdentity_legacy {machineId threadId turnId : Str}
    (h : client.checkIdentity machineId threadId turnId intentId = .ok turn)
    (hlegacy : client.identityProfile = .legacy) : turn.intentId = [] := by
  obtain ⟨_, _, h⟩ := bind_eq_ok.1 h
  obtain ⟨_, _, h⟩ := bind_eq_ok.1 h
  obtain ⟨_, _, h⟩ := bind_eq_ok.1 h
  rw [hlegacy] at h
  cases intentId with
  | none =>
    cases h
    rfl
  | some intent => cases h

theorem openTurn_effect {machineId threadId turnId promptSha256 : Str} {openedAt : Option Str}
    {allowCreate : Bool}
    (h : client.openTurn machineId threadId turnId promptSha256 intentId openedAt allowCreate clock
      t = .ok (reply, t')) : client.Effect call t t' := by
  unfold openTurn at h
  obtain ⟨turn, hturn, h⟩ := bind_eq_ok.1 h
  obtain ⟨prompt, -, h⟩ := bind_eq_ok.1 h
  cases hfind : client.findIdentity t turn with
  | some row =>
    rw [hfind] at h
    obtain ⟨receipt, -, h⟩ := bind_eq_ok.1 h
    obtain ⟨registeredPrompt, -, h⟩ := bind_eq_ok.1 h
    obtain ⟨-, h⟩ := ensure_bind_eq_ok.1 h
    cases h
    exact .unchanged
  | none =>
    rw [hfind] at h
    obtain ⟨-, h⟩ := ensure_bind_eq_ok.1 h
    obtain ⟨hfence, row, receipt, turn', rfl, hid, hidentity, -, hregisters⟩ :=
      createRegistration_eq_ok (checkIdentity_legacy hturn) h
    exact .registered hfence hid hidentity hregisters

theorem closeTurn_effect {outcomeText : Str}
    {events : Option (List Json)} {noEventReason closedAt : Option Str} (hs : client.Sound t)
    (h : client.closeTurn registrationId outcomeText events noEventReason closedAt clock t =
      .ok (reply, t')) :
    client.Effect (.closeTurn registrationId outcomeText events noEventReason closedAt) t t' := by
  unfold closeTurn at h
  obtain ⟨checkedId, hchecked, h⟩ := bind_eq_ok.1 h
  obtain ⟨outcome, houtcome, h⟩ := bind_eq_ok.1 h
  obtain ⟨requestDigest, hrequest, h⟩ := bind_eq_ok.1 h
  obtain ⟨-, hsame⟩ := ensure_bind_eq_ok.1 hchecked
  cases hsame
  rw [raising, mapError_eq_ok] at hrequest
  unfold closeTransaction at h
  cases hfind : t.findRegistration registrationId with
  | none => simp [hfind] at h
  | some row =>
    rw [hfind] at h
    obtain ⟨hmem, rfl⟩ := findRegistration_eq_some hfind
    obtain ⟨registration, turn, hregisters⟩ := hs.registered row hmem
    obtain ⟨registration', hregistration, h⟩ := bind_eq_ok.1 h
    rw [hregisters.verifyRow] at hregistration
    cases hregistration
    obtain ⟨fingerprint, -, h⟩ := bind_eq_ok.1 h
    obtain ⟨-, h⟩ := ensure_bind_eq_ok.1 h
    cases hterminal : t.findTerminal row.registrationId with
    | some existing =>
      rw [hterminal] at h
      obtain ⟨receipt, -, h⟩ := bind_eq_ok.1 h
      obtain ⟨-, h⟩ := ensure_bind_eq_ok.1 h
      cases h
      exact .unchanged
    | none =>
      rw [hterminal] at h
      obtain ⟨terminal, receipt, rfl, hfresh, hid, hjoins, hrecords, hanswers⟩ :=
        createTerminal_eq_ok hregisters hrequest h
      exact .closed (by rw [hid]) houtcome hfresh
        ⟨row, hmem, hid.symm, registration, turn, hregisters, hjoins⟩ hrecords hanswers

theorem observeGap_effect {observedAt : Option Str} (hs : client.Sound t)
    (h : client.observeGap registrationId stage observedAt clock t = .ok (reply, t')) :
    client.Effect call t t' := by
  unfold observeGap at h
  obtain ⟨checkedId, hchecked, h⟩ := bind_eq_ok.1 h
  obtain ⟨-, h⟩ := ensure_bind_eq_ok.1 h
  obtain ⟨requestDigest, -, h⟩ := bind_eq_ok.1 h
  obtain ⟨-, hsame⟩ := ensure_bind_eq_ok.1 hchecked
  cases hsame
  unfold gapTransaction at h
  cases hfind : t.findRegistration registrationId with
  | none => simp [hfind] at h
  | some row =>
    rw [hfind] at h
    obtain ⟨hmem, rfl⟩ := findRegistration_eq_some hfind
    obtain ⟨registration, turn, hregisters⟩ := hs.registered row hmem
    obtain ⟨registration', hregistration, h⟩ := bind_eq_ok.1 h
    rw [hregisters.verifyRow] at hregistration
    cases hregistration
    cases hterminal : t.findTerminal row.registrationId with
    | some terminal =>
      rw [hterminal] at h
      obtain ⟨receipt, -, h⟩ := bind_eq_ok.1 h
      cases h
      exact .unchanged
    | none =>
      rw [hterminal] at h
      dsimp only at h
      split at h
      · obtain ⟨receipt, -, h⟩ := bind_eq_ok.1 h
        cases h
        exact .unchanged
      · obtain ⟨gap, receipt, rfl, hid, hjoins⟩ := createGap_eq_ok hregisters h
        exact .observed (by rw [hid]; exact hterminal)
          ⟨row, hmem, hid.symm, registration, turn, hregisters, hjoins⟩

theorem policy_row (hsigner : client.signer.Lawful) (hkey : 1 ≤ client.signer.keyId.length)
    (hmode : mode = str "enabled" ∨ mode = str "rollback-read-close") (hgeneration : 0 ≤ generation)
    (hsigned : client.signCreationPolicy mode generation clock = .ok receipt)
    (hbytes : canonicalBytes receipt = .ok receiptJson) :
    client.Policy ⟨generation, receiptJson⟩ receipt.sortKeys := by
  obtain ⟨hwf, hverified, hfingerprint, hnumber, -⟩ :=
    verified_signCreationPolicy hsigner hkey hmode hgeneration hsigned
  exact {
    decoded := decode_canonicalBytes (Json.isObj_of_get? hverified.protocol) hwf hbytes
    verified := hverified.sortKeys hwf
    fingerprint := get?_text_sortKeys hwf hfingerprint
    generation := by rw [Json.get?_sortKeys hwf, hnumber]; rfl }

omit [Ed25519Keys] in
theorem generation_le_getLast {policies : List PolicyRow} {last : PolicyRow}
    (h : policies.Pairwise (·.generation < ·.generation)) (hlast : policies.getLast? = some last) :
    ∀ r ∈ policies, r.generation ≤ last.generation := by
  obtain ⟨front, rfl⟩ := List.getLast?_eq_some_iff.1 hlast
  intro r hr
  rcases List.mem_append.1 hr with hr | hr
  · exact le_of_lt ((List.pairwise_append.1 h).2.2 r hr last List.mem_cons_self)
  · rw [List.mem_singleton.1 hr]

theorem setCreationPolicy_effect (hsigner : client.signer.Lawful) {expectedReceiptId : Str}
    (hs : client.Sound t)
    (h : client.setCreationPolicy mode expectedReceiptId clock t = .ok (receipt, t')) :
    client.Effect call t t' := by
  unfold setCreationPolicy at h
  obtain ⟨hmode, h⟩ := ensure_bind_eq_ok.1 h
  obtain ⟨expected, -, h⟩ := bind_eq_ok.1 h
  obtain ⟨previous, hprevious, h⟩ := bind_eq_ok.1 h
  obtain ⟨receiptId, -, h⟩ := bind_eq_ok.1 h
  obtain ⟨-, h⟩ := ensure_bind_eq_ok.1 h
  obtain ⟨previousMode, -, h⟩ := bind_eq_ok.1 h
  obtain ⟨-, row, hlatest, hpolicy⟩ := creationPolicy_eq_ok.1 hprevious
  split at h
  · cases h
    exact .unchanged
  · obtain ⟨generation, hgeneration, h⟩ := bind_eq_ok.1 h
    obtain ⟨result, hresult, h⟩ := bind_eq_ok.1 h
    obtain ⟨receiptJson, hbytes, h⟩ := bind_eq_ok.1 h
    obtain ⟨inserted, hinserted, h⟩ := bind_eq_ok.1 h
    cases h
    rw [raising, mapError_eq_ok] at hgeneration hresult hbytes
    rw [Json.intItem_eq_ok, hpolicy.generation] at hgeneration
    cases hgeneration
    obtain ⟨-, hinserted⟩ := ensure_bind_eq_ok.1 hinserted
    cases hinserted
    obtain ⟨hkey, hzero⟩ := hpolicy.bounds
    have hnew := policy_row hsigner hkey hmode (by omega) hresult hbytes
    rw [latestPolicy_eq_getLast? hs.generations] at hlatest
    refine .policy ?_ hnew
    intro r hr
    have hle := generation_le_getLast hs.generations hlatest r hr
    show r.generation < row.generation + 1
    omega

/-! ## Runs -/

theorem connect_effect (hs : client.Sound t) (h : client.initializeStore clock t = .ok t') :
    client.Effect call t t' := by
  unfold initializeStore at h
  split at h
  · cases h
    exact .unchanged
  · rename_i hnative
    obtain ⟨first, hfirst, h⟩ := bind_eq_ok.1 h
    obtain ⟨policy, -, h⟩ := bind_eq_ok.1 h
    cases h
    rw [firstPolicy, if_neg (hs.policed hnative)] at hfirst
    cases hfirst
    exact .unchanged

theorem execute_effect (hsigner : client.signer.Lawful)
    {call : Call × Instant} {reply : Option Reply} (hs : client.Sound t)
    (h : client.execute call t = .ok (reply, t')) : client.Effect call.1 t t' := by
  obtain ⟨call, clock⟩ := call
  unfold execute at h
  cases call with
  | connect =>
    obtain ⟨after, hafter, h⟩ := bind_eq_ok.1 h
    cases h
    exact connect_effect hs hafter
  | openTurn machineId threadId turnId promptSha256 intentId openedAt allowCreate =>
    obtain ⟨⟨answer, after⟩, hafter, h⟩ := bind_eq_ok.1 h
    cases h
    exact openTurn_effect hafter
  | closeTurn registrationId outcome events noEventReason closedAt =>
    obtain ⟨⟨answer, after⟩, hafter, h⟩ := bind_eq_ok.1 h
    cases h
    exact closeTurn_effect hs hafter
  | observeGap registrationId stage observedAt =>
    obtain ⟨⟨answer, after⟩, hafter, h⟩ := bind_eq_ok.1 h
    cases h
    exact observeGap_effect hs hafter
  | setCreationPolicy mode expectedReceiptId =>
    obtain ⟨⟨answer, after⟩, hafter, h⟩ := bind_eq_ok.1 h
    cases h
    exact setCreationPolicy_effect hsigner hs hafter

theorem About.mono (h : client.About t kind registrationId receiptJson receipt)
    (hsub : ∀ row ∈ t.registrations, row ∈ t'.registrations) :
    client.About t' kind registrationId receiptJson receipt := by
  obtain ⟨row, hrow, hid, hrest⟩ := h
  exact ⟨row, hsub row hrow, hid, hrest⟩

omit [Ed25519Keys] in
theorem nodup_map_snoc {α β : Type} {f : α → β} {xs : List α} {x : α} (hnodup : (xs.map f).Nodup)
    (hfresh : ∀ y ∈ xs, f y ≠ f x) : ((xs ++ [x]).map f).Nodup := by
  rw [List.map_append, List.nodup_append]
  refine ⟨hnodup, by simp, ?_⟩
  intro a ha b hb
  obtain ⟨y, hy, rfl⟩ := List.mem_map.1 ha
  have hx : b = f x := by simpa using hb
  rw [hx]
  exact hfresh y hy

theorem Effect.sound (h : client.Effect call t t') (hs : client.Sound t) : client.Sound t' := by
  cases h with
  | unchanged => exact hs
  | @registered row receipt turn fence freshId freshIdentity registers =>
    have hsub : ∀ r ∈ t.registrations, r ∈ t.registrations ++ [row] :=
      fun r hr => List.mem_append_left _ hr
    refine { hs with
      ids := nodup_map_snoc hs.ids freshId
      identities := nodup_map_snoc hs.identities freshIdentity
      registered := ?_
      terminals := ?_
      gaps := ?_ }
    · intro r hr
      rcases List.mem_append.1 hr with hr | hr
      · exact hs.registered r hr
      · rw [List.mem_singleton.1 hr]
        exact ⟨receipt, turn, registers⟩
    · intro terminal hterminal
      obtain ⟨stored, habout, hanswers⟩ := hs.terminals terminal hterminal
      exact ⟨stored, habout.mono hsub, hanswers⟩
    · intro gap hgap
      obtain ⟨stored, habout⟩ := hs.gaps gap hgap
      exact ⟨stored, habout.mono hsub⟩
  | @closed terminal receipt _ _ _ _ _ made checked fresh about records answers =>
    refine { hs with
      closedOnce := nodup_map_snoc hs.closedOnce fresh
      terminals := ?_ }
    intro r hr
    rcases List.mem_append.1 hr with hr | hr
    · exact hs.terminals r hr
    · rw [List.mem_singleton.1 hr]
      exact ⟨receipt, about, answers⟩
  | @observed gap receipt isOpen about =>
    refine { hs with gaps := ?_ }
    intro r hr
    rcases List.mem_append.1 hr with hr | hr
    · exact hs.gaps r hr
    · rw [List.mem_singleton.1 hr]
      exact ⟨receipt, about⟩
  | @policy row receipt later signed =>
    refine { hs with generations := ?_, policies := ?_, policed := ?_ }
    · rw [List.pairwise_append]
      refine ⟨hs.generations, List.pairwise_singleton _ _, ?_⟩
      intro a ha b hb
      rw [List.mem_singleton.1 hb]
      exact later a ha
    · intro r hr
      rcases List.mem_append.1 hr with hr | hr
      · exact hs.policies r hr
      · rw [List.mem_singleton.1 hr]
        exact ⟨receipt, signed⟩
    · intro _
      simp

theorem initializeStore_empty (h : client.initializeStore clock Tables.empty = .ok t) :
    ∃ policies, t = ⟨[], [], [], policies⟩ ∧
      policies.Pairwise (·.generation < ·.generation) ∧
      (∀ row ∈ policies, ∃ receipt, client.Policy row receipt) ∧
      (client.identityProfile = .nativeIntent → policies ≠ []) := by
  unfold initializeStore at h
  split at h
  · rename_i hlegacy
    cases h
    exact ⟨[], rfl, List.Pairwise.nil, by simp, by simp [hlegacy]⟩
  · obtain ⟨first, hfirst, h⟩ := bind_eq_ok.1 h
    obtain ⟨policy, hpolicy, h⟩ := bind_eq_ok.1 h
    cases h
    rw [firstPolicy, if_pos (show Tables.empty.policies = [] from rfl)] at hfirst
    obtain ⟨-, hfirst⟩ := ensure_bind_eq_ok.1 hfirst
    obtain ⟨signed, -, hfirst⟩ := bind_eq_ok.1 hfirst
    obtain ⟨receiptJson, -, hfirst⟩ := bind_eq_ok.1 hfirst
    obtain ⟨-, hfirst⟩ := ensure_bind_eq_ok.1 hfirst
    cases hfirst
    obtain ⟨-, row, hlatest, hrow⟩ := creationPolicy_eq_ok.1 hpolicy
    have hrowEq : row = ⟨0, receiptJson⟩ := (Option.some.inj hlatest).symm
    refine ⟨[⟨0, receiptJson⟩], rfl, List.pairwise_singleton _ _, ?_, by simp⟩
    intro r hr
    rw [List.mem_singleton.1 hr, ← hrowEq]
    exact ⟨policy, hrow⟩

theorem sound_initializeStore
    (h : client.initializeStore clock Tables.empty = .ok t) : client.Sound t := by
  obtain ⟨policies, rfl, hgenerations, hpolicies, hpoliced⟩ := initializeStore_empty h
  exact ⟨List.nodup_nil, List.nodup_nil, List.nodup_nil, by simp, by simp, by simp,
    hgenerations, hpolicies, hpoliced⟩

/-- What was stored stays stored, in its place. -/
structure Grows (t t' : Tables) : Prop where
  registrations : t.registrations <+: t'.registrations
  terminals : t.terminals <+: t'.terminals
  gaps : t.gaps <+: t'.gaps
  policies : t.policies <+: t'.policies

omit [Ed25519Keys] in
theorem Grows.refl (t : Tables) : Grows t t :=
  ⟨List.prefix_rfl, List.prefix_rfl, List.prefix_rfl, List.prefix_rfl⟩

omit [Ed25519Keys] in
theorem Grows.trans {u v : Tables} (h : Grows t u) (h' : Grows u v) : Grows t v :=
  ⟨h.registrations.trans h'.registrations, h.terminals.trans h'.terminals,
    h.gaps.trans h'.gaps, h.policies.trans h'.policies⟩

theorem Effect.grows (h : client.Effect call t t') : Grows t t' := by
  cases h with
  | unchanged => exact .refl t
  | registered => exact { Grows.refl t with registrations := List.prefix_append _ _ }
  | closed => exact { Grows.refl t with terminals := List.prefix_append _ _ }
  | observed => exact { Grows.refl t with gaps := List.prefix_append _ _ }
  | policy => exact { Grows.refl t with policies := List.prefix_append _ _ }

theorem sound_run (hsigner : client.signer.Lawful)
    (hs : client.Sound t) (calls : List (Call × Instant)) :
    client.Sound (run client.execute t calls) :=
  run_invariant (fun _ _ _ _ hs h => (execute_effect hsigner hs h).sound hs) hs calls

end TurnMemoryStore

end IntegrityGuardian.TurnMemory
