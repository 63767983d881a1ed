import IntegrityGuardian.Schemas.Texts
import IntegrityGuardian.Python.Calendar

/-!
# The turn-memory schemas

`turn-memory-*.schema.json`, and the documents of the legacy profile under
`turn-memory-legacy-v1`, which know no intent.
-/

namespace IntegrityGuardian.Python.Schema

/-- `"required"` alone. -/
def required (keys : List String) : Schema where
  accepts v :=
    match v with
    | .obj _ => keys.all fun key => (v.get? (str key)).isSome
    | _ => true
  accepts_sortKeys {v} hwf := by
    cases v with
    | obj members =>
      have hget := Json.get?_sortKeys hwf
      simp only [Json.sortKeys] at hget ⊢
      simp only [hget, Option.isSome_map]
    | _ => simp only [Json.sortKeys]

/-- `"properties"` alone. -/
def properties (props : List (String × Schema)) : Schema where
  accepts v := propertiesAccept props v
  accepts_sortKeys {v} hwf := by
    apply List.all_congr rfl
    intro p
    rw [Json.get?_sortKeys hwf]
    cases hlookup : v.get? (str p.1) with
    | none => rfl
    | some w => exact p.2.accepts_sortKeys (Json.wf_of_get? hwf hlookup)

/-- `"not"`. -/
def not (s : Schema) : Schema where
  accepts v := !s.accepts v
  accepts_sortKeys hwf := by rw [s.accepts_sortKeys hwf]

/-- `"if"` with `"then"`. -/
def ifThen (condition consequence : Schema) : Schema where
  accepts v := !condition.accepts v || consequence.accepts v
  accepts_sortKeys hwf := by rw [condition.accepts_sortKeys hwf, consequence.accepts_sortKeys hwf]

end IntegrityGuardian.Python.Schema

namespace IntegrityGuardian.Schemas.TurnMemory

open Python Schemas
open Python.Json (ch isDigit)

/-! ## Patterns -/

/-- One of `[A-Za-z0-9]`, then up to 255 of these or of dot, underscore, colon, at sign,
slash and hyphen. -/
def identityBody : Str → Bool
  | [] => false
  | c :: rest =>
    isAlphanumeric c
      && between 0 255 (fun c => isAlphanumeric c || (str "._:@/-").contains c) rest

/-- `[a-f0-9]{64}`. -/
def sha256Body (s : Str) : Bool := between 64 64 CodePoint.isLowerHex s

/-- `intent:[a-f0-9]{64}`. -/
def intentBody (s : Str) : Bool := hashBody "intent:" s

/-- `[a-f0-9]{8}(?:-[a-f0-9]{4}){3}-[a-f0-9]{12}`. -/
def uuidBody (s : Str) : Bool :=
  let template := str "00000000-0000-0000-0000-000000000000"
  template.length == s.length
    && (template.zip s).all fun p => if p.1 = ch '0' then p.2.isLowerHex else p.1 == p.2

/-- `client:[A-Za-z0-9][A-Za-z0-9._:-]{7,154}`. -/
def eventUidBody (s : Str) : Bool :=
  (str "client:").isPrefixOf s
    && match s.drop 7 with
      | [] => false
      | c :: rest =>
        isAlphanumeric c
          && between 7 154 (fun c => isAlphanumeric c || (str "._:-").contains c) rest

/-! ## Definitions -/

/-- `#/$defs/identity` of the legacy documents. -/
def legacyIdentity : Schema :=
  .closed ["machine_id", "thread_id", "turn_id"]
    [("machine_id", matching identityBody),
      ("thread_id", matching identityBody),
      ("turn_id", matching identityBody)]

/-- `#/$defs/identity`. -/
def identity : Schema :=
  .keywords
    [.closed ["machine_id", "thread_id", "turn_id"]
      [("intent_id", matching intentBody),
        ("machine_id", matching identityBody),
        ("thread_id", matching identityBody),
        ("turn_id", matching identityBody)],
      .ifThen (.required ["intent_id"])
        (.properties
          [("thread_id", .text (searchLine uuidBody)),
            ("turn_id", .text (searchLine uuidBody))])]

/-- A text of `"minLength": 1`. -/
def nonEmptyText : Schema := .keywords [.ofType .string, .text fun s => 1 ≤ s.length]

/-- `#/$defs/signature`. -/
def signature : Schema :=
  .closed ["algorithm", "key_id", "value"]
    [("algorithm", .const "ed25519"), ("key_id", nonEmptyText), ("value", nonEmptyText)]

/-- One element of `events`. -/
def eventReference : Schema :=
  .closed ["event_uid", "event_id", "request_sha256"]
    [("event_uid", matching eventUidBody),
      ("event_id", .keywords [.ofType .integer, .minimum 1]),
      ("request_sha256", matching sha256Body)]

/-- The reasons a turn may have no event for. -/
def noEventReasons : List String :=
  ["read-only", "repetition", "social-response", "no-durable-state-change", "user-cancelled"]

/-- The stages a gap is observed at. -/
def gapStages : List String := ["stop", "notify", "reconciliation"]

/-! ## Documents -/

/-- `turn-memory-registration.schema.json`, over the identities of a profile. -/
def registration (identity : Schema) : Schema :=
  .closed
    ["protocol", "namespace_fingerprint", "identity", "prompt_sha256", "opened_at",
      "terminal_required", "production_authority", "receipt_id", "signature"]
    [("protocol", .const "integrity-guardian/turn-memory-registration/v1"),
      ("namespace_fingerprint", digest),
      ("identity", identity),
      ("prompt_sha256", matching sha256Body),
      ("opened_at", timestamp),
      ("terminal_required", .constBool true),
      ("production_authority", .constBool false),
      ("receipt_id", digest),
      ("signature", signature)]

/-- `turn-memory-terminal-receipt.schema.json`, over the identities of a profile. -/
def terminalReceipt (identity : Schema) : Schema :=
  .keywords
    [.closed
      ["protocol", "namespace_fingerprint", "registration_id", "identity", "prompt_sha256",
        "outcome", "closed_at", "production_authority", "receipt_id", "signature"]
      [("protocol", .const "integrity-guardian/turn-memory-terminal-receipt/v1"),
        ("namespace_fingerprint", digest),
        ("registration_id", digest),
        ("identity", identity),
        ("prompt_sha256", matching sha256Body),
        ("outcome", .enum ["events", "no-event"]),
        ("events", .keywords
          [.ofType .array, .minItems 1, .maxItems 32, .uniqueItems, .items eventReference]),
        ("no_event_reason", .enum noEventReasons),
        ("closed_at", timestamp),
        ("production_authority", .constBool false),
        ("receipt_id", digest),
        ("signature", signature)],
      .oneOf
        [.keywords
          [.required ["events"], .not (.required ["no_event_reason"]),
            .properties [("outcome", .const "events")]],
          .keywords
          [.required ["no_event_reason"], .not (.required ["events"]),
            .properties [("outcome", .const "no-event")]]]]

/-- `turn-memory-gap-receipt.schema.json`, over the identities of a profile. -/
def gapReceipt (identity : Schema) : Schema :=
  .closed
    ["protocol", "namespace_fingerprint", "registration_id", "identity", "prompt_sha256", "stage",
      "reason", "observed_at", "terminal", "production_authority", "receipt_id", "signature"]
    [("protocol", .const "integrity-guardian/turn-memory-gap-receipt/v1"),
      ("namespace_fingerprint", digest),
      ("registration_id", digest),
      ("identity", identity),
      ("prompt_sha256", matching sha256Body),
      ("stage", .enum gapStages),
      ("reason", .const "terminal-receipt-missing"),
      ("observed_at", timestamp),
      ("terminal", .constBool false),
      ("production_authority", .constBool false),
      ("receipt_id", digest),
      ("signature", signature)]

/-- `turn-memory-creation-policy.schema.json`. -/
def creationPolicy : Schema :=
  .closed
    ["protocol", "namespace_fingerprint", "mode", "generation", "updated_at",
      "production_authority", "receipt_id", "signature"]
    [("protocol", .const "integrity-guardian/turn-memory-creation-policy/v1"),
      ("namespace_fingerprint", digest),
      ("mode", .enum ["enabled", "rollback-read-close"]),
      ("generation", .keywords [.ofType .integer, .minimum 0]),
      ("updated_at", timestamp),
      ("production_authority", .constBool false),
      ("receipt_id", digest),
      ("signature", signature)]

/-! ## Times the program writes -/

theorem isTimeTail_fractionText {micros : Nat} (h : micros < 1000000) :
    isTimeTail (fractionText micros ++ str "Z") = true := by
  unfold fractionText
  split
  · decide
  · have hdigits : ∀ c ∈ zeroPad 6 micros, isDigit c = true :=
      List.all_eq_true.1 isDigit_zeroPad
    have hlength := @length_zeroPad 5 micros (by omega)
    have htake : (zeroPad 6 micros ++ str "Z").takeWhile isDigit = zeroPad 6 micros := by
      rw [List.takeWhile_append_of_pos hdigits]
      exact List.append_nil _
    have hdrop : (zeroPad 6 micros ++ str "Z").dropWhile isDigit = str "Z" := by
      rw [List.dropWhile_append_of_pos hdigits]
      rfl
    have hne : zeroPad 6 micros ≠ [] := by
      intro hempty
      rw [hempty] at hlength
      cases hlength
    rw [List.cons_append, isTimeTail, if_pos rfl, htake, hdrop]
    simp [hne]

theorem hasShape_date {y1 y2 y3 y4 m1 m2 d1 d2 h1 h2 n1 n2 s1 s2 : CodePoint}
    (hdigits : ∀ c ∈ [y1, y2, y3, y4, m1, m2, d1, d2, h1, h2, n1, n2, s1, s2], isDigit c = true) :
    hasShape (str "0000-00-00T00:00:00") [y1, y2, y3, y4, ch '-', m1, m2, ch '-', d1, d2, ch 'T',
      h1, h2, ch ':', n1, n2, ch ':', s1, s2] = true := by
  have htemplate : str "0000-00-00T00:00:00" = [ch '0', ch '0', ch '0', ch '0', ch '-', ch '0',
      ch '0', ch '-', ch '0', ch '0', ch 'T', ch '0', ch '0', ch ':', ch '0', ch '0', ch ':',
      ch '0', ch '0'] := by decide
  have hdash : ch '-' ≠ ch '0' := by decide
  have htime : ch 'T' ≠ ch '0' := by decide
  have hcolon : ch ':' ≠ ch '0' := by decide
  simp only [List.forall_mem_cons, List.not_mem_nil, false_implies, implies_true, and_true]
    at hdigits
  simp [hasShape, htemplate, hdash, htime, hcolon, hdigits]

theorem isRfc3339_isoformatZ (value : Instant) : isRfc3339 value.isoformatZ = true := by
  obtain ⟨⟨year, month, day⟩, hdate⟩ : ∃ d, value.date = d := ⟨_, rfl⟩
  obtain ⟨hyear, hmonth, hday, -⟩ := calendarDay_date hdate
  obtain ⟨y1, y2, y3, y4, hy, hyd, -⟩ := zeroPad_four hyear
  obtain ⟨m1, m2, hm, hmd, hmd', -⟩ := zeroPad_two hmonth
  obtain ⟨d1, d2, hd, hdd, hdd', -⟩ := zeroPad_two hday
  obtain ⟨h1, h2, hh, hhd, hhd', -⟩ :=
    zeroPad_two (n := value.val / 1000000 % 86400 / 3600) (by omega)
  obtain ⟨n1, n2, hn, hnd, hnd', -⟩ :=
    zeroPad_two (n := value.val / 1000000 % 86400 / 60 % 60) (by omega)
  obtain ⟨s1, s2, hs, hsd, hsd', -⟩ :=
    zeroPad_two (n := value.val / 1000000 % 86400 % 60) (by omega)
  have htext : value.isoformatZ = [y1, y2, y3, y4, ch '-', m1, m2, ch '-', d1, d2, ch 'T',
      h1, h2, ch ':', n1, n2, ch ':', s1, s2]
      ++ (fractionText (value.val % 1000000) ++ str "Z") := by
    simp only [Instant.isoformatZ, Instant.isoText, hdate, hy, hm, hd, hh, hn, hs,
      List.cons_append, List.nil_append]
  have hread : Datetime.fromisoformat value.isoformatZ = some ⟨value, some 0⟩ :=
    fromisoformat_isoText value (Or.inr rfl)
  have hshape := @hasShape_date y1 y2 y3 y4 m1 m2 d1 d2 h1 h2 n1 n2 s1 s2
    (by simp [hyd, hmd, hmd', hdd, hdd', hhd, hhd', hnd, hnd', hsd, hsd'])
  have htail := @isTimeTail_fractionText (value.val % 1000000) (by omega)
  unfold isRfc3339
  rw [hread, htext]
  simp only [List.cons_append, List.nil_append, List.take_succ_cons, List.take_zero,
    List.drop_succ_cons, List.drop_zero, hshape, htail]
  rfl

end IntegrityGuardian.Schemas.TurnMemory
