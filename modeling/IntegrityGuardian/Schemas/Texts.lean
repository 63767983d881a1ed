import IntegrityGuardian.Schemas.Discovery
import IntegrityGuardian.Canonical
import Mathlib.Data.List.TakeWhile

/-!
# Texts the schemas describe

Every text that a pattern of the schemas describes is ASCII, so it has a
canonical form, and the digests the program computes have the shape the schemas
ask of them.
-/

namespace IntegrityGuardian.Schemas

open Python
open Python.Json (ch isDigit)

/-! ## ASCII -/

/-- Every character is ASCII. -/
def Ascii (s : Str) : Prop := ∀ c ∈ s, c.val < 0x80

instance (s : Str) : Decidable (Ascii s) :=
  List.decidableBAll (fun c : CodePoint => c.val < 0x80) s

variable {c : CodePoint} {vs : List Json} {most : Nat} {item : Schema} {s : Str} {body : Str → Bool}

theorem Ascii.append {t : Str} (hs : Ascii s) (ht : Ascii t) : Ascii (s ++ t) := by
  intro c hc
  rcases List.mem_append.1 hc with hc | hc
  · exact hs c hc
  · exact ht c hc

theorem Ascii.encodable (h : Ascii s) : (Json.str s).encodable = true := by
  have hany : s.any CodePoint.isSurrogate = false := by
    apply Json.any_isSurrogate_ascii
    simpa [Ascii] using h
  simp [Json.encodable, hany]

theorem ascii_of_all {member : CodePoint → Bool}
    (hmember : ∀ c, member c = true → c.val < 0x80) (h : s.all member = true) : Ascii s :=
  fun c hc => hmember c (List.all_eq_true.1 h c hc)

theorem ascii_of_mem_str {text : String} (htext : ((str text).all fun c => c.val < 0x80) = true)
    (hc : (str text).contains c = true) : c.val < 0x80 := by
  have hmem : c ∈ str text := by simpa using hc
  simpa using List.all_eq_true.1 htext c hmem

theorem val_lt_of_isDigit (h : isDigit c = true) : c.val < 0x80 := by
  simp only [isDigit, Bool.and_eq_true, decide_eq_true_eq] at h
  omega

theorem val_lt_of_isAlphanumeric (h : isAlphanumeric c = true) : c.val < 0x80 := by
  simp only [isAlphanumeric, isDigit, Bool.or_eq_true, Bool.and_eq_true,
    decide_eq_true_eq] at h
  omega

theorem val_lt_of_isLowerHex (h : c.isLowerHex = true) : c.val < 0x80 := by
  simp only [CodePoint.isLowerHex, Bool.or_eq_true, Bool.and_eq_true, decide_eq_true_eq] at h
  omega

theorem ascii_of_searchLine (hbody : ∀ s, body s = true → Ascii s)
    (h : searchLine body s = true) : Ascii s := by
  simp only [searchLine, Bool.or_eq_true, Bool.and_eq_true, beq_iff_eq] at h
  rcases h with h | ⟨hlast, h⟩
  · exact hbody s h
  · have hs := List.dropLast_append_getLast? _ hlast
    rw [← hs]
    apply (hbody _ h).append
    intro c hc
    have hc' : c = ch '\n' := by simpa using hc
    rw [hc']
    decide

theorem ascii_of_idBody (h : idBody s = true) : Ascii s := by
  cases s with
  | nil => cases h
  | cons c rest =>
    simp only [idBody, between, Bool.and_eq_true] at h
    obtain ⟨hhead, -, hrest⟩ := h
    intro d hd
    rcases List.mem_cons.1 hd with rfl | hd
    · exact val_lt_of_isAlphanumeric hhead
    · have hmember := List.all_eq_true.1 hrest d hd
      rcases Bool.or_eq_true_iff.1 hmember with hmember | hmember
      · exact val_lt_of_isAlphanumeric hmember
      · exact ascii_of_mem_str (by decide) hmember

theorem ascii_of_head {head : Str} (hhead : Ascii head) (h : head.isPrefixOf s = true)
    (htail : Ascii (s.drop head.length)) : Ascii s := by
  obtain ⟨tail, rfl⟩ := List.isPrefixOf_iff_prefix.1 h
  rw [List.drop_left] at htail
  exact hhead.append htail

theorem ascii_of_tenantBody (h : tenantBody s = true) : Ascii s := by
  simp only [tenantBody, Bool.and_eq_true] at h
  have hhead : Ascii (str "tenant:") := by decide
  exact ascii_of_head hhead h.1.1 (ascii_of_idBody h.1.2)

theorem ascii_of_hex (b : Bytes) : Ascii (hex b) :=
  fun _ hc => val_lt_of_isLowerHex (isLowerHex_of_mem_hex hc)

theorem ascii_of_hashBody {head : String} {s : Str} (hhead : Ascii (str head))
    (h : hashBody head s = true) : Ascii s := by
  simp only [hashBody, between, Bool.and_eq_true] at h
  exact ascii_of_head hhead h.1 (ascii_of_all (fun _ => val_lt_of_isLowerHex) h.2.2)

theorem ascii_of_digestBody (h : digestBody s = true) : Ascii s :=
  @ascii_of_hashBody "sha256:" s (by decide) h

theorem ascii_of_hasShape {template : Str} (htemplate : Ascii template)
    (h : hasShape template s = true) : Ascii s := by
  simp only [hasShape, Bool.and_eq_true, beq_iff_eq] at h
  obtain ⟨hlength, h⟩ := h
  induction template generalizing s with
  | nil =>
    cases s with
    | nil => exact fun c hc => absurd hc (by simp)
    | cons d s => cases hlength
  | cons c template ih =>
    cases s with
    | nil => cases hlength
    | cons d s =>
      simp only [List.zip_cons_cons, List.all_cons, Bool.and_eq_true] at h
      have hrest : Ascii s :=
        ih (fun x hx => htemplate x (List.mem_cons_of_mem _ hx)) (by simpa using hlength) h.2
      have hfirst : d.val < 0x80 := by
        have hc := htemplate c (List.mem_cons_self ..)
        have hd := h.1
        split at hd
        · exact val_lt_of_isDigit hd
        · rw [← beq_iff_eq.1 hd]
          exact hc
      intro x hx
      rcases List.mem_cons.1 hx with rfl | hx
      · exact hfirst
      · exact hrest x hx

theorem ascii_of_offset
    (h : (s == str "Z" || hasShape (str "+00:00") s || hasShape (str "-00:00") s) = true) :
    Ascii s := by
  simp only [Bool.or_eq_true, beq_iff_eq] at h
  rcases h with (rfl | h) | h
  · have hzulu : Ascii (str "Z") := by decide
    exact hzulu
  · exact ascii_of_hasShape (by decide) h
  · exact ascii_of_hasShape (by decide) h

theorem ascii_of_isTimeTail (h : isTimeTail s = true) : Ascii s := by
  unfold isTimeTail at h
  cases s with
  | nil => exact fun c hc => absurd hc (by simp)
  | cons c rest =>
    simp only at h
    split at h
    · rename_i hpoint
      simp only [Bool.and_eq_true] at h
      have hdigits : Ascii (rest.takeWhile isDigit) :=
        fun d hd => val_lt_of_isDigit (List.mem_takeWhile_imp hd)
      have htail := hdigits.append (ascii_of_offset h.2)
      rw [List.takeWhile_append_dropWhile] at htail
      intro d hd
      rcases List.mem_cons.1 hd with rfl | hd
      · rw [hpoint]
        decide
      · exact htail d hd
    · exact ascii_of_offset h

theorem ascii_of_isRfc3339 (h : isRfc3339 s = true) : Ascii s := by
  simp only [isRfc3339, Bool.and_eq_true] at h
  have hhead := ascii_of_hasShape (by decide) h.1.1
  have htail := ascii_of_isTimeTail h.1.2
  rw [← List.take_append_drop 19 s]
  exact hhead.append htail

/-! ## Texts and schemas -/

theorem accepts_matching (body : Str → Bool) (s : Str) :
    (matching body).accepts (.str s) = searchLine body s := by
  simp [matching, Schema.keywords, Schema.ofType, Schema.text, JsonType.of]

theorem accepts_matching_of (h : body s = true) : (matching body).accepts (.str s) = true := by
  rw [accepts_matching, searchLine, h, Bool.true_or]

theorem accepts_timestamp (s : Str) : timestamp.accepts (.str s) = isRfc3339 s := by
  simp [timestamp, Schema.keywords, Schema.ofType, Schema.text, JsonType.of]

theorem encodable_of_timestamp (h : timestamp.accepts (.str s) = true) :
    (Json.str s).encodable = true :=
  (ascii_of_isRfc3339 ((accepts_timestamp s).symm.trans h)).encodable

theorem encodable_of_enum {texts : List String}
    (h : (Schema.enum texts).accepts (.str s) = true) : (Json.str s).encodable = true := by
  obtain ⟨text, -, htext⟩ := List.any_eq_true.1 h
  rw [← beq_iff_eq.1 htext, Json.encodable, any_isSurrogate_str]
  rfl

theorem encodable_of_matching (hbody : ∀ s, body s = true → Ascii s)
    (h : (matching body).accepts (.str s) = true) : (Json.str s).encodable = true := by
  rw [accepts_matching] at h
  exact (ascii_of_searchLine hbody h).encodable

theorem encodable_of_id (h : id.accepts (.str s) = true) : (Json.str s).encodable = true :=
  encodable_of_matching (fun _ => ascii_of_idBody) h

theorem encodable_of_idBody (h : idBody s = true) : (Json.str s).encodable = true :=
  (ascii_of_idBody h).encodable

theorem encodable_of_digestBody (h : digestBody s = true) : (Json.str s).encodable = true :=
  (ascii_of_digestBody h).encodable

/-! ## Digests -/

theorem between_hex_sha256 (payload : Bytes) :
    between 64 64 CodePoint.isLowerHex (hex (sha256 payload)) = true := by
  have hall : (hex (sha256 payload)).all CodePoint.isLowerHex = true :=
    List.all_eq_true.2 fun _ hc => isLowerHex_of_mem_hex hc
  simp [between, hall]

theorem digestBody_sha256Digest (payload : Bytes) : digestBody (sha256Digest payload) = true := by
  have hprefix : (str "sha256:").isPrefixOf (sha256Digest payload) = true :=
    List.isPrefixOf_iff_prefix.2 ⟨_, rfl⟩
  have hdrop : (sha256Digest payload).drop 7 = hex (sha256 payload) := rfl
  rw [digestBody, hprefix, hdrop, between_hex_sha256]
  rfl

theorem hashBody_append_hex (head : String) (payload : Bytes) :
    hashBody head (str head ++ hex (sha256 payload)) = true := by
  have hprefix : (str head).isPrefixOf (str head ++ hex (sha256 payload)) = true :=
    List.isPrefixOf_iff_prefix.2 ⟨_, rfl⟩
  rw [hashBody, hprefix, List.drop_left, between_hex_sha256]
  rfl

theorem afterColon_sha256Digest (payload : Bytes) :
    (sha256Digest payload).afterColon = hex (sha256 payload) := rfl

theorem encodable_sha256Digest (payload : Bytes) :
    (Json.str (sha256Digest payload)).encodable = true := by
  have hhead : Ascii (str "sha256:") := by decide
  exact (hhead.append (ascii_of_hex _)).encodable

theorem accepts_sha256Digest (payload : Bytes) :
    digest.accepts (.str (sha256Digest payload)) = true :=
  accepts_matching_of (digestBody_sha256Digest payload)

/-! ## Arrays and constants -/

theorem accepts_boundedSet (hlength : vs.length ≤ most) (hnodup : (vs.map Json.sortKeys).Nodup)
    (hitems : ∀ v ∈ vs, item.accepts v = true) :
    (boundedSet most item).accepts (.arr vs) = true := by
  simp only [boundedSet, Schema.keywords, Schema.ofType, Schema.maxItems,
    Schema.uniqueItems, Schema.items, JsonType.of, List.all_cons, List.all_nil, Bool.and_true,
    Bool.and_eq_true, decide_eq_true_eq, beq_self_eq_true, true_and]
  exact ⟨hlength, hnodup, List.all_eq_true.2 hitems⟩

theorem accepts_boundedArray : (boundedArray most item).accepts (.arr vs) = true ↔
      vs.length ≤ most ∧ ∀ v ∈ vs, item.accepts v = true := by
  simp only [boundedArray, Schema.keywords, Schema.ofType, Schema.maxItems, Schema.items,
    JsonType.of, List.all_cons, List.all_nil, Bool.and_true, Bool.and_eq_true, decide_eq_true_eq,
    beq_self_eq_true, true_and, List.all_eq_true]

theorem accepts_const (text : String) : (Schema.const text).accepts (.str (str text)) = true := by
  simp [Schema.const, Schema.enum]

section
variable [UnicodeData]

theorem digestObject_of_encodable {v : Json} {domain : Str} (h : v.encodable = true)
    (hdomain : validateDomain domain = .ok ()) :
    ∃ payload, digestObject v domain = .ok (sha256Digest payload) := by
  obtain ⟨b, hb⟩ := canonicalBytes_of_encodable h
  exact ⟨_, digestObject_of_domain hdomain hb⟩

end

end IntegrityGuardian.Schemas
