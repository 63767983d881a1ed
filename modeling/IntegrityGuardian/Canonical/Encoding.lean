import IntegrityGuardian.Canonical
import IntegrityGuardian.Python.JsonSchema

/-!
# Faithful and separated encodings

Canonical bytes determine a value up to the order of its keys, and a digest frame
determines both its domain and its value: a domain holds no backslash, so the
first one after the profile is where the frame separator starts.
-/

namespace IntegrityGuardian

open Python
open Library (bind_eq_ok)

/-! ## Equality up to key order -/

/-- Equality up to the order of object keys: the least congruence that reorders
the members of an object. -/
inductive Reordered : Json → Json → Prop
  | refl (v : Json) : Reordered v v
  | symm {v w : Json} (h : Reordered v w) : Reordered w v
  | trans {u v w : Json} (huv : Reordered u v) (hvw : Reordered v w) : Reordered u w
  | members {ms ns : List (Str × Json)} (h : ms.Perm ns) : Reordered (.obj ms) (.obj ns)
  | item {v w : Json} (front back : List Json) (h : Reordered v w) :
      Reordered (.arr (front ++ v :: back)) (.arr (front ++ w :: back))
  | value {v w : Json} (key : Str) (front back : List (Str × Json)) (h : Reordered v w) :
      Reordered (.obj (front ++ (key, v) :: back)) (.obj (front ++ (key, w) :: back))

namespace Reordered

theorem wfItems_iff (items : List Json) :
    Json.wfItems items = true ↔ ∀ v ∈ items, v.wf = true := by
  induction items with
  | nil => simp [Json.wfItems]
  | cons v vs ih => simp [Json.wfItems, ih]

theorem wf_iff {v w : Json} (h : Reordered v w) : v.wf = true ↔ w.wf = true := by
  induction h with
  | refl v => exact Iff.rfl
  | symm h ih => exact ih.symm
  | trans huv hvw ihu ihv => exact ihu.trans ihv
  | members h =>
    rw [Json.wf_obj, Json.wf_obj, (h.map Prod.fst).nodup_iff]
    simp only [h.mem_iff]
  | item front back h ih => simp only [Json.wf, wfItems_iff, List.forall_mem_append,
      List.forall_mem_cons, ih]
  | value key front back h ih => simp only [Json.wf_obj, List.map_append, List.map_cons,
      List.forall_mem_append, List.forall_mem_cons, ih]

theorem sortMembers_append (ms ns : List (Str × Json)) :
    Json.sortMembers (ms ++ ns) = Json.sortMembers ms ++ Json.sortMembers ns := by
  induction ms with
  | nil => rfl
  | cons m ms ih => simp [Json.sortMembers, ih]

theorem sortKeys_eq {v w : Json} (h : Reordered v w) (hv : v.wf = true) :
    v.sortKeys = w.sortKeys := by
  induction h with
  | refl v => rfl
  | symm h ih => exact (ih (h.wf_iff.2 hv)).symm
  | trans huv hvw ihu ihv => exact (ihu hv).trans (ihv (huv.wf_iff.1 hv))
  | @members ms ns h =>
    have hw := (Reordered.members h).wf_iff.1 hv
    apply Json.sortKeys_eq_of_get? ⟨ms, rfl⟩ ⟨ns, rfl⟩ hv hw
    intro key
    congr 1
    apply Option.ext
    intro u
    simp only [Json.get?]
    rw [Json.lookup_eq_some_iff_mem (Json.wf_obj.1 hv).1,
      Json.lookup_eq_some_iff_mem (Json.wf_obj.1 hw).1, h.mem_iff]
  | item front back h ih =>
    have hitem := (wfItems_iff _).1 hv _ (List.mem_append_right _ List.mem_cons_self)
    simp only [Json.sortKeys, Schema.sortItems_eq_map, List.map_append, List.map_cons, ih hitem]
  | value key front back h ih =>
    have hvalue := (Json.wf_obj.1 hv).2 _ (List.mem_append_right _ List.mem_cons_self)
    simp only [Json.sortKeys, sortMembers_append, Json.sortMembers, ih hvalue]

theorem items {vs ws : List Json} (h : List.Forall₂ Reordered vs ws) (front : List Json) :
    Reordered (.arr (front ++ vs)) (.arr (front ++ ws)) := by
  induction h generalizing front with
  | nil => exact .refl _
  | @cons v w vs ws hvw hrest ih =>
    have hnext := ih (front ++ [w])
    rw [List.append_assoc, List.append_assoc] at hnext
    exact (Reordered.item front vs hvw).trans hnext

theorem values {ms ns : List (Str × Json)}
    (h : List.Forall₂ (fun m n => m.1 = n.1 ∧ Reordered m.2 n.2) ms ns)
    (front : List (Str × Json)) : Reordered (.obj (front ++ ms)) (.obj (front ++ ns)) := by
  induction h generalizing front with
  | nil => exact .refl _
  | @cons m n ms ns hmn hrest ih =>
    obtain ⟨key, v⟩ := m
    obtain ⟨key', w⟩ := n
    obtain ⟨rfl, hvw⟩ := hmn
    have hnext := ih (front ++ [(key, w)])
    rw [List.append_assoc, List.append_assoc] at hnext
    exact (Reordered.value key front ms hvw).trans hnext

mutual
theorem sorted : ∀ v : Json, Reordered v v.sortKeys
  | .null => .refl _
  | .bool _ => .refl _
  | .int _ => .refl _
  | .str _ => .refl _
  | .arr vs => items (sortedItems vs) []
  | .obj ms => (values (sortedMembers ms) []).trans (.members (List.perm_insertionSort _ _).symm)

theorem sortedItems : ∀ vs : List Json, List.Forall₂ Reordered vs (Json.sortItems vs)
  | [] => .nil
  | v :: vs => .cons (sorted v) (sortedItems vs)

theorem sortedMembers : ∀ ms : List (Str × Json),
    List.Forall₂ (fun m n => m.1 = n.1 ∧ Reordered m.2 n.2) ms (Json.sortMembers ms)
  | [] => .nil
  | (_, v) :: ms => .cons ⟨rfl, sorted v⟩ (sortedMembers ms)
end

theorem iff_sortKeys_eq {v w : Json} (hv : v.wf = true) :
    Reordered v w ↔ v.sortKeys = w.sortKeys := by
  constructor
  · intro h
    exact h.sortKeys_eq hv
  · intro h
    have hw := (sorted w).symm
    rw [← h] at hw
    exact (sorted v).trans hw

end Reordered

/-! ## Canonical JSON -/

/-- A value the profile covers: a `dict` has distinct keys, and no text holds a surrogate. -/
structure ProfileValue where
  value : Json
  wf : value.wf = true
  encodable : value.encodable = true

theorem canonicalBytes_of_parsed {v : Json} (hwf : v.wf = true) (hencodable : v.encodable = true) :
    ∃ b, canonicalBytes v = .ok b ∧ parseJsonStrict b = .ok v.sortKeys ∧
      canonicalBytes v.sortKeys = .ok b := by
  obtain ⟨b, hb⟩ := canonicalBytes_of_encodable hencodable
  exact ⟨b, hb, parseJsonStrict_canonicalBytes hwf hb, by rw [canonicalBytes_sortKeys, hb]⟩

/-- Canonical JSON is a faithful encoding. -/
theorem canonical_json_faithful :
    (∀ v : ProfileValue, ∃ b w, canonicalBytes v.value = .ok b ∧ parseJsonStrict b = .ok w ∧
      Reordered v.value w) ∧
    (∀ v w : ProfileValue,
      canonicalBytes v.value = canonicalBytes w.value ↔ Reordered v.value w.value) ∧
    (∀ document v, parseJsonStrict document = .ok v → v.encodable = true →
      ∃ b w, canonicalBytes v = .ok b ∧ parseJsonStrict b = .ok w ∧ canonicalBytes w = .ok b) ∧
    (∀ document v, parseJsonStrictText document = .ok v → v.encodable = true →
      ∃ b w, canonicalBytes v = .ok b ∧ parseJsonStrict b = .ok w ∧ canonicalBytes w = .ok b) := by
  refine ⟨?_, ?_, ?_, ?_⟩
  · intro v
    obtain ⟨b, hb, hparse, -⟩ := canonicalBytes_of_parsed v.wf v.encodable
    exact ⟨b, _, hb, hparse, Reordered.sorted v.value⟩
  · intro v w
    rw [Reordered.iff_sortKeys_eq v.wf]
    constructor
    · intro h
      obtain ⟨b, hb⟩ := canonicalBytes_of_encodable v.encodable
      exact sortKeys_eq_of_canonicalBytes_eq v.wf w.wf hb (h ▸ hb)
    · intro h
      rw [← canonicalBytes_sortKeys v.value, h, canonicalBytes_sortKeys]
  · intro document v hparsed hencodable
    obtain ⟨b, hb, hparse, hagain⟩ :=
      canonicalBytes_of_parsed (Json.loadsBytes_wf hparsed) hencodable
    exact ⟨b, _, hb, hparse, hagain⟩
  · intro document v hparsed hencodable
    obtain ⟨b, hb, hparse, hagain⟩ := canonicalBytes_of_parsed (Json.loads_wf hparsed) hencodable
    exact ⟨b, _, hb, hparse, hagain⟩

/-! ## Digest frames -/

theorem backslash_notMem_utf8Octets {c : CodePoint} (h : c ≠ Json.ch '\\') :
    (0x5c : UInt8) ∉ utf8Octets c := by
  have hc := c.isLt
  have hval : c.val ≠ 0x5c := fun heq => h (Fin.ext heq)
  have hnat : ∀ n, n ≠ 0x5c → n < 256 → (0x5c : UInt8) ≠ UInt8.ofNat n := by
    intro n hne hlt heq
    have hoctet := congrArg UInt8.toNat heq
    rw [UInt8.toNat_ofNat'] at hoctet
    have hslash : (0x5c : UInt8).toNat = 0x5c := rfl
    omega
  unfold utf8Octets
  split
  · simpa using hnat c.val (by omega) (by omega)
  split
  · simp only [List.mem_cons, List.not_mem_nil, or_false, not_or]
    exact ⟨hnat _ (by omega) (by omega), hnat _ (by omega) (by omega)⟩
  split
  · simp only [List.mem_cons, List.not_mem_nil, or_false, not_or]
    exact ⟨hnat _ (by omega) (by omega), hnat _ (by omega) (by omega), hnat _ (by omega) (by omega)⟩
  · simp only [List.mem_cons, List.not_mem_nil, or_false, not_or]
    exact ⟨hnat _ (by omega) (by omega), hnat _ (by omega) (by omega),
      hnat _ (by omega) (by omega), hnat _ (by omega) (by omega)⟩

theorem flatMap_utf8Octets_injective {s t : Str}
    (h : s.flatMap utf8Octets = t.flatMap utf8Octets) : s = t := by
  have hs := decodeWith_flatMap s (Nat.le_max_left s.length t.length)
  rw [h, decodeWith_flatMap t (Nat.le_max_right s.length t.length)] at hs
  exact (Option.some.inj hs).symm

theorem append_separator_inj {α : Type} {s : α} {x y a b : List α} (hx : s ∉ x) (hy : s ∉ y)
    (h : x ++ s :: a = y ++ s :: b) : x = y ∧ a = b := by
  rcases List.append_eq_append_iff.1 h with ⟨c, rfl, hc⟩ | ⟨c, rfl, hc⟩
  · cases c with
    | nil => exact ⟨(List.append_nil x).symm, (List.cons.inj hc).2⟩
    | cons t c => simp [(List.cons.inj hc).1] at hy
  · cases c with
    | nil => exact ⟨List.append_nil y, (List.cons.inj hc).2.symm⟩
    | cons t c => simp [(List.cons.inj hc).1] at hx

section
variable [UnicodeData]

variable {domain : Str}

theorem backslash_notMem_of_validateDomain (h : validateDomain domain = .ok ()) :
    (0x5c : UInt8) ∉ domain.flatMap utf8Octets := by
  unfold validateDomain at h
  split at h
  · cases h
  · rename_i hgood
    intro hmem
    obtain ⟨c, hc, hslash⟩ := List.mem_flatMap.1 hmem
    apply backslash_notMem_utf8Octets _ hslash
    rintro rfl
    apply hgood
    exact Or.inr (List.any_eq_true.2 ⟨_, hc, by simp⟩)

omit [UnicodeData] in
theorem exists_digestPrefix_eq : ∃ head tail : Bytes, ∀ domain,
    digestPrefix domain = head ++ (domain.flatMap utf8Octets ++ 0x5c :: tail) := by
  have hseparator : frameSeparator.flatMap utf8Octets = 0x5c :: (str "x00").flatMap utf8Octets := by
    decide
  refine ⟨(str "integrity-guardian" ++ frameSeparator ++ profile
    ++ frameSeparator).flatMap utf8Octets, (str "x00").flatMap utf8Octets, ?_⟩
  intro domain
  simp only [digestPrefix, List.flatMap_append, hseparator, List.append_assoc]

omit [UnicodeData] in
theorem frame_injective {d e : Str} (hd : (0x5c : UInt8) ∉ d.flatMap utf8Octets)
    (he : (0x5c : UInt8) ∉ e.flatMap utf8Octets) {b c : Bytes}
    (h : digestPrefix d ++ b = digestPrefix e ++ c) : d = e ∧ b = c := by
  obtain ⟨head, tail, hframe⟩ := exists_digestPrefix_eq
  simp only [hframe, List.append_assoc, List.cons_append] at h
  have hrest := List.append_cancel_left h
  obtain ⟨hdomain, htail⟩ := append_separator_inj hd he hrest
  exact ⟨flatMap_utf8Octets_injective hdomain, List.append_cancel_left htail⟩

theorem validateDomain_of_digestObject {value : Json} {digest : Str}
    (h : digestObject value domain = .ok digest) : validateDomain domain = .ok () := by
  unfold digestObject at h
  obtain ⟨⟨⟩, hvalid, -⟩ := bind_eq_ok.1 h
  exact hvalid

/-- Domain separation: the bytes under two digests are the same exactly when the
domains are the same and the values are the same up to key order, so digests
without a SHA-256 collision never identify objects of different domains. -/
theorem digest_domains_separated {v w : Document} {d e x y : Str}
    (hx : digestObject v.value d = .ok x) (hy : digestObject w.value e = .ok y) :
    ∃ b c, canonicalBytes v.value = .ok b ∧ canonicalBytes w.value = .ok c ∧
      x = sha256Digest (digestPrefix d ++ b) ∧ y = sha256Digest (digestPrefix e ++ c) ∧
      (digestPrefix d ++ b = digestPrefix e ++ c ↔ d = e ∧ Reordered v.value w.value) ∧
      (Set.InjOn sha256 {digestPrefix d ++ b, digestPrefix e ++ c} →
        (x = y ↔ d = e ∧ Reordered v.value w.value)) := by
  obtain ⟨b, hb, rfl⟩ := digestObject_eq_ok hx
  obtain ⟨c, hc, rfl⟩ := digestObject_eq_ok hy
  have hframes : digestPrefix d ++ b = digestPrefix e ++ c ↔ d = e ∧ Reordered v.value w.value := by
    rw [Reordered.iff_sortKeys_eq v.wf]
    constructor
    · intro h
      obtain ⟨rfl, rfl⟩ := frame_injective
        (backslash_notMem_of_validateDomain (validateDomain_of_digestObject hx))
        (backslash_notMem_of_validateDomain (validateDomain_of_digestObject hy)) h
      exact ⟨rfl, sortKeys_eq_of_canonicalBytes_eq v.wf w.wf hb hc⟩
    · rintro ⟨rfl, hsorted⟩
      rw [← canonicalBytes_sortKeys, hsorted, canonicalBytes_sortKeys, hc] at hb
      rw [Except.ok.inj hb]
  refine ⟨b, c, hb, hc, rfl, rfl, hframes, ?_⟩
  intro hsha
  rw [← hframes]
  constructor
  · intro h
    exact hsha (by simp) (by simp) (sha256Digest_inj h)
  · intro h
    rw [h]

end

/-- The empty object under two domains. -/
theorem digest_domains_sample :
    (sha256Digest (digestPrefix (str "a") ++ [0x7b, 0x7d])
      = sha256Digest (digestPrefix (str "b") ++ [0x7b, 0x7d])) ↔
      str "a" = str "b" ∧ Reordered (.obj []) (.obj []) := by
  have hvalid : ∀ domain, domain = str "a" ∨ domain = str "b" →
      @validateDomain asciiUnicodeData domain = .ok () := by
    rintro domain (rfl | rfl) <;> decide
  have hbytes : canonicalBytes (.obj []) = .ok [0x7b, 0x7d] := by decide
  have ha := @digestObject_of_domain asciiUnicodeData _ (hvalid (str "a") (Or.inl rfl)) _ _ hbytes
  have hb := @digestObject_of_domain asciiUnicodeData _ (hvalid (str "b") (Or.inr rfl)) _ _ hbytes
  obtain ⟨b, c, hb', hc', -, -, -, hdigests⟩ :=
    @digest_domains_separated asciiUnicodeData ⟨.obj [], rfl⟩ ⟨.obj [], rfl⟩ _ _ _ _ ha hb
  obtain rfl := Except.ok.inj (hbytes.symm.trans hb')
  obtain rfl := Except.ok.inj (hbytes.symm.trans hc')
  apply hdigests
  have hne : sha256 (digestPrefix (str "a") ++ [0x7b, 0x7d])
      ≠ sha256 (digestPrefix (str "b") ++ [0x7b, 0x7d]) := by
    decide +kernel
  rintro m (rfl | rfl) n (rfl | rfl) h
  · rfl
  · exact absurd h hne
  · exact absurd h.symm hne
  · rfl

end IntegrityGuardian
