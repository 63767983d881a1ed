import IntegrityGuardian.Python.Text

/-!
# Numbers and lengths in octets

`int.to_bytes` loses nothing below its bound, and a sequence of octet strings can be
read off its items behind their lengths.
-/

namespace IntegrityGuardian.Python

variable {width : Nat}

theorem bigEndian_inj {m n : Nat} (hm : m < 256 ^ width) (hn : n < 256 ^ width)
    (h : Sha256.bigEndian width m = Sha256.bigEndian width n) : m = n := by
  induction width generalizing m n with
  | zero =>
    rw [Nat.pow_zero] at hm hn
    omega
  | succ width ih =>
    rw [Nat.pow_succ] at hm hn
    obtain ⟨hhigh, hlow⟩ := List.append_inj' h rfl
    have hdiv := ih (Nat.div_lt_of_lt_mul (by omega)) (Nat.div_lt_of_lt_mul (by omega)) hhigh
    rw [List.singleton_inj, ← UInt8.toNat_inj, UInt8.toNat_ofNat', UInt8.toNat_ofNat'] at hlow
    omega

/-- One item behind its length in `width` octets. -/
def lengthFrame (width : Nat) (item : Bytes) : Bytes :=
  Sha256.bigEndian width item.length ++ item

theorem lengthFrame_append_inj {a b rest rest' : Bytes}
    (ha : a.length < 256 ^ width) (hb : b.length < 256 ^ width)
    (h : lengthFrame width a ++ rest = lengthFrame width b ++ rest') : a = b ∧ rest = rest' := by
  rw [lengthFrame, lengthFrame, List.append_assoc, List.append_assoc] at h
  obtain ⟨hlengths, hitems⟩ := List.append_inj h (by
    rw [Sha256.length_bigEndian, Sha256.length_bigEndian])
  exact List.append_inj hitems (bigEndian_inj ha hb hlengths)

theorem flatMap_lengthFrame_inj (hwidth : 0 < width) {items items' : List Bytes}
    (hitems : ∀ item ∈ items, item.length < 256 ^ width)
    (hitems' : ∀ item ∈ items', item.length < 256 ^ width)
    (h : items.flatMap (lengthFrame width) = items'.flatMap (lengthFrame width)) :
    items = items' := by
  have hne : ∀ (item : Bytes) (rest : Bytes), lengthFrame width item ++ rest ≠ [] := by
    intro item rest hnil
    have hlength := congrArg List.length hnil
    simp [lengthFrame] at hlength
    omega
  induction items generalizing items' with
  | nil =>
    cases items' with
    | nil => rfl
    | cons item' items' => exact absurd h.symm (hne item' _)
  | cons item items ih =>
    cases items' with
    | nil => exact absurd h (hne item _)
    | cons item' items' =>
      rw [List.flatMap_cons, List.flatMap_cons] at h
      obtain ⟨hitem, hrest⟩ := lengthFrame_append_inj (hitems item List.mem_cons_self)
        (hitems' item' List.mem_cons_self) h
      rw [hitem, ih (fun i hi => hitems i (List.mem_cons_of_mem item hi))
        (fun i hi => hitems' i (List.mem_cons_of_mem item' hi)) hrest]

end IntegrityGuardian.Python
