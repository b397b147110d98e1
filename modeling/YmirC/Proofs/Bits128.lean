import YmirC.Proofs.Bits

/-!
# `YmirC.Proofs.Bits128`: where the 128-bit helpers are defined

`set_masked_bits_128` shifts by the lowest set bit of the low half of its mask, and
`get_lower_bits_128` builds its mask in 64 bits. On a field that starts below bit 64 the first
is the write it should be (`setMaskedBits128_fieldMask`); on widths below 64, and on 128, so is
the second (`getLowerBits128_isSome_iff`, `getLsbD_getLowerBits128`). Outside of that the
helpers have no documented result, and `fieldLaw128_iff` says that this is the exact border.
-/

set_option autoImplicit false

namespace YmirC

open BitField

variable {ctz : BitVec 64 → Int}

/-! ### The shift and the builtin -/

/-- A shift is defined exactly inside the width. -/
theorem shiftLeft?_natCast {w : Nat} (x : BitVec w) (n : Nat) :
    shiftLeft? x (n : Int) = if n < w then some (x <<< n) else none := by
  unfold shiftLeft?
  by_cases hn : n < w
  · rw [if_pos ⟨by omega, by omega⟩, if_pos hn, Int.toNat_natCast]
  · rw [if_neg (by omega), if_neg hn]

/-- The builtin that answers `c` for 0 and is documented elsewhere. -/
def ctzllOr (c : Int) (mask : BitVec 64) : Int := if mask = 0#64 then c else ctzll mask

theorem isCtzll_ctzllOr (c : Int) : IsCtzll (ctzllOr c) := fun _ h => if_neg h

/-- The low half of a field's mask is zero exactly when the field starts above it. -/
theorem setWidth_fieldMask_eq_zero {s w : Nat} (hw : 0 < w) (hle : s + w ≤ 128) :
    (fieldMask 128 s w).setWidth 64 = 0#64 ↔ 64 ≤ s := by
  constructor
  · intro h
    by_contra hs
    have hbit := congrArg (fun m : BitVec 64 => m.getLsbD s) h
    simp only [BitVec.getLsbD_setWidth, getLsbD_fieldMask hle, BitVec.getLsbD_zero] at hbit
    simp [show s < 64 by omega, hw] at hbit
  · intro hs
    apply BitVec.eq_of_getLsbD_eq
    intro i hi
    rw [BitVec.getLsbD_setWidth, getLsbD_fieldMask hle, BitVec.getLsbD_zero]
    simp [show ¬ s ≤ i by omega]

/-- Below bit 64 the builtin finds the start of the field. -/
theorem IsCtzll.fieldMask (h : IsCtzll ctz) {s w : Nat} (hw : 0 < w) (hle : s + w ≤ 128)
    (hs : s < 64) : ctz ((fieldMask 128 s w).setWidth 64) = s := by
  have hne : (BitField.fieldMask 128 s w).setWidth 64 ≠ 0#64 := fun h0 =>
    absurd ((setWidth_fieldMask_eq_zero hw hle).mp h0) (by omega)
  rw [h _ hne, ctzll_eq hs]
  · rw [BitVec.getLsbD_setWidth, getLsbD_fieldMask hle]
    simp [hs, hw]
  · intro i hi
    rw [BitVec.getLsbD_setWidth, getLsbD_fieldMask hle]
    simp [show ¬ s ≤ i by omega]

/-! ### The two helpers -/

/-- On a field that starts below bit 64, `set_masked_bits_128` is the masked write. -/
theorem setMaskedBits128_fieldMask (h : IsCtzll ctz) {s w : Nat} (hw : 0 < w)
    (hle : s + w ≤ 128) (hs : s < 64) (t v : BitVec 128) :
    setMaskedBits128 ctz t v (fieldMask 128 s w)
      = some ((t &&& ~~~fieldMask 128 s w) ||| ((v <<< s) &&& fieldMask 128 s w)) := by
  show (shiftLeft? v (ctz ((fieldMask 128 s w).setWidth 64))).bind _ = _
  rw [h.fieldMask hw hle hs, shiftLeft?_natCast, if_pos (by omega)]
  rfl

/-- `get_lower_bits_128` has a result for the widths below 64 and from 128 on. -/
theorem getLowerBits128_isSome_iff (v : BitVec 128) (bits : BitVec 8) :
    (getLowerBits128 v bits).isSome ↔ bits.toNat < 64 ∨ 128 ≤ bits.toNat := by
  unfold getLowerBits128
  split
  · rename_i hbits
    simp [hbits]
  · rename_i hbits
    rw [shiftLeft?_natCast]
    by_cases h64 : bits.toNat < 64
    · simp [h64]
    · simp [h64, hbits]

/-- Where it has one, it keeps the bits below its count. -/
theorem getLsbD_getLowerBits128 {v lower : BitVec 128} {bits : BitVec 8}
    (h : getLowerBits128 v bits = some lower) (i : Nat) :
    lower.getLsbD i = (decide (i < bits.toNat) && v.getLsbD i) := by
  unfold getLowerBits128 at h
  split at h
  · rename_i hbits
    obtain rfl := Option.some.inj h
    by_cases hi : i < bits.toNat
    · simp [hi]
    · simp [hi, BitVec.getLsbD_of_ge v i (by omega)]
  · rw [shiftLeft?_natCast] at h
    by_cases h64 : bits.toNat < 64
    · rw [if_pos h64] at h
      obtain rfl := Option.some.inj h
      rw [BitVec.getLsbD_and, BitVec.getLsbD_setWidth, getLsbD_one_shiftLeft_sub_one h64,
        Bool.and_comm]
      by_cases hi : i < bits.toNat
      · simp [hi, show i < 128 by omega]
      · simp [hi]
    · rw [if_neg h64] at h
      cases h

/-! ### The field law -/

/-- `t'` is `t` with the low `w` bits of `v` in the field of `w` bits from bit `s`. -/
def FieldWritten (t v t' : BitVec 128) (s w : Nat) : Prop :=
  (t'.extractLsb' s w).toNat = v.toNat % 2 ^ w ∧
    ∀ i, ¬ (s ≤ i ∧ i < s + w) → t'.getLsbD i = t.getLsbD i

/-- `set_masked_bits_128(&t, get_lower_bits_128(v, w), mask)` has a result, and it writes the
field. -/
def FieldLaw128 (ctz : BitVec 64 → Int) (t v : BitVec 128) (s w : Nat) : Prop :=
  ∃ lower t', getLowerBits128 v (BitVec.ofNat 8 w) = some lower ∧
    setMaskedBits128 ctz t lower (fieldMask 128 s w) = some t' ∧ FieldWritten t v t' s w

/-- A write that is right bit by bit writes the field. -/
theorem fieldWritten_of_getLsbD {t v t' : BitVec 128} {s w : Nat}
    (h : ∀ i, t'.getLsbD i = if s ≤ i ∧ i < s + w then v.getLsbD (i - s) else t.getLsbD i) :
    FieldWritten t v t' s w := by
  constructor
  · have hfield : t'.extractLsb' s w = v.setWidth w := by
      apply BitVec.eq_of_getLsbD_eq
      intro i hi
      rw [BitVec.getLsbD_extractLsb', BitVec.getLsbD_setWidth, h, if_pos (by omega),
        Nat.add_sub_cancel_left]
    rw [hfield, BitVec.toNat_setWidth]
  · intro i hi
    rw [h, if_neg hi]

/-- Fields that start below bit 64 and widths below 64, or the whole word: the only ones on
which the documentation of the builtin and of the shift gives the helpers a result. -/
theorem fieldLaw128_iff (t v : BitVec 128) (s w : Nat) (hw : 1 ≤ w) (hsw : s + w ≤ 128) :
    (∀ ctz, IsCtzll ctz → FieldLaw128 ctz t v s w) ↔ s < 64 ∧ (w < 64 ∨ w = 128) := by
  have hbits : (BitVec.ofNat 8 w).toNat = w := by
    rw [BitVec.toNat_ofNat]
    omega
  constructor
  · intro h
    -- A builtin that answers 128 for 0 leaves the shift undefined.
    obtain ⟨lower, t', hlower, hset, -⟩ := h (ctzllOr 128) (isCtzll_ctzllOr 128)
    refine ⟨?_, ?_⟩
    · by_contra hs
      have hzero := (setWidth_fieldMask_eq_zero hw hsw).mpr (by omega)
      have hnone : setMaskedBits128 (ctzllOr 128) t lower (fieldMask 128 s w) = none := by
        show (shiftLeft? lower (ctzllOr 128 _)).bind _ = none
        rw [hzero]
        rfl
      rw [hnone] at hset
      cases hset
    · have hsome := (getLowerBits128_isSome_iff v (BitVec.ofNat 8 w)).mp
        (Option.isSome_of_eq_some hlower)
      rw [hbits] at hsome
      omega
  · rintro ⟨hs, hwidth⟩ ctz hctz
    have hsome : (getLowerBits128 v (BitVec.ofNat 8 w)).isSome := by
      rw [getLowerBits128_isSome_iff, hbits]
      omega
    obtain ⟨lower, hlower⟩ := Option.isSome_iff_exists.mp hsome
    refine ⟨lower, _, hlower, setMaskedBits128_fieldMask hctz hw hsw hs t lower, ?_⟩
    apply fieldWritten_of_getLsbD
    intro i
    rw [getLsbD_and_not_or_shiftLeft_and (getLsbD_fieldMask hsw) hsw]
    by_cases hin : s ≤ i ∧ i < s + w
    · rw [if_pos hin, if_pos hin, getLsbD_getLowerBits128 hlower, hbits,
        decide_eq_true (by omega), Bool.true_and]
    · rw [if_neg hin, if_neg hin]

/-- A nibble at bit 4, as in the test of the helpers. -/
theorem fieldLaw128_nibble :
    (∀ ctz, IsCtzll ctz → FieldLaw128 ctz 0b01010101#128 0b11001100#128 4 4) ↔
      4 < 64 ∧ (4 < 64 ∨ 4 = 128) :=
  fieldLaw128_iff _ _ 4 4 (by decide) (by decide)

/-- The bit above the low half: with a builtin that answers 0 for 0, the one that is written
to bit 64 is shifted by nothing and masked away. -/
theorem not_fieldLaw128_high :
    ¬ ∀ (t v : BitVec 128) (s w : Nat), 1 ≤ w → s + w ≤ 128 →
      ∀ ctz, IsCtzll ctz → FieldLaw128 ctz t v s w := by
  intro h
  obtain ⟨lower, t', hlower, hset, hfield, -⟩ :=
    h 0#128 1#128 64 1 (by decide) (by decide) (ctzllOr 0) (isCtzll_ctzllOr 0)
  have hlower' : getLowerBits128 1#128 (BitVec.ofNat 8 1) = some 1#128 := by decide
  rw [hlower'] at hlower
  obtain rfl := Option.some.inj hlower
  have hset' : setMaskedBits128 (ctzllOr 0) 0#128 1#128 (fieldMask 128 64 1) = some 0#128 := by
    decide
  rw [hset'] at hset
  obtain rfl := Option.some.inj hset
  revert hfield
  decide

end YmirC
