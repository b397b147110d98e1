import YmirC.Bits
import YmirC.Lib.BitField

/-!
# `YmirC.Proofs.Bits`: the bit helpers, bit by bit

Every helper of `bits.h` read through `getLsbD`, the form the other proofs use. A helper
never appears unfolded outside this module.
-/

set_option autoImplicit false

namespace YmirC

open BitField

/-- `tobit16 n` has exactly bit `n`, and no bit when `n` is out of range. -/
theorem getLsbD_tobit16 (n i : Nat) :
    (tobit16 n).getLsbD i = decide (n < 16 ∧ i = n) := by
  unfold tobit16
  split
  · rename_i hn
    rw [BitVec.getLsbD_zero, eq_comm, decide_eq_false_iff_not]
    omega
  · exact getLsbD_one_shiftLeft n i

/-- Masking with one bit is zero exactly when the bit is clear. -/
theorem and_tobit16_eq_zero (v : BitVec 16) (n : Nat) (hn : n < 16) :
    v &&& tobit16 n = 0#16 ↔ v.getLsbD n = false := by
  rw [tobit16, if_neg (by omega)]
  exact and_one_shiftLeft_eq_zero v n hn

/-- `tobit n` has exactly bit `n`, and no bit when `n` is out of range. -/
theorem getLsbD_tobit (n i : Nat) : (tobit n).getLsbD i = decide (n < 64 ∧ i = n) := by
  unfold tobit
  split
  · rename_i hn
    rw [BitVec.getLsbD_zero, eq_comm, decide_eq_false_iff_not]
    omega
  · exact getLsbD_one_shiftLeft n i

/-- Masking with one bit is zero exactly when the bit is clear. -/
theorem and_tobit_eq_zero (v : BitVec 64) (n : Nat) (hn : n < 64) :
    v &&& tobit n = 0#64 ↔ v.getLsbD n = false := by
  rw [tobit, if_neg (by omega)]
  exact and_one_shiftLeft_eq_zero v n hn

/-- `isset16` reads the bit. -/
theorem isset16_eq (v : BitVec 16) (n : Nat) : isset16 v n = v.getLsbD n := by
  unfold isset16
  split
  · rename_i hn
    rw [BitVec.getLsbD_of_ge _ _ hn]
  · exact shiftRight_and_one_bne_zero (by decide) v n

/-- `isset8` reads the bit. -/
theorem isset8_eq (v : BitVec 8) (n : Nat) : isset8 v n = v.getLsbD n := by
  unfold isset8
  split
  · rename_i hn
    rw [BitVec.getLsbD_of_ge _ _ hn]
  · exact shiftRight_and_one_bne_zero (by decide) v n

/-- `isset` reads the bit. -/
theorem isset_eq (v : BitVec 64) (n : Nat) : isset v n = v.getLsbD n := by
  unfold isset
  split
  · rename_i hn
    rw [BitVec.getLsbD_of_ge _ _ hn]
  · exact shiftRight_and_one_bne_zero (by decide) v n

/-- `concat_64` puts the low halves of its arguments together. -/
theorem concat64_eq (a b : BitVec 64) : concat64 a b = a.setWidth 32 ++ b.setWidth 32 := by
  apply BitVec.eq_of_getLsbD_eq
  intro i hi
  have hmask : ∀ j, (0xFFFFFFFF#64).getLsbD j = decide (j < 32) := by
    intro j
    rw [show (0xFFFFFFFF#64) = BitVec.setWidth 64 (BitVec.allOnes 32) by decide,
      BitVec.getLsbD_setWidth, BitVec.getLsbD_allOnes]
    by_cases hj : j < 32
    · simp [hj, show j < 64 by omega]
    · simp [hj]
  rw [concat64, BitVec.getLsbD_or, BitVec.getLsbD_shiftLeft, BitVec.getLsbD_and,
    BitVec.getLsbD_and, hmask, hmask, BitVec.getLsbD_append, BitVec.getLsbD_setWidth,
    BitVec.getLsbD_setWidth]
  by_cases hlow : i < 32
  · simp [hlow]
  · simp [hlow, hi, show i - 32 < 32 by omega]

/-- `ctzll` finds the lowest set bit. -/
theorem ctzll_eq {mask : BitVec 64} {lo : Nat} (hlo : lo < 64) (hset : mask.getLsbD lo = true)
    (hbelow : ∀ i < lo, mask.getLsbD i = false) : ctzll mask = lo := by
  have hfind : (List.range 64).find? (fun i => mask.getLsbD i) = some lo := by
    rw [List.find?_range_eq_some]
    exact ⟨hset, List.mem_range.mpr hlo, fun j hj => by rw [hbelow j hj]; rfl⟩
  rw [ctzll, hfind, Option.getD_some]

/-- The lowest set bit of a field's mask is the start of the field. -/
theorem ctzll_of_field {mask : BitVec 64} {lo w : Nat}
    (hmask : ∀ i, mask.getLsbD i = decide (lo ≤ i ∧ i < lo + w)) (hw : 0 < w)
    (hle : lo + w ≤ 64) : ctzll mask = lo := by
  apply ctzll_eq (by omega)
  · rw [hmask, decide_eq_true_iff]
    omega
  · intro j hj
    rw [hmask, decide_eq_false_iff_not]
    omega

/-- `set_masked_bits` with the mask of the field of `w` bits from bit `lo` writes the low bits
of the value there and keeps every other bit. -/
theorem getLsbD_setMaskedBits {mask : BitVec 64} {lo w : Nat}
    (hmask : ∀ i, mask.getLsbD i = decide (lo ≤ i ∧ i < lo + w)) (hw : 0 < w)
    (hle : lo + w ≤ 64) (target val : BitVec 64) (i : Nat) :
    (setMaskedBits target val mask).getLsbD i
      = if lo ≤ i ∧ i < lo + w then val.getLsbD (i - lo) else target.getLsbD i := by
  rw [setMaskedBits, ctzll_of_field hmask hw hle]
  exact getLsbD_and_not_or_shiftLeft_and hmask hle target val i

/-- `set_masked_bits` with a field's mask is the write of the field. -/
theorem setMaskedBits_fieldMask {lo w : Nat} (hw : 0 < w) (hle : lo + w ≤ 64)
    (target val : BitVec 64) :
    setMaskedBits target val (fieldMask 64 lo w) = writeField target ⟨lo, w, val⟩ := by
  rw [setMaskedBits, ctzll_of_field (getLsbD_fieldMask hle) hw hle]
  rfl

/-- `get_lower_bits` keeps the bits below its count. -/
theorem getLsbD_getLowerBits (val : BitVec 64) (bits : BitVec 8) (i : Nat) :
    (getLowerBits val bits).getLsbD i = (decide (i < bits.toNat) && val.getLsbD i) := by
  unfold getLowerBits
  split
  · rename_i hbits
    by_cases hi : i < bits.toNat
    · simp [hi]
    · simp [hi, BitVec.getLsbD_of_ge val i (by omega)]
  · rename_i hbits
    rw [BitVec.getLsbD_and, getLsbD_one_shiftLeft_sub_one (by omega), Bool.and_comm]

/-- The mask of one bit. -/
theorem getLsbD_tobit_field {n : Nat} (hn : n < 64) (i : Nat) :
    (tobit n).getLsbD i = decide (n ≤ i ∧ i < n + 1) := by
  rw [getLsbD_tobit]
  congr 1
  apply propext
  omega

/-- `set_masked_bits` with the mask of one bit. -/
theorem getLsbD_setMaskedBits_tobit {n : Nat} (hn : n < 64) (target val : BitVec 64) (i : Nat) :
    (setMaskedBits target val (tobit n)).getLsbD i
      = if i = n then val.getLsbD 0 else target.getLsbD i := by
  rw [getLsbD_setMaskedBits (getLsbD_tobit_field hn) (by decide) (by omega)]
  by_cases hi : i = n
  · rw [if_pos (by omega), if_pos hi, hi, Nat.sub_self]
  · rw [if_neg (by omega), if_neg hi]

end YmirC
