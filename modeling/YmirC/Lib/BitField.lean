import Mathlib.Algebra.Group.Nat.Defs
import Mathlib.Data.List.Basic

/-!
# `YmirC.Lib.BitField`: single bits and contiguous fields of a word

Facts about bit vectors of any width, read through `getLsbD`: the C idioms `1 << n`,
`v >> n & 1`, `v & (1 << n)` and `(t & ~mask) | (v << s & mask)`.

A record of bit fields is written one field after another (`writeFields`). When the fields fit
the word and lie apart (`FieldsApart`), each is read back as it was written, every bit outside
of them is kept, and fields that cover the word leave nothing of what was there before.
-/

set_option autoImplicit false

namespace BitField

variable {w : Nat}

/-- The bits of `1 << n`. -/
theorem getLsbD_one_shiftLeft (n i : Nat) :
    (1#w <<< n).getLsbD i = decide (n < w ∧ i = n) := by
  rw [BitVec.getLsbD_shiftLeft, BitVec.getLsbD_one]
  by_cases hi : i = n
  · subst hi
    by_cases hw : i < w <;> simp [hw]
    omega
  · by_cases hw : i < w
    · simp only [hi, and_false, decide_false]
      by_cases hlt : i < n
      · simp [hlt]
      · have hne : i - n ≠ 0 := by omega
        simp [hne]
    · simp [hi, hw]

/-- The mask of the field of `k` bits from bit `s`. -/
def fieldMask (w s k : Nat) : BitVec w := BitVec.ofNat w ((2 ^ k - 1) * 2 ^ s)

/-- The bits of a field's mask are the field. -/
theorem getLsbD_fieldMask {s k : Nat} (hle : s + k ≤ w) (i : Nat) :
    (fieldMask w s k).getLsbD i = decide (s ≤ i ∧ i < s + k) := by
  rw [fieldMask, BitVec.getLsbD_ofNat, Nat.testBit_mul_two_pow, Nat.testBit_two_pow_sub_one]
  by_cases hs : s ≤ i
  · by_cases hk : i < s + k
    · simp [hs, hk, show i < w by omega, show i - s < k by omega]
    · simp [hs, hk, show ¬ i - s < k by omega]
  · simp [hs]

/-- The bits of `(1 << k) - 1`. -/
theorem getLsbD_one_shiftLeft_sub_one {k : Nat} (hk : k < w) (i : Nat) :
    ((1#w <<< k) - 1#w).getLsbD i = decide (i < k) := by
  have hpow : 2 ^ k < 2 ^ w := Nat.pow_lt_pow_right (by decide) hk
  have hone : 1 ≤ 2 ^ k := Nat.one_le_two_pow
  have hmask : (1#w <<< k) - 1#w = BitVec.ofNat w (2 ^ k - 1) := by
    apply BitVec.eq_of_toNat_eq
    have h1w : 1 % 2 ^ w = 1 := Nat.mod_eq_of_lt (by omega)
    rw [BitVec.toNat_sub, BitVec.toNat_shiftLeft, BitVec.toNat_ofNat, BitVec.toNat_ofNat, h1w,
      Nat.one_shiftLeft, Nat.mod_eq_of_lt hpow,
      show 2 ^ w - 1 + 2 ^ k = 2 ^ w + (2 ^ k - 1) by omega, Nat.add_mod_left]
  rw [hmask, BitVec.getLsbD_ofNat, Nat.testBit_two_pow_sub_one]
  by_cases hi : i < k
  · simp [hi, show i < w by omega]
  · simp [hi]

/-- `(t & ~mask) | (v & mask)` takes the bits of the mask from `v` and the others from `t`. -/
theorem getLsbD_and_not_or_and (t v mask : BitVec w) (i : Nat) :
    ((t &&& ~~~mask) ||| (v &&& mask)).getLsbD i
      = if mask.getLsbD i then v.getLsbD i else t.getLsbD i := by
  rw [BitVec.getLsbD_or, BitVec.getLsbD_and, BitVec.getLsbD_and, BitVec.getLsbD_not]
  by_cases hi : i < w
  · cases mask.getLsbD i <;> simp [hi]
  · simp [BitVec.getLsbD_of_ge _ i (Nat.le_of_not_lt hi)]

/-- `(t & ~mask) | (v << s & mask)`, for the mask of the field of `k` bits from bit `s`, puts the
low bits of `v` into the field. -/
theorem getLsbD_and_not_or_shiftLeft_and {mask : BitVec w} {s k : Nat}
    (hmask : ∀ i, mask.getLsbD i = decide (s ≤ i ∧ i < s + k)) (hle : s + k ≤ w)
    (t v : BitVec w) (i : Nat) :
    ((t &&& ~~~mask) ||| ((v <<< s) &&& mask)).getLsbD i
      = if s ≤ i ∧ i < s + k then v.getLsbD (i - s) else t.getLsbD i := by
  rw [getLsbD_and_not_or_and, hmask]
  by_cases hin : s ≤ i ∧ i < s + k
  · rw [decide_eq_true hin, if_pos rfl, if_pos hin, BitVec.getLsbD_shiftLeft,
      decide_eq_true (by omega : i < w), decide_eq_false (by omega : ¬ i < s)]
    rfl
  · rw [decide_eq_false hin, if_neg hin]
    rfl

/-! ### Fields written one after another -/

/-- A value for the field of `width` bits from bit `lo`. -/
structure Field (w : Nat) where
  lo : Nat
  width : Nat
  val : BitVec w

/-- Bit `i` lies in the field. -/
def Field.Covers (f : Field w) (i : Nat) : Prop := f.lo ≤ i ∧ i < f.lo + f.width

/-- The masked write of one field. -/
def writeField (t : BitVec w) (f : Field w) : BitVec w :=
  (t &&& ~~~fieldMask w f.lo f.width) ||| ((f.val <<< f.lo) &&& fieldMask w f.lo f.width)

/-- The masked writes of a list of fields, in this order. -/
def writeFields (t : BitVec w) (fs : List (Field w)) : BitVec w := fs.foldl writeField t

/-- The fields lie inside the word, and apart from each other. -/
structure FieldsApart (fs : List (Field w)) : Prop where
  fits : ∀ f ∈ fs, f.lo + f.width ≤ w
  apart : fs.Pairwise (fun f g => f.lo + f.width ≤ g.lo ∨ g.lo + g.width ≤ f.lo)

theorem getLsbD_writeField {f : Field w} (hf : f.lo + f.width ≤ w) (t : BitVec w) (i : Nat) :
    (writeField t f).getLsbD i
      = if f.lo ≤ i ∧ i < f.lo + f.width then f.val.getLsbD (i - f.lo) else t.getLsbD i :=
  getLsbD_and_not_or_shiftLeft_and (getLsbD_fieldMask hf) hf t f.val i

/-- A bit that no field covers is kept. -/
theorem getLsbD_writeFields_of_not_covers {fs : List (Field w)} {i : Nat}
    (hfits : ∀ f ∈ fs, f.lo + f.width ≤ w) (hi : ∀ f ∈ fs, ¬ f.Covers i) (t : BitVec w) :
    (writeFields t fs).getLsbD i = t.getLsbD i := by
  induction fs generalizing t with
  | nil => rfl
  | cons f fs ih =>
      show (writeFields (writeField t f) fs).getLsbD i = t.getLsbD i
      rw [ih (fun g hg => hfits g (List.mem_cons_of_mem f hg))
          (fun g hg => hi g (List.mem_cons_of_mem f hg)),
        getLsbD_writeField (hfits f List.mem_cons_self)]
      exact if_neg (hi f List.mem_cons_self)

/-- A bit of a field is the bit that was written there. -/
theorem getLsbD_writeFields_of_mem {fs : List (Field w)} {f : Field w} {i : Nat}
    (h : FieldsApart fs) (hf : f ∈ fs) (hi : f.Covers i) (t : BitVec w) :
    (writeFields t fs).getLsbD i = f.val.getLsbD (i - f.lo) := by
  induction fs generalizing t with
  | nil => cases hf
  | cons g fs ih =>
      obtain ⟨hfits, happart⟩ := h
      obtain ⟨hg, hrest⟩ := List.pairwise_cons.mp happart
      have hfits' : ∀ f ∈ fs, f.lo + f.width ≤ w := fun f hf => hfits f (List.mem_cons_of_mem g hf)
      show (writeFields (writeField t g) fs).getLsbD i = f.val.getLsbD (i - f.lo)
      cases List.mem_cons.mp hf with
      | inl heq =>
          -- Written here, and by no later field.
          subst heq
          have hlater : ∀ k ∈ fs, ¬ k.Covers i := by
            intro k hk hc
            have hfk := hg k hk
            unfold Field.Covers at hi hc
            omega
          rw [getLsbD_writeFields_of_not_covers hfits' hlater,
            getLsbD_writeField (hfits f List.mem_cons_self)]
          exact if_pos hi
      | inr hmem => exact ih ⟨hfits', hrest⟩ hmem (writeField t g)

/-- A field is read back as it was written. -/
theorem extractLsb'_writeFields {fs : List (Field w)} {f : Field w} (h : FieldsApart fs)
    (hf : f ∈ fs) (t : BitVec w) :
    (writeFields t fs).extractLsb' f.lo f.width = f.val.setWidth f.width := by
  apply BitVec.eq_of_getLsbD_eq
  intro i hi
  rw [BitVec.getLsbD_extractLsb', BitVec.getLsbD_setWidth,
    getLsbD_writeFields_of_mem h hf ⟨by omega, by omega⟩, Nat.add_sub_cancel_left]

/-- Fields that cover the word leave nothing of what was there before. -/
theorem writeFields_eq_of_covers {fs : List (Field w)} (h : FieldsApart fs)
    (hall : ∀ i < w, ∃ f ∈ fs, f.Covers i) (t t' : BitVec w) :
    writeFields t fs = writeFields t' fs := by
  apply BitVec.eq_of_getLsbD_eq
  intro i hi
  obtain ⟨f, hf, hc⟩ := hall i hi
  rw [getLsbD_writeFields_of_mem h hf hc, getLsbD_writeFields_of_mem h hf hc]

/-! ### Single bits -/

/-- `v >> n & 1` is nonzero exactly when bit `n` is set. -/
theorem shiftRight_and_one_bne_zero (hw : 0 < w) (v : BitVec w) (n : Nat) :
    (v >>> n &&& 1#w != 0#w) = v.getLsbD n := by
  rw [BitVec.and_one_eq_setWidth_ofBool_getLsbD, BitVec.getLsbD_ushiftRight, Nat.add_zero]
  cases v.getLsbD n with
  | false => simp
  | true =>
      have hone : (BitVec.setWidth w (BitVec.ofBool true)).getLsbD 0 = true := by
        simp [hw]
      have hne : BitVec.setWidth w (BitVec.ofBool true) ≠ 0#w := by
        intro h
        rw [h] at hone
        simp at hone
      simpa using hne

/-- A word masked with one bit is zero exactly when the bit is clear. -/
theorem and_one_shiftLeft_eq_zero (v : BitVec w) (n : Nat) (hn : n < w) :
    v &&& 1#w <<< n = 0#w ↔ v.getLsbD n = false := by
  constructor
  · intro h
    have hbit := congrArg (fun u : BitVec w => u.getLsbD n) h
    simp only [BitVec.getLsbD_and, getLsbD_one_shiftLeft, BitVec.getLsbD_zero] at hbit
    simpa [hn] using hbit
  · intro h
    apply BitVec.eq_of_getLsbD_eq
    intro i _
    simp only [BitVec.getLsbD_and, getLsbD_one_shiftLeft, BitVec.getLsbD_zero]
    by_cases hi : i = n
    · rw [hi, h, Bool.false_and]
    · rw [decide_eq_false (fun hc => hi hc.2), Bool.and_false]

/-- The C idiom `v & ~mask` for the lowest `n` bits rounds down to a multiple of `2 ^ n`. -/
theorem toNat_and_not_lowMask (v : BitVec w) (n : Nat) :
    (v &&& ~~~BitVec.ofNat w (2 ^ n - 1)).toNat = v.toNat / 2 ^ n * 2 ^ n := by
  have hshift : v &&& ~~~BitVec.ofNat w (2 ^ n - 1) = (v >>> n) <<< n := by
    apply BitVec.eq_of_getLsbD_eq
    intro i hi
    have hmask : (BitVec.ofNat w (2 ^ n - 1)).getLsbD i = decide (i < n) := by
      rw [BitVec.getLsbD_ofNat, Nat.testBit_two_pow_sub_one]
      simp [hi]
    rw [BitVec.getLsbD_and, BitVec.getLsbD_not, hmask, BitVec.getLsbD_shiftLeft,
      BitVec.getLsbD_ushiftRight]
    by_cases hlt : i < n
    · simp [hlt]
    · have hsum : n + (i - n) = i := by omega
      simp [hlt, hi, hsum]
  have hle : v.toNat / 2 ^ n * 2 ^ n ≤ v.toNat := Nat.div_mul_le_self v.toNat (2 ^ n)
  rw [hshift, BitVec.toNat_shiftLeft, BitVec.toNat_ushiftRight, Nat.shiftLeft_eq,
    Nat.shiftRight_eq_div_pow, Nat.mod_eq_of_lt (by have := v.isLt; omega)]

end BitField
