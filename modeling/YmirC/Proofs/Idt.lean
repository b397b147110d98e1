import Mathlib.Algebra.Order.Group.Nat
import Mathlib.Data.Nat.Prime.Basic
import YmirC.Arch.X86.Idt
import YmirC.Proofs.Bits128

/-!
# `YmirC.Proofs.Idt`: when a gate is read as it was written

Five of the six fields of `set_gate` start below bit 64 and are written as they should be. The
upper half of the handler's address is the sixth: the low 64 bits of its mask are zero, so
`set_masked_bits_128` shifts it by whatever `__builtin_ctzll` returns for 0
(`setGateValue_eq`). The gate is right when that is 64, and otherwise only for an address whose
upper half is zero (`shifted_high_eq_iff`).
-/

set_option autoImplicit false

namespace YmirC

open BitField

variable {ctz : BitVec 64 → Int}

/-- The masks of `idt.c` as fields. -/
theorem gateMasks_eq :
    GATE_OFFSET_LOW_MASK = fieldMask 128 0 16 ∧ GATE_SEG_SELECTOR_MASK = fieldMask 128 16 16 ∧
    GATE_TYPE_MASK = fieldMask 128 40 4 ∧ GATE_OFFSET_MIDDLE_MASK = fieldMask 128 48 16 ∧
    GATE_OFFSET_HIGH_MASK = fieldMask 128 64 32 ∧ GATE_PRESENT_MASK = fieldMask 128 47 1 := by
  decide

/-- What `set_gate` writes, in its order, when `__builtin_ctzll(0)` is `c`. -/
def gateFields (c : Nat) (gateType : GateType) (offset : BitVec 64) : List (Field 128) :=
  [⟨0, 16, offset.setWidth 128 &&& 0xFFFF#128⟩, ⟨16, 16, 0x10#128⟩,
    ⟨40, 4, gateType.toBits.setWidth 128⟩,
    ⟨48, 16, (offset >>> 16).setWidth 128 &&& 0xFFFF#128⟩,
    ⟨64, 32, (((offset >>> 32).setWidth 128 &&& 0xFFFFFFFF#128) <<< c) >>> 64⟩,
    ⟨47, 1, 1#128⟩]

theorem gateFields_apart (c : Nat) (gateType : GateType) (offset : BitVec 64) :
    FieldsApart (gateFields c gateType offset) := by
  constructor
  · simp [gateFields]
  · simp [gateFields]

/-- A field that starts below bit 64 is written in its place. -/
theorem setMaskedBits128_eq_writeField (h : IsCtzll ctz) {s w : Nat} (hw : 0 < w)
    (hle : s + w ≤ 128) (hs : s < 64) (t v : BitVec 128) :
    setMaskedBits128 ctz t v (fieldMask 128 s w) = some (writeField t ⟨s, w, v⟩) :=
  setMaskedBits128_fieldMask h hw hle hs t v

/-- The write of the upper half of the address: the shift is the answer for 0. -/
theorem setMaskedBits128_high (t v : BitVec 128) :
    setMaskedBits128 ctz t v (fieldMask 128 64 32)
      = if 0 ≤ ctz 0#64 ∧ ctz 0#64 < 128 then
          some (writeField t ⟨64, 32, (v <<< (ctz 0#64).toNat) >>> 64⟩)
        else none := by
  have hzero : (fieldMask 128 64 32).setWidth 64 = 0#64 := by decide
  show (shiftLeft? v (ctz ((fieldMask 128 64 32).setWidth 64))).bind _ = _
  have hshift : shiftLeft? v (ctz 0#64)
      = if 0 ≤ ctz 0#64 ∧ ctz 0#64 < 128 then some (v <<< (ctz 0#64).toNat) else none := rfl
  rw [hzero, hshift]
  by_cases hc : 0 ≤ ctz 0#64 ∧ ctz 0#64 < 128
  · rw [if_pos hc, if_pos hc]
    -- The mask drops the bits below 64 that shifting down and up clears.
    refine congrArg some (BitVec.eq_of_getLsbD_eq fun i hi => ?_)
    rw [getLsbD_writeField (by show 64 + 32 ≤ 128; decide), getLsbD_and_not_or_and,
      getLsbD_fieldMask (by decide)]
    by_cases hin : 64 ≤ i ∧ i < 64 + 32
    · rw [decide_eq_true hin, if_pos rfl, if_pos hin, BitVec.getLsbD_ushiftRight,
        Nat.add_sub_cancel' hin.1]
    · rw [decide_eq_false hin, if_neg hin]
      rfl
  · rw [if_neg hc, if_neg hc]
    rfl

/-- The low bits that `set_gate` cuts out of the address. -/
theorem getLowerBits128_16 (v : BitVec 128) :
    getLowerBits128 v 16#8 = some (v &&& 0xFFFF#128) := by
  rfl

theorem getLowerBits128_32 (v : BitVec 128) :
    getLowerBits128 v 32#8 = some (v &&& 0xFFFFFFFF#128) := by
  rfl

/-- `set_gate` returns exactly when the answer of `__builtin_ctzll` for 0 is a shift count, and
then it writes the six fields. -/
theorem setGateValue_eq (h : IsCtzll ctz) (value : BitVec 128) (gateType : GateType)
    (offset : BitVec 64) :
    setGateValue ctz value gateType offset
      = if 0 ≤ ctz 0#64 ∧ ctz 0#64 < 128 then
          some (writeFields value (gateFields (ctz 0#64).toNat gateType offset))
        else none := by
  have hlow := getLowerBits128_16 (offset.setWidth 128)
  have hmiddle := getLowerBits128_16 ((offset >>> 16).setWidth 128)
  have hhigh := getLowerBits128_32 ((offset >>> (16 + 16)).setWidth 128)
  simp only [setGateValue, gateMasks_eq, GATE_OFFSET_LOW_WIDTH, GATE_OFFSET_MIDDLE_WIDTH,
    GATE_OFFSET_HIGH_WIDTH, hlow, hmiddle, hhigh, Option.bind_eq_bind, Option.bind_some]
  simp (disch := decide) only [setMaskedBits128_eq_writeField h, Option.bind_some,
    setMaskedBits128_high]
  by_cases hc : 0 ≤ ctz 0#64 ∧ ctz 0#64 < 128
  · simp only [hc, and_self, if_true, Option.bind_some]
    rfl
  · simp only [hc, if_false, Option.bind_none]

/-- A shift that is too short loses the low bits of `h`. -/
theorem shifted_high_ne_of_lt {h c : Nat} (hh : h < 2 ^ 32) (h0 : 0 < h) (hc : c < 64) :
    h * 2 ^ c % 2 ^ 128 / 2 ^ 64 % 2 ^ 32 ≠ h := by
  have hsmall : h * 2 ^ c < 2 ^ 128 := by
    calc h * 2 ^ c < 2 ^ 32 * 2 ^ c := Nat.mul_lt_mul_of_pos_right hh (Nat.two_pow_pos c)
      _ ≤ 2 ^ 32 * 2 ^ 64 := Nat.mul_le_mul_left _ (Nat.pow_le_pow_right (by decide) (by omega))
      _ ≤ 2 ^ 128 := by decide
  have hdiv : h * 2 ^ c / 2 ^ 64 = h / 2 ^ (64 - c) := by
    rw [show (2 : Nat) ^ 64 = 2 ^ (64 - c) * 2 ^ c by rw [← Nat.pow_add]; congr 1; omega]
    exact Nat.mul_div_mul_right _ _ (Nat.two_pow_pos c)
  have hlt : h / 2 ^ (64 - c) < h := Nat.div_lt_self h0 (Nat.one_lt_two_pow (by omega))
  have hle := Nat.mod_le (h / 2 ^ (64 - c)) (2 ^ 32)
  rw [Nat.mod_eq_of_lt hsmall, hdiv]
  omega

/-- Modulo `2 ^ n` a further shift moves every number but 0: the factor minus one is odd. -/
theorem eq_zero_of_shifted_mod {h n d : Nat} (hh : h < 2 ^ n)
    (heq : h * 2 ^ (d + 1) % 2 ^ n = h) : h = 0 := by
  have hdvd : 2 ^ n ∣ h * (2 ^ (d + 1) - 1) := by
    have hsub := Nat.dvd_sub_mod (n := 2 ^ n) (h * 2 ^ (d + 1))
    rwa [heq, ← Nat.mul_sub_one] at hsub
  have hodd : Nat.Coprime (2 ^ n) (2 ^ (d + 1) - 1) := by
    apply Nat.Coprime.pow_left
    rw [Nat.coprime_two_left, ← Nat.not_even_iff_odd]
    have hpow : 1 ≤ 2 ^ d := Nat.one_le_two_pow
    rw [Nat.pow_succ]
    rintro ⟨k, hk⟩
    omega
  exact Nat.eq_zero_of_dvd_of_lt (hodd.dvd_of_dvd_mul_right hdvd) hh

/-- A shift that is too long brings zeros into the low bits of `h`. -/
theorem shifted_high_ne_of_gt {h c : Nat} (hh : h < 2 ^ 32) (h0 : 0 < h) (hc : 64 < c) :
    h * 2 ^ c % 2 ^ 128 / 2 ^ 64 % 2 ^ 32 ≠ h := by
  obtain ⟨d, rfl⟩ : ∃ d, c = 64 + (d + 1) := ⟨c - 65, by omega⟩
  have hdown : h * 2 ^ (64 + (d + 1)) % 2 ^ 128 / 2 ^ 64 % 2 ^ 32
      = h * 2 ^ (d + 1) % 2 ^ 32 := by
    rw [show h * 2 ^ (64 + (d + 1)) = 2 ^ 64 * (h * 2 ^ (d + 1)) by
        rw [Nat.pow_add, Nat.mul_left_comm],
      show (2 : Nat) ^ 128 = 2 ^ 64 * 2 ^ 64 by decide, Nat.mul_mod_mul_left,
      Nat.mul_div_cancel_left _ (by decide), Nat.mod_mod_of_dvd _ (by decide)]
  rw [hdown]
  intro heq
  exact Nat.ne_of_gt h0 (eq_zero_of_shifted_mod hh heq)

/-- A 32-bit half shifted up by `c` and back down by 64 is the same half only for `c = 64`, or
when it is zero: too small a shift divides it, too large a one drops its upper bits. -/
theorem shifted_high_eq_iff {h c : Nat} (hh : h < 2 ^ 32) :
    h * 2 ^ c % 2 ^ 128 / 2 ^ 64 % 2 ^ 32 = h ↔ c = 64 ∨ h = 0 := by
  constructor
  · intro heq
    by_contra hne
    obtain ⟨hc, h0⟩ := not_or.mp hne
    rcases Nat.lt_or_gt_of_ne hc with hlt | hgt
    · exact shifted_high_ne_of_lt hh (Nat.pos_of_ne_zero h0) hlt heq
    · exact shifted_high_ne_of_gt hh (Nat.pos_of_ne_zero h0) hgt heq
  · rintro (rfl | rfl)
    · have hsmall : h * 2 ^ 64 < 2 ^ 128 := by omega
      rw [Nat.mod_eq_of_lt hsmall, Nat.mul_div_cancel _ (by decide), Nat.mod_eq_of_lt hh]
    · simp

/-! ### The round trip -/

section Gate
variable (c : Nat) (value : BitVec 128) (gateType : GateType) (offset : BitVec 64)

/-- The gate `set_gate` leaves when `__builtin_ctzll(0)` is `c`. -/
def gateOf : GateDescriptor := ⟨writeFields value (gateFields c gateType offset)⟩

variable {c gateType offset}

theorem extractLsb'_gateOf {f : Field 128} (hf : f ∈ gateFields c gateType offset) :
    (gateOf c value gateType offset).value.extractLsb' f.lo f.width = f.val.setWidth f.width :=
  extractLsb'_writeFields (gateFields_apart c gateType offset) hf value

variable {value}

theorem gateOf_selector :
    (gateOf c value gateType offset).selector = BitVec.ofNat 16 (segmentSelector KERNEL_CS_INDEX) :=
  extractLsb'_gateOf value (f := ⟨16, 16, 0x10#128⟩) (by simp [gateFields])

theorem gateOf_gateType : (gateOf c value gateType offset).gateType = gateType.toBits := by
  rw [GateDescriptor.gateType,
    extractLsb'_gateOf value (f := ⟨40, 4, gateType.toBits.setWidth 128⟩)
      (by simp [gateFields])]
  cases gateType <;> rfl

theorem gateOf_present : (gateOf c value gateType offset).present = 1#1 :=
  extractLsb'_gateOf value (f := ⟨47, 1, 1#128⟩) (by simp [gateFields])

/-- The bits of no written field are kept. -/
theorem gateOf_otherBit {i : Nat} (hi : GateDescriptor.OtherBit i) :
    (gateOf c value gateType offset).value.getLsbD i = value.getLsbD i := by
  apply getLsbD_writeFields_of_not_covers (gateFields_apart c gateType offset).fits
  intro f hf
  unfold GateDescriptor.OtherBit at hi
  simp only [gateFields, List.mem_cons, List.not_mem_nil, or_false] at hf
  rcases hf with rfl | rfl | rfl | rfl | rfl | rfl <;> simp only [Field.Covers] <;> omega

/-- A masked piece of the address, cut to 16 bits. -/
theorem setWidth_and_16 (x : BitVec 64) :
    (x.setWidth 128 &&& 0xFFFF#128).setWidth 16 = x.setWidth 16 := by
  rw [BitVec.setWidth_and, BitVec.setWidth_setWidth_of_le x (by decide),
    show (0xFFFF#128).setWidth 16 = BitVec.allOnes 16 by decide, BitVec.and_allOnes]

/-- An address is its three pieces. -/
theorem offset_pieces (x : BitVec 64) :
    x = (x >>> 32).setWidth 32 ++ ((x >>> 16).setWidth 16 ++ x.setWidth 16) := by
  apply BitVec.eq_of_getLsbD_eq
  intro i hi
  simp only [BitVec.getLsbD_append, BitVec.getLsbD_setWidth, BitVec.getLsbD_ushiftRight]
  by_cases h16 : i < 16
  · simp [h16, show i < 32 by omega]
  · by_cases h32 : i < 32
    · simp [h16, h32, show i - 16 < 16 by omega, show 16 + (i - 16) = i by omega]
    · simp [h32, show i - 32 < 32 by omega, show 32 + (i - 32) = i by omega]

/-- The address the processor reads: two pieces of the handler's, and where the third landed. -/
theorem gateOf_offset :
    (gateOf c value gateType offset).offset
      = ((((offset >>> 32).setWidth 128 &&& 0xFFFFFFFF#128) <<< c) >>> 64).setWidth 32
        ++ ((offset >>> 16).setWidth 16 ++ offset.setWidth 16) := by
  have hfield := fun {f : Field 128} (hf : f ∈ gateFields c gateType offset) =>
    extractLsb'_gateOf value hf
  have hlow := hfield (f := ⟨0, 16, offset.setWidth 128 &&& 0xFFFF#128⟩) (by simp [gateFields])
  have hmiddle := hfield (f := ⟨48, 16, (offset >>> 16).setWidth 128 &&& 0xFFFF#128⟩)
    (by simp [gateFields])
  have hhigh := hfield
    (f := ⟨64, 32, (((offset >>> 32).setWidth 128 &&& 0xFFFFFFFF#128) <<< c) >>> 64⟩)
    (by simp [gateFields])
  rw [GateDescriptor.offset, hlow, hmiddle, hhigh, setWidth_and_16, setWidth_and_16]

/-- The address is read back exactly when its upper half is. -/
theorem gateOf_offset_iff :
    (gateOf c value gateType offset).offset = offset ↔ c = 64 ∨ offset.toNat < 2 ^ 32 := by
  have hlt : offset.toNat / 2 ^ 32 < 2 ^ 32 := by
    have := offset.isLt
    omega
  -- The upper half as `set_gate` cuts it out, and as it lands in its field.
  have hcut : ((offset >>> 32).setWidth 128 &&& 0xFFFFFFFF#128).toNat = offset.toNat / 2 ^ 32 := by
    rw [BitVec.toNat_and, BitVec.toNat_setWidth, BitVec.toNat_ushiftRight,
      Nat.shiftRight_eq_div_pow, Nat.mod_eq_of_lt (by omega),
      show (0xFFFFFFFF#128).toNat = 2 ^ 32 - 1 by decide, Nat.and_two_pow_sub_one_eq_mod,
      Nat.mod_eq_of_lt hlt]
  have hland : (((((offset >>> 32).setWidth 128 &&& 0xFFFFFFFF#128) <<< c) >>> 64).setWidth
      32).toNat = offset.toNat / 2 ^ 32 * 2 ^ c % 2 ^ 128 / 2 ^ 64 % 2 ^ 32 := by
    rw [BitVec.toNat_setWidth, BitVec.toNat_ushiftRight, BitVec.toNat_shiftLeft, hcut,
      Nat.shiftLeft_eq, Nat.shiftRight_eq_div_pow]
  have hhalf : ((offset >>> 32).setWidth 32).toNat = offset.toNat / 2 ^ 32 := by
    rw [BitVec.toNat_setWidth, BitVec.toNat_ushiftRight, Nat.shiftRight_eq_div_pow,
      Nat.mod_eq_of_lt hlt]
  rw [gateOf_offset]
  conv_lhs => rhs; rw [offset_pieces offset]
  rw [BitVec.append_left_inj, ← BitVec.toNat_inj, hland, hhalf, shifted_high_eq_iff hlt,
    Nat.div_eq_zero_iff]
  simp

end Gate

/-- After `set_gate` the processor reads the gate it was given, and nothing else changed. -/
def GateRoundTrips (ctz : BitVec 64 → Int) (idt : Idt) (index : Fin MAX_NUM_GATES)
    (gateType : GateType) (offset : BitVec 64) : Prop :=
  ∃ idt', setGate ctz idt index gateType offset = some idt' ∧
    (idt' index).offset = offset ∧
    (idt' index).selector = BitVec.ofNat 16 (segmentSelector KERNEL_CS_INDEX) ∧
    (idt' index).gateType = gateType.toBits ∧ (idt' index).present = 1#1 ∧
    (∀ i, GateDescriptor.OtherBit i →
      (idt' index).value.getLsbD i = (idt index).value.getLsbD i) ∧
    ∀ j, j ≠ index → idt' j = idt j

/-- A run of `set_gate`: the new gate, unless a shift of it is undefined. -/
theorem setGate_eq (h : IsCtzll ctz) (idt : Idt) (index : Fin MAX_NUM_GATES)
    (gateType : GateType) (offset : BitVec 64) :
    setGate ctz idt index gateType offset
      = if 0 ≤ ctz 0#64 ∧ ctz 0#64 < 128 then
          some (Function.update idt index
            (gateOf (ctz 0#64).toNat (idt index).value gateType offset))
        else none := by
  show (setGateValue ctz (idt index).value gateType offset).bind _ = _
  rw [setGateValue_eq h (idt index).value gateType offset]
  by_cases hc : 0 ≤ ctz 0#64 ∧ ctz 0#64 < 128
  · rw [if_pos hc, if_pos hc]
    rfl
  · rw [if_neg hc, if_neg hc]
    rfl

/-- With a given compiler: the answer for 0 has to be 64, or a shift count while the upper half
of the address is zero. -/
theorem gateRoundTrips_iff (h : IsCtzll ctz) (idt : Idt) (index : Fin MAX_NUM_GATES)
    (gateType : GateType) (offset : BitVec 64) :
    GateRoundTrips ctz idt index gateType offset ↔
      0 ≤ ctz 0#64 ∧ ctz 0#64 < 128 ∧ (ctz 0#64 = 64 ∨ offset.toNat < 2 ^ 32) := by
  have hrun := setGate_eq h idt index gateType offset
  by_cases hc : 0 ≤ ctz 0#64 ∧ ctz 0#64 < 128
  · rw [if_pos hc] at hrun
    have hoffset : (gateOf (ctz 0#64).toNat (idt index).value gateType offset).offset = offset ↔
        (ctz 0#64).toNat = 64 ∨ offset.toNat < 2 ^ 32 := gateOf_offset_iff
    have h64 : (ctz 0#64).toNat = 64 ↔ ctz 0#64 = 64 := by omega
    rw [h64] at hoffset
    constructor
    · rintro ⟨idt', hset, hread, -⟩
      rw [hrun] at hset
      obtain rfl := Option.some.inj hset
      rw [Function.update_self] at hread
      exact ⟨hc.1, hc.2, hoffset.mp hread⟩
    · rintro ⟨-, -, hgood⟩
      refine ⟨_, hrun, ?_, ?_, ?_, ?_, ?_, fun j hj => Function.update_of_ne hj _ _⟩ <;>
        rw [Function.update_self]
      · exact hoffset.mpr hgood
      · exact gateOf_selector
      · exact gateOf_gateType
      · exact gateOf_present
      · exact fun i hi => gateOf_otherBit hi
  · constructor
    · rintro ⟨idt', hset, -⟩
      rw [hrun, if_neg hc] at hset
      cases hset
    · rintro ⟨h0, h128, -⟩
      exact absurd ⟨h0, h128⟩ hc

/-- The exact condition on the undefined answer and the address, for every compiler; since the
documentation promises no answer for 0, the gate is right by documentation alone for none. -/
theorem setGate_roundTrips (idt : Idt) (index : Fin MAX_NUM_GATES) (gateType : GateType)
    (offset : BitVec 64) :
    (∀ ctz, IsCtzll ctz → (GateRoundTrips ctz idt index gateType offset ↔
      0 ≤ ctz 0#64 ∧ ctz 0#64 < 128 ∧ (ctz 0#64 = 64 ∨ offset.toNat < 2 ^ 32))) ∧
    ¬ ∀ ctz, IsCtzll ctz → GateRoundTrips ctz idt index gateType offset := by
  refine ⟨fun ctz h => gateRoundTrips_iff h idt index gateType offset, fun hall => ?_⟩
  have hbad := (gateRoundTrips_iff (isCtzll_ctzllOr 128) idt index gateType offset).mp
    (hall _ (isCtzll_ctzllOr 128))
  exact absurd hbad.2.1 (by decide)

/-- A handler in the kernel's half of the address space: a compiler that answers 64 for 0 gets
it right. -/
theorem setGate_roundTrips_64 :
    GateRoundTrips (ctzllOr 64) (fun _ => ⟨0#128⟩) 13 .interrupt64 0xFFFFFFFF80101234#64 :=
  ((setGate_roundTrips _ 13 .interrupt64 0xFFFFFFFF80101234#64).1 _ (isCtzll_ctzllOr 64)).mpr
    (by decide)

/-- A compiler that answers 0 for 0 is as good by the documentation, and loses the upper half of
the same handler's address. -/
theorem not_setGate_roundTrips :
    ¬ ∀ (ctz : BitVec 64 → Int), IsCtzll ctz → ∀ (idt : Idt) (index : Fin MAX_NUM_GATES)
      (gateType : GateType) (offset : BitVec 64),
      GateRoundTrips ctz idt index gateType offset := by
  intro h
  obtain ⟨idt', hset, hread, -⟩ := h (ctzllOr 0) (isCtzll_ctzllOr 0) (fun _ => ⟨0#128⟩) 13
    .interrupt64 0xFFFFFFFF80101234#64
  have hrun : (setGate (ctzllOr 0) (fun _ => ⟨0#128⟩) 13 .interrupt64 0xFFFFFFFF80101234#64).map
      (fun idt => (idt 13).offset) = some 0x80101234#64 := by decide
  rw [hset, Option.map_some, hread] at hrun
  exact absurd hrun (by decide)

end YmirC
