import YmirC.Arch.X86.Gdt
import YmirC.Proofs.Bits

/-!
# `YmirC.Proofs.Gdt`: a segment descriptor is read as it was written

`init_segment_descriptor` writes fifteen fields (`segmentFields`). They lie apart and cover the
64 bits, so `initSegmentDescriptor_decodes` follows from the field lemmas of
`YmirC.Lib.BitField`: the processor reads back every parameter, and nothing of the previous
descriptor is left.
-/

set_option autoImplicit false

namespace YmirC

open BitField

/-- The masks of `gdt.c` as fields. -/
theorem segmentMasks_eq :
    SEGMENT_LIMIT_LOW_MASK = fieldMask 64 0 16 ∧ SEGMENT_BASE_LOW_MASK = fieldMask 64 16 24 ∧
    SEGMENT_ACCESSED_MASK = fieldMask 64 40 1 ∧ SEGMENT_RW_MASK = fieldMask 64 41 1 ∧
    SEGMENT_DC_MASK = fieldMask 64 42 1 ∧ SEGMENT_EXECUTABLE_MASK = fieldMask 64 43 1 ∧
    SEGMENT_DESC_TYPE_MASK = fieldMask 64 44 1 ∧ SEGMENT_DPL_MASK = fieldMask 64 45 2 ∧
    SEGMENT_PRESENT_MASK = fieldMask 64 47 1 ∧ SEGMENT_LIMIT_HIGH_MASK = fieldMask 64 48 4 ∧
    SEGMENT_AVL_MASK = fieldMask 64 52 1 ∧ SEGMENT_LONG_MASK = fieldMask 64 53 1 ∧
    SEGMENT_DB_MASK = fieldMask 64 54 1 ∧ SEGMENT_GRANULARITY_MASK = fieldMask 64 55 1 ∧
    SEGMENT_BASE_HIGH_MASK = fieldMask 64 56 8 := by
  decide

/-- What `init_segment_descriptor` writes, in its order. -/
def segmentFields (rw dc executable : BitVec 8) (base limit : BitVec 32) (dpl : BitVec 8)
    (granularity : Granularity) : List (Field 64) :=
  [⟨0, 16, getLowerBits (limit.setWidth 64) 16#8⟩, ⟨16, 24, getLowerBits (base.setWidth 64) 24#8⟩,
    ⟨40, 1, 0#64⟩, ⟨41, 1, rw.setWidth 64⟩, ⟨42, 1, dc.setWidth 64⟩,
    ⟨43, 1, executable.setWidth 64⟩, ⟨44, 1, 1#64⟩, ⟨45, 2, dpl.setWidth 64⟩, ⟨47, 1, 1#64⟩,
    ⟨48, 4, getLowerBits ((limit >>> 16).setWidth 64) 4#8⟩, ⟨52, 1, 0#64⟩,
    ⟨53, 1, executable.setWidth 64⟩, ⟨54, 1, cNot executable⟩, ⟨55, 1, granularity.toBits⟩,
    ⟨56, 8, getLowerBits ((base >>> 24).setWidth 64) 8#8⟩]

/-- Every field reads as it is in the list. -/
def SegmentDescriptor.HasFields (d : SegmentDescriptor) (fs : List (Field 64)) : Prop :=
  ∀ f ∈ fs, d.value.extractLsb' f.lo f.width = f.val.setWidth f.width

section Fields
variable (rw dc executable : BitVec 8) (base limit : BitVec 32) (dpl : BitVec 8)
  (granularity : Granularity)

theorem initSegmentDescriptor_value (desc : SegmentDescriptor) :
    (initSegmentDescriptor desc rw dc executable base limit dpl granularity).value
      = writeFields desc.value (segmentFields rw dc executable base limit dpl granularity) := by
  simp (disch := decide) only [initSegmentDescriptor, segmentMasks_eq, setMaskedBits_fieldMask]
  rfl

theorem segmentFields_apart :
    FieldsApart (segmentFields rw dc executable base limit dpl granularity) := by
  constructor
  · simp [segmentFields]
  · simp [segmentFields]

theorem segmentFields_cover :
    ∀ i < 64, ∃ f ∈ segmentFields rw dc executable base limit dpl granularity, f.Covers i := by
  intro i hi
  simp only [segmentFields, List.mem_cons, List.not_mem_nil, or_false, exists_eq_or_imp,
    exists_eq_left, Field.Covers]
  omega

theorem hasFields_initSegmentDescriptor (desc : SegmentDescriptor) :
    (initSegmentDescriptor desc rw dc executable base limit dpl granularity).HasFields
      (segmentFields rw dc executable base limit dpl granularity) := by
  intro f hf
  rw [initSegmentDescriptor_value]
  exact extractLsb'_writeFields (segmentFields_apart ..) hf desc.value

end Fields

/-! ### Reading the descriptor back -/

/-- Two pieces of a value, cut by `get_lower_bits`, put together again. -/
theorem append_getLowerBits {n k : Nat} (x : BitVec 32) (hk : k < 64) (hn : n < 64) :
    (getLowerBits ((x >>> k).setWidth 64) (BitVec.ofNat 8 n)).setWidth n
        ++ (getLowerBits (x.setWidth 64) (BitVec.ofNat 8 k)).setWidth k
      = x.setWidth (n + k) := by
  have hk8 : (BitVec.ofNat 8 k).toNat = k := by
    rw [BitVec.toNat_ofNat]
    omega
  have hn8 : (BitVec.ofNat 8 n).toNat = n := by
    rw [BitVec.toNat_ofNat]
    omega
  apply BitVec.eq_of_getLsbD_eq
  intro i hi
  rw [BitVec.getLsbD_append]
  simp only [BitVec.getLsbD_setWidth, getLsbD_getLowerBits, hk8, hn8, BitVec.getLsbD_ushiftRight]
  by_cases hlow : i < k
  · simp [hlow, hi, show i < 64 by omega]
  · simp [hlow, hi, show i - k < n by omega, show i - k < 64 by omega,
      show k + (i - k) = i by omega]

/-- A one-bit flag, widened by the call and cut to its field. -/
theorem toNat_setWidth_flag {x : BitVec 8} {k : Nat} (hx : x.toNat < 2 ^ k) (hk : k ≤ 8) :
    ((x.setWidth 64).setWidth k).toNat = x.toNat := by
  rw [BitVec.setWidth_setWidth_of_le x (by omega), BitVec.toNat_setWidth, Nat.mod_eq_of_lt hx]

/-- The processor reads exactly these parameters from the descriptor, with the fixed bits
`init_segment_descriptor` chooses. -/
structure SegmentDescriptor.Encodes (d : SegmentDescriptor) (rw dc executable : BitVec 8)
    (base limit : BitVec 32) (dpl : BitVec 8) (granularity : Granularity) : Prop where
  limit : d.limit.toNat = limit.toNat
  base : d.base = base
  rw : d.rw.toNat = rw.toNat
  dc : d.dc.toNat = dc.toNat
  dpl : d.dpl.toNat = dpl.toNat
  granularity : d.granularity.toNat = granularity.toBits.toNat
  accessed : d.accessed = 0#1
  descType : d.descType = 1#1
  present : d.present = 1#1
  avl : d.avl = 0#1
  long : d.long.toNat = executable.toNat
  db : d.db.toNat = 1 - executable.toNat
  executable : d.executable.toNat = executable.toNat

section Read
variable {d : SegmentDescriptor} {rw dc executable : BitVec 8} {base limit : BitVec 32}
  {dpl : BitVec 8} {granularity : Granularity}

theorem SegmentDescriptor.HasFields.limit_eq
    (h : d.HasFields (segmentFields rw dc executable base limit dpl granularity)) :
    d.limit = limit.setWidth 20 := by
  have hhigh := h ⟨48, 4, getLowerBits ((limit >>> 16).setWidth 64) 4#8⟩ (by simp [segmentFields])
  have hlow := h ⟨0, 16, getLowerBits (limit.setWidth 64) 16#8⟩ (by simp [segmentFields])
  rw [SegmentDescriptor.limit, hhigh, hlow]
  exact append_getLowerBits (n := 4) (k := 16) limit (by decide) (by decide)

theorem SegmentDescriptor.HasFields.base_eq
    (h : d.HasFields (segmentFields rw dc executable base limit dpl granularity)) :
    d.base = base := by
  have hhigh := h ⟨56, 8, getLowerBits ((base >>> 24).setWidth 64) 8#8⟩ (by simp [segmentFields])
  have hlow := h ⟨16, 24, getLowerBits (base.setWidth 64) 24#8⟩ (by simp [segmentFields])
  rw [SegmentDescriptor.base, hhigh, hlow,
    append_getLowerBits (n := 8) (k := 24) base (by decide) (by decide)]
  exact BitVec.setWidth_eq base

/-- The `!` of a flag. -/
theorem toNat_setWidth_cNot {x : BitVec 8} (hx : x.toNat < 2) :
    ((cNot x).setWidth 1).toNat = 1 - x.toNat := by
  rw [cNot]
  by_cases hzero : x = 0#8
  · rw [if_pos hzero, hzero]
    rfl
  · have hne : x.toNat ≠ 0 := fun h => hzero (BitVec.eq_of_toNat_eq h)
    rw [if_neg hzero, show x.toNat = 1 by omega]
    rfl

theorem SegmentDescriptor.HasFields.encodes
    (h : d.HasFields (segmentFields rw dc executable base limit dpl granularity))
    (hrw : rw.toNat < 2) (hdc : dc.toNat < 2) (hexec : executable.toNat < 2)
    (hlimit : limit.toNat < 2 ^ 20) (hdpl : dpl.toNat < 4) :
    d.Encodes rw dc executable base limit dpl granularity := by
  constructor
  case limit => rw [h.limit_eq, BitVec.toNat_setWidth, Nat.mod_eq_of_lt hlimit]
  case base => exact h.base_eq
  case rw =>
    rw [SegmentDescriptor.rw, h ⟨41, 1, rw.setWidth 64⟩ (by simp [segmentFields])]
    exact toNat_setWidth_flag hrw (by decide)
  case dc =>
    rw [SegmentDescriptor.dc, h ⟨42, 1, dc.setWidth 64⟩ (by simp [segmentFields])]
    exact toNat_setWidth_flag hdc (by decide)
  case executable =>
    rw [SegmentDescriptor.executable, h ⟨43, 1, executable.setWidth 64⟩ (by simp [segmentFields])]
    exact toNat_setWidth_flag hexec (by decide)
  case dpl =>
    rw [SegmentDescriptor.dpl, h ⟨45, 2, dpl.setWidth 64⟩ (by simp [segmentFields])]
    exact toNat_setWidth_flag hdpl (by decide)
  case granularity =>
    rw [SegmentDescriptor.granularity, h ⟨55, 1, granularity.toBits⟩ (by simp [segmentFields])]
    cases granularity <;> rfl
  case accessed => exact h ⟨40, 1, 0#64⟩ (by simp [segmentFields])
  case descType => exact h ⟨44, 1, 1#64⟩ (by simp [segmentFields])
  case present => exact h ⟨47, 1, 1#64⟩ (by simp [segmentFields])
  case avl => exact h ⟨52, 1, 0#64⟩ (by simp [segmentFields])
  case long =>
    rw [SegmentDescriptor.long, h ⟨53, 1, executable.setWidth 64⟩ (by simp [segmentFields])]
    exact toNat_setWidth_flag hexec (by decide)
  case db =>
    rw [SegmentDescriptor.db, h ⟨54, 1, cNot executable⟩ (by simp [segmentFields])]
    exact toNat_setWidth_cNot hexec

end Read

/-- `init_segment_descriptor` round-trips, whatever the descriptor held before. -/
theorem initSegmentDescriptor_decodes (desc : SegmentDescriptor) (rw dc executable : BitVec 8)
    (base limit : BitVec 32) (dpl : BitVec 8) (granularity : Granularity)
    (hrw : rw.toNat < 2) (hdc : dc.toNat < 2) (hexec : executable.toNat < 2)
    (hlimit : limit.toNat < 2 ^ 20) (hdpl : dpl.toNat < 4) :
    (initSegmentDescriptor desc rw dc executable base limit dpl granularity).Encodes
        rw dc executable base limit dpl granularity ∧
      ∀ desc', initSegmentDescriptor desc' rw dc executable base limit dpl granularity
        = initSegmentDescriptor desc rw dc executable base limit dpl granularity := by
  constructor
  · have hfields := hasFields_initSegmentDescriptor rw dc executable base limit dpl granularity desc
    exact hfields.encodes hrw hdc hexec hlimit hdpl
  · intro desc'
    have hvalue := writeFields_eq_of_covers
      (segmentFields_apart rw dc executable base limit dpl granularity)
      (segmentFields_cover rw dc executable base limit dpl granularity) desc'.value desc.value
    rw [← initSegmentDescriptor_value, ← initSegmentDescriptor_value] at hvalue
    exact congrArg SegmentDescriptor.mk hvalue

/-- A base and a limit that use every piece of their fields. -/
theorem initSegmentDescriptor_decodes_split :
    (initSegmentDescriptor ⟨0xFFFFFFFFFFFFFFFF#64⟩ 1#8 0#8 1#8 0x89ABCDEF#32 0xA5C3E#32 3#8
        .kbyte).Encodes 1#8 0#8 1#8 0x89ABCDEF#32 0xA5C3E#32 3#8 .kbyte :=
  (initSegmentDescriptor_decodes _ _ _ _ _ _ _ _ (by decide) (by decide) (by decide) (by decide)
    (by decide)).1

end YmirC
