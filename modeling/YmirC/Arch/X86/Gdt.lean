import YmirC.Bits

/-!
# `YmirC.Arch.X86.Gdt`: segment descriptors (`gdt.c`, `gdt.h`)

`init_segment_descriptor` writes a 64-bit descriptor field by field, each with a masked
read-modify-write. The masks keep the source's names. Below it stands how the processor reads
a descriptor: the base and the limit are each in two pieces.

The instructions that load `GDTR` and the segment registers are outside the model.
-/

set_option autoImplicit false

namespace YmirC

/-- `SegmentDescriptor`. -/
structure SegmentDescriptor where
  value : BitVec 64
  deriving DecidableEq, Repr

def SEGMENT_LIMIT_LOW_MASK : BitVec 64 := 0xFFFF#64 <<< 0
def SEGMENT_LIMIT_LOW_WIDTH : Nat := 16
def SEGMENT_BASE_LOW_MASK : BitVec 64 := 0xFFFFFF#64 <<< 16
def SEGMENT_BASE_LOW_WIDTH : Nat := 24
def SEGMENT_ACCESSED_MASK : BitVec 64 := 0x1#64 <<< 40
def SEGMENT_RW_MASK : BitVec 64 := 0x1#64 <<< 41
def SEGMENT_DC_MASK : BitVec 64 := 0x1#64 <<< 42
def SEGMENT_EXECUTABLE_MASK : BitVec 64 := 0x1#64 <<< 43
def SEGMENT_DESC_TYPE_MASK : BitVec 64 := 0x1#64 <<< 44
def SEGMENT_DPL_MASK : BitVec 64 := 0x3#64 <<< 45
def SEGMENT_PRESENT_MASK : BitVec 64 := 0x1#64 <<< 47
def SEGMENT_LIMIT_HIGH_MASK : BitVec 64 := 0xF#64 <<< 48
def SEGMENT_LIMIT_HIGH_WIDTH : Nat := 4
def SEGMENT_AVL_MASK : BitVec 64 := 0x1#64 <<< 52
def SEGMENT_LONG_MASK : BitVec 64 := 0x1#64 <<< 53
def SEGMENT_DB_MASK : BitVec 64 := 0x1#64 <<< 54
def SEGMENT_GRANULARITY_MASK : BitVec 64 := 0x1#64 <<< 55
def SEGMENT_BASE_HIGH_MASK : BitVec 64 := 0xFF#64 <<< 56
def SEGMENT_BASE_HIGH_WIDTH : Nat := 8

/-- `DescriptorType`. -/
inductive DescriptorType where
  | system
  | codeData
  deriving DecidableEq, Repr

/-- The value of the enumerator, as the 64-bit argument of `set_masked_bits`. -/
def DescriptorType.toBits : DescriptorType → BitVec 64
  | .system => 0#64
  | .codeData => 1#64

/-- `Granularity`. -/
inductive Granularity where
  | byte
  | kbyte
  deriving DecidableEq, Repr

/-- The value of the enumerator, as the 64-bit argument of `set_masked_bits`. -/
def Granularity.toBits : Granularity → BitVec 64
  | .byte => 0#64
  | .kbyte => 1#64

/-- C's `!x`, as the 64-bit argument of `set_masked_bits`. -/
def cNot (x : BitVec 8) : BitVec 64 := if x = 0#8 then 1#64 else 0#64

/-- `init_segment_descriptor`. -/
def initSegmentDescriptor (desc : SegmentDescriptor) (rw dc executable : BitVec 8)
    (base limit : BitVec 32) (dpl : BitVec 8) (granularity : Granularity) : SegmentDescriptor :=
  let v := desc.value
  let v := setMaskedBits v (getLowerBits (limit.setWidth 64)
    (BitVec.ofNat 8 SEGMENT_LIMIT_LOW_WIDTH)) SEGMENT_LIMIT_LOW_MASK
  let v := setMaskedBits v (getLowerBits (base.setWidth 64)
    (BitVec.ofNat 8 SEGMENT_BASE_LOW_WIDTH)) SEGMENT_BASE_LOW_MASK
  let v := setMaskedBits v 0#64 SEGMENT_ACCESSED_MASK
  let v := setMaskedBits v (rw.setWidth 64) SEGMENT_RW_MASK
  let v := setMaskedBits v (dc.setWidth 64) SEGMENT_DC_MASK
  let v := setMaskedBits v (executable.setWidth 64) SEGMENT_EXECUTABLE_MASK
  let v := setMaskedBits v DescriptorType.codeData.toBits SEGMENT_DESC_TYPE_MASK
  let v := setMaskedBits v (dpl.setWidth 64) SEGMENT_DPL_MASK
  let v := setMaskedBits v 1#64 SEGMENT_PRESENT_MASK
  let v := setMaskedBits v (getLowerBits ((limit >>> SEGMENT_LIMIT_LOW_WIDTH).setWidth 64)
    (BitVec.ofNat 8 SEGMENT_LIMIT_HIGH_WIDTH)) SEGMENT_LIMIT_HIGH_MASK
  let v := setMaskedBits v 0#64 SEGMENT_AVL_MASK
  let v := setMaskedBits v (executable.setWidth 64) SEGMENT_LONG_MASK
  let v := setMaskedBits v (cNot executable) SEGMENT_DB_MASK
  let v := setMaskedBits v granularity.toBits SEGMENT_GRANULARITY_MASK
  let v := setMaskedBits v (getLowerBits ((base >>> SEGMENT_BASE_LOW_WIDTH).setWidth 64)
    (BitVec.ofNat 8 SEGMENT_BASE_HIGH_WIDTH)) SEGMENT_BASE_HIGH_MASK
  { value := v }

def KERNEL_DS_INDEX : Nat := 0x01
def KERNEL_CS_INDEX : Nat := 0x02

/-- `SEGMENT_SELECTOR`: RPL and TI are 0. -/
def segmentSelector (index : Nat) : Nat := index <<< 3

/-! ### The descriptor as the processor reads it -/

namespace SegmentDescriptor

variable (d : SegmentDescriptor)

def limit : BitVec 20 := d.value.extractLsb' 48 4 ++ d.value.extractLsb' 0 16
def base : BitVec 32 := d.value.extractLsb' 56 8 ++ d.value.extractLsb' 16 24
def accessed : BitVec 1 := d.value.extractLsb' 40 1
def rw : BitVec 1 := d.value.extractLsb' 41 1
def dc : BitVec 1 := d.value.extractLsb' 42 1
def executable : BitVec 1 := d.value.extractLsb' 43 1
def descType : BitVec 1 := d.value.extractLsb' 44 1
def dpl : BitVec 2 := d.value.extractLsb' 45 2
def present : BitVec 1 := d.value.extractLsb' 47 1
def avl : BitVec 1 := d.value.extractLsb' 52 1
def long : BitVec 1 := d.value.extractLsb' 53 1
def db : BitVec 1 := d.value.extractLsb' 54 1
def granularity : BitVec 1 := d.value.extractLsb' 55 1

end SegmentDescriptor

end YmirC
