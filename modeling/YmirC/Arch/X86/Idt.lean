import Mathlib.Logic.Function.Basic
import YmirC.Arch.X86.Gdt

/-!
# `YmirC.Arch.X86.Idt`: gate descriptors (`idt.c`, `idt.h`)

A gate is 128 bits wide; `set_gate` writes six of its fields with `set_masked_bits_128`. The
model keeps the undefined corners of that helper: `ctz` is the compiler's `__builtin_ctzll`,
and a table comes back only if every shift on the way is defined. The masks of the fields that
`set_gate` does not write are left out, as is the instruction that loads `IDTR`.
-/

set_option autoImplicit false

namespace YmirC

/-- `GateDescriptor`. -/
structure GateDescriptor where
  value : BitVec 128
  deriving DecidableEq, Repr

/-- `MAX_NUM_GATES`. -/
abbrev MAX_NUM_GATES : Nat := 256

/-- The table `idt`. -/
abbrev Idt : Type := Fin MAX_NUM_GATES → GateDescriptor

/-- `GateType`. -/
inductive GateType where
  | invalid
  | interrupt64
  | trap64
  deriving DecidableEq, Repr

/-- The value of the enumerator. -/
def GateType.toBits : GateType → BitVec 4
  | .invalid => 0b0000#4
  | .interrupt64 => 0b1110#4
  | .trap64 => 0b1111#4

-- The masks with `ULL` literals are shifted in 64 bits and widened by the call.
def GATE_OFFSET_LOW_MASK : BitVec 128 := (0xFFFF#64 <<< 0).setWidth 128
def GATE_OFFSET_LOW_WIDTH : Nat := 16
def GATE_SEG_SELECTOR_MASK : BitVec 128 := (0xFFFF#64 <<< 16).setWidth 128
def GATE_TYPE_MASK : BitVec 128 := (0xF#64 <<< 40).setWidth 128
def GATE_PRESENT_MASK : BitVec 128 := (0x1#64 <<< 47).setWidth 128
def GATE_OFFSET_MIDDLE_MASK : BitVec 128 := (0xFFFF#64 <<< 48).setWidth 128
def GATE_OFFSET_MIDDLE_WIDTH : Nat := 16
def GATE_OFFSET_HIGH_MASK : BitVec 128 := 0xFFFFFFFF#128 <<< 64
def GATE_OFFSET_HIGH_WIDTH : Nat := 32

/-- The body of `set_gate`, on the value of the descriptor. -/
def setGateValue (ctz : BitVec 64 → Int) (value : BitVec 128) (gateType : GateType)
    (offset : BitVec 64) : Option (BitVec 128) := do
  let low ← getLowerBits128 (offset.setWidth 128) (BitVec.ofNat 8 GATE_OFFSET_LOW_WIDTH)
  let value ← setMaskedBits128 ctz value low GATE_OFFSET_LOW_MASK
  let value ← setMaskedBits128 ctz value (BitVec.ofNat 128 (segmentSelector KERNEL_CS_INDEX))
    GATE_SEG_SELECTOR_MASK
  let value ← setMaskedBits128 ctz value (gateType.toBits.setWidth 128) GATE_TYPE_MASK
  let middle ← getLowerBits128 ((offset >>> GATE_OFFSET_LOW_WIDTH).setWidth 128)
    (BitVec.ofNat 8 GATE_OFFSET_MIDDLE_WIDTH)
  let value ← setMaskedBits128 ctz value middle GATE_OFFSET_MIDDLE_MASK
  let high ← getLowerBits128
    ((offset >>> (GATE_OFFSET_LOW_WIDTH + GATE_OFFSET_MIDDLE_WIDTH)).setWidth 128)
    (BitVec.ofNat 8 GATE_OFFSET_HIGH_WIDTH)
  let value ← setMaskedBits128 ctz value high GATE_OFFSET_HIGH_MASK
  setMaskedBits128 ctz value 1#128 GATE_PRESENT_MASK

/-- `set_gate`. -/
def setGate (ctz : BitVec 64 → Int) (idt : Idt) (index : Fin MAX_NUM_GATES)
    (gateType : GateType) (offset : BitVec 64) : Option Idt := do
  let value ← setGateValue ctz (idt index).value gateType offset
  return Function.update idt index { value := value }

/-! ### The gate as the processor reads it -/

namespace GateDescriptor

variable (d : GateDescriptor)

def offset : BitVec 64 :=
  d.value.extractLsb' 64 32 ++ (d.value.extractLsb' 48 16 ++ d.value.extractLsb' 0 16)
def selector : BitVec 16 := d.value.extractLsb' 16 16
def gateType : BitVec 4 := d.value.extractLsb' 40 4
def present : BitVec 1 := d.value.extractLsb' 47 1

/-- The bits of a gate that hold none of the four fields above. -/
def OtherBit (i : Nat) : Prop := 32 ≤ i ∧ i < 40 ∨ 44 ≤ i ∧ i < 47 ∨ 96 ≤ i ∧ i < 128

end GateDescriptor

end YmirC
