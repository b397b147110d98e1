import YmirC.Bits
import YmirC.Arch.X86.Ports
import YmirC.Lib.Pic8259

/-!
# `YmirC.Arch.X86.Pic`: the line numbering of `pic.h` and the host driver of `pic.c`

The sixteen interrupt lines of the 8259 pair and the line arithmetic both the host driver and
the guest's emulated pair use. `notifyEoi` only writes ports, and is the list of its
`outb(value, port)` calls. The other functions of the driver are programs over a machine with
ports, and `picOutb` and `picInb` are the ports of the chips.
-/

set_option autoImplicit false

namespace YmirC

/-- An `IrqLine`: 0..7 on the primary PIC, 8..15 on the secondary. -/
abbrev IrqLine : Type := Nat

/-- `irq_secondary`: the primary's cascade input. -/
def irqSecondary : IrqLine := 2

/-- `primary_vector_offset`. -/
def primaryVectorOffset : Nat := 32

/-- `is_primary`. -/
def isPrimary (irq : IrqLine) : Bool := irq < 8

/-- `delta`. -/
def delta (irq : IrqLine) : Nat := if isPrimary irq then irq else irq - 8

/-! ### The host driver -/

/-- One `outb(value, port)`. -/
structure PortWrite where
  value : BitVec 8
  port : BitVec 16
  deriving DecidableEq, Repr

def OCW2_EOI : BitVec 8 := 0x20
def OCW2_SL : BitVec 8 := 0x40

def primaryCommandPort : BitVec 16 := 0x20
def secondaryCommandPort : BitVec 16 := 0xA0

/-- `command_port`. -/
def commandPort (irq : IrqLine) : BitVec 16 :=
  if isPrimary irq then primaryCommandPort else secondaryCommandPort

/-- `notify_eoi`. Both writes go to the command port of `irq`. -/
def notifyEoi (irq : IrqLine) : List PortWrite :=
  let own := [⟨OCW2_EOI ||| OCW2_SL ||| BitVec.ofNat 8 (delta irq), commandPort irq⟩]
  if !isPrimary irq then
    own ++ [⟨OCW2_EOI ||| OCW2_SL ||| BitVec.ofNat 8 irqSecondary, commandPort irq⟩]
  else own

/-- `blob_irq_handler` of `main.c`, for the vector of its context. -/
def blobIrqHandler (vector : BitVec 64) : List PortWrite :=
  notifyEoi ((vector - BitVec.ofNat 64 primaryVectorOffset).setWidth 16).toNat

def primaryDataPort : BitVec 16 := primaryCommandPort + 1
def secondaryDataPort : BitVec 16 := secondaryCommandPort + 1

/-- `data_port`. -/
def dataPort (irq : IrqLine) : BitVec 16 :=
  if isPrimary irq then primaryDataPort else secondaryDataPort

def ICW1_ICW4 : BitVec 8 := 0x01
def ICW1_INIT : BitVec 8 := 0x10
def ICW4_8086 : BitVec 8 := 0x01
def OCW3_READ_IRR : BitVec 8 := 0x02
def OCW3_REQUIRED : BitVec 8 := 0x08

/-- `secondary_vector_offset`. -/
def secondaryVectorOffset : Nat := primaryVectorOffset + 8

/-- `irq_timer`. -/
def irqTimer : IrqLine := 0

/-- `irq_serial1`. -/
def irqSerial1 : IrqLine := 4

section Driver
variable {σ : Type} [PortMachine σ]

/-- `pic_init`. -/
def picInit : Driver σ Unit := do
  disableIntr
  outb (ICW1_INIT ||| ICW1_ICW4) primaryCommandPort
  outb (ICW1_INIT ||| ICW1_ICW4) secondaryCommandPort
  outb (BitVec.ofNat 8 primaryVectorOffset) primaryDataPort
  outb (BitVec.ofNat 8 secondaryVectorOffset) secondaryDataPort
  outb 0b100#8 primaryDataPort
  outb 0b10#8 secondaryDataPort
  outb ICW4_8086 primaryDataPort
  outb ICW4_8086 secondaryDataPort
  outb 0xFF#8 primaryDataPort
  outb 0xFF#8 secondaryDataPort
  enableIntr

/-- `set_mask`. -/
def setMask (irq : IrqLine) : Driver σ Unit := do
  let port := dataPort irq
  let mask ← inb port
  outb ((mask.setWidth 64 ||| tobit (delta irq)).setWidth 8) port

/-- `unset_mask`. -/
def unsetMask (irq : IrqLine) : Driver σ Unit := do
  let port := dataPort irq
  let mask ← inb port
  outb ((mask.setWidth 64 &&& ~~~tobit (delta irq)).setWidth 8) port

/-- `pic_read_irr`. -/
def picReadIrr : Driver σ (BitVec 16) := do
  outb (OCW3_READ_IRR ||| OCW3_REQUIRED) primaryCommandPort
  outb (OCW3_READ_IRR ||| OCW3_REQUIRED) secondaryCommandPort
  let primaryIrr ← inb primaryCommandPort
  let secondaryIrr ← inb secondaryCommandPort
  return secondaryIrr.setWidth 16 <<< 8 ||| primaryIrr.setWidth 16

end Driver

/-- A write to a port of the chips. -/
def picOutb (p : Pic8259.Pair) (value : BitVec 8) (port : BitVec 16) : Pic8259.Pair :=
  if port = primaryCommandPort then { p with primary := p.primary.writeCommand value }
  else if port = secondaryCommandPort then { p with secondary := p.secondary.writeCommand value }
  else if port = primaryDataPort then { p with primary := p.primary.writeData value }
  else if port = secondaryDataPort then { p with secondary := p.secondary.writeData value }
  else p

/-- A read from a port of the chips. -/
def picInb (p : Pic8259.Pair) (port : BitVec 16) : BitVec 8 :=
  if port = primaryCommandPort then p.upper.readCommand
  else if port = secondaryCommandPort then p.secondary.readCommand
  else if port = primaryDataPort then p.primary.readData
  else if port = secondaryDataPort then p.secondary.readData
  else 0xFF#8

end YmirC
