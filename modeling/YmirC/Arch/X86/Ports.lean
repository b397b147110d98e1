import YmirC.Lib.Interleave

/-!
# `YmirC.Arch.X86.Ports`: port accesses and the interrupt flag

The functions of `sys/io.h` and `arch.c` that the drivers are written with. A driver is a program
of them, over any machine that has ports and an interrupt flag.
-/

set_option autoImplicit false

namespace YmirC

open Interleave

/-- A machine with ports and an interrupt flag. A read may change the device. -/
class PortMachine (σ : Type) where
  outb : σ → BitVec 8 → BitVec 16 → σ
  inb : σ → BitVec 16 → BitVec 8 × σ
  setIntr : σ → Bool → σ

/-- A driver: what it asks the machine for are bytes. -/
abbrev Driver (σ α : Type) : Type := Prog σ (BitVec 8) α

variable {σ : Type} [PortMachine σ]

/-- `outb`. -/
def outb (value : BitVec 8) (port : BitVec 16) : Driver σ Unit :=
  .step fun m => PortMachine.outb m value port

/-- `inb`. -/
def inb (port : BitVec 16) : Driver σ (BitVec 8) := .query fun m => PortMachine.inb m port

/-- `enable_intr`. -/
def enableIntr : Driver σ Unit := .step fun m => PortMachine.setIntr m true

/-- `disable_intr`. -/
def disableIntr : Driver σ Unit := .step fun m => PortMachine.setIntr m false

end YmirC
