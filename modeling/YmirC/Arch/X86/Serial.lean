import Mathlib.Logic.Function.Basic
import YmirC.Bits
import YmirC.Arch.X86.Ports
import YmirC.Lib.Uart16550

/-!
# `YmirC.Arch.X86.Serial`: the serial console (`serial.c`, `serial.h`)

The driver is a program over a machine with ports. `SerialMachine` is such a machine, with a UART
at each of the three ports.

`write_fn` and `read_fn` point to the functions of one port, and are that port here.
-/

set_option autoImplicit false

namespace YmirC

open Interleave Uart16550

/-- `SerialPort`. -/
inductive SerialPort where
  | com1
  | com2
  | com3
  deriving DecidableEq, Repr

def COM1 : BitVec 16 := 0x3F8
def COM2 : BitVec 16 := 0x2F8
def COM3 : BitVec 16 := 0x3E8

/-- The `addr` of a port. -/
def SerialPort.addr : SerialPort → BitVec 16
  | com1 => COM1
  | com2 => COM2
  | com3 => COM3

/-- `Serial`. -/
structure Serial where
  addr : BitVec 16
  writeFn : SerialPort
  readFn : SerialPort
  deriving DecidableEq, Repr

namespace Serial

/-! ### The registers -/

def txr : BitVec 16 := 0
def rxr : BitVec 16 := 0
def dll : BitVec 16 := 0
def ier : BitVec 16 := 1
def dlh : BitVec 16 := 1
def iir : BitVec 16 := 2
def fcr : BitVec 16 := 2
def lcr : BitVec 16 := 3
def mcr : BitVec 16 := 4
def lsr : BitVec 16 := 5
def msr : BitVec 16 := 6
def sr : BitVec 16 := 7

end Serial

/-- `divisor_latch_numerator`. -/
def divisorLatchNumerator : BitVec 32 := 115200

section Driver
variable {σ : Type} [PortMachine σ]

/-- `write_byte`. -/
def writeByte (byte : BitVec 8) (addr : BitVec 16) : Driver σ Unit := do
  let _ ← Prog.await (fun m => PortMachine.inb m (addr + Serial.lsr)) fun b => isset8 b 5
  outb byte addr

/-- `write_byte_com1`, `write_byte_com2` and `write_byte_com3`. -/
def writeByteCom (port : SerialPort) (byte : BitVec 8) : Driver σ Unit := writeByte byte port.addr

/-- `try_read_byte`. The `none` is −1. -/
def tryReadByte (addr : BitVec 16) : Driver σ (Option (BitVec 8)) := do
  let b ← inb (addr + Serial.lsr)
  if isset8 b 0 then
    let c ← inb addr
    return some c
  else return none

/-- `try_read_byte_com1`, `try_read_byte_com2` and `try_read_byte_com3`. -/
def tryReadByteCom (port : SerialPort) : Driver σ (Option (BitVec 8)) := tryReadByte port.addr

/-- `serial_init`. There is no result where the source divides by zero. -/
def serialInit (port : SerialPort) (baud : BitVec 32) : Driver σ (Option Serial) := do
  let addr := port.addr
  outb 0x3#8 (addr + Serial.lcr)
  outb 0x0#8 (addr + Serial.ier)
  outb 0x0#8 (addr + Serial.fcr)
  if baud = 0#32 then return none
  let divisor := divisorLatchNumerator / baud
  let c ← inb (addr + Serial.lcr)
  outb (c ||| 0b10000000#8) (addr + Serial.lcr)
  outb ((divisor &&& 0xFF#32).setWidth 8) (addr + Serial.dll)
  outb ((divisor.sshiftRight 8 &&& 0xFF#32).setWidth 8) (addr + Serial.dlh)
  outb (c &&& 0b01111111#8) (addr + Serial.lcr)
  return some ⟨addr, port, port⟩

/-- `enable_serial_interrupt`. -/
def enableSerialInterrupt (serial : Serial) : Driver σ Unit := do
  let ie ← inb (serial.addr + Serial.ier)
  outb (ie ||| 0b00000011#8) (serial.addr + Serial.ier)

/-- `serial_write`. -/
def serialWrite (serial : Serial) (c : BitVec 8) : Driver σ Unit := writeByteCom serial.writeFn c

/-- `serial_write_string`, on the characters in front of the NUL. -/
def serialWriteString (serial : Serial) : List (BitVec 8) → Driver σ Unit
  | [] => return ()
  | c :: str => do
      serialWrite serial c
      serialWriteString serial str

/-- `serial_read`. -/
def serialRead (serial : Serial) : Driver σ (Option (BitVec 8)) := tryReadByteCom serial.readFn

end Driver

/-! ### The ports -/

/-- The register of a UART that a port number selects. -/
def serialRegister (port : BitVec 16) : Option (SerialPort × Nat) :=
  if COM1 ≤ port ∧ port ≤ COM1 + 7#16 then some (.com1, (port - COM1).toNat)
  else if COM2 ≤ port ∧ port ≤ COM2 + 7#16 then some (.com2, (port - COM2).toNat)
  else if COM3 ≤ port ∧ port ≤ COM3 + 7#16 then some (.com3, (port - COM3).toNat)
  else none

/-- A machine with the three UARTs. -/
structure SerialMachine where
  uart : SerialPort → Uart
  intr : Bool

namespace SerialMachine

/-- The machine with one UART replaced. -/
def setUart (m : SerialMachine) (port : SerialPort) (u : Uart) : SerialMachine :=
  { m with uart := Function.update m.uart port u }

/-- A write to a port. -/
def outb (m : SerialMachine) (value : BitVec 8) (port : BitVec 16) : SerialMachine :=
  match serialRegister port with
  | some (com, register) => m.setUart com ((m.uart com).write value register)
  | none => m

/-- A read from a port. -/
def inb (m : SerialMachine) (port : BitVec 16) : BitVec 8 × SerialMachine :=
  match serialRegister port with
  | some (com, register) =>
      let (b, u) := (m.uart com).read register
      (b, m.setUart com u)
  | none => (0xFF#8, m)

instance : PortMachine SerialMachine where
  outb := outb
  inb := inb
  setIntr m on := { m with intr := on }

/-- What happens besides the program: a UART goes on by itself, or the guest reads one of the ports
that are passed through to it. -/
inductive Move : SerialMachine → SerialMachine → Prop
  | device {m : SerialMachine} {port : SerialPort} {u : Uart} :
      (m.uart port).Move u → Move m (m.setUart port u)
  | passThrough {m : SerialMachine} {port : BitVec 16} :
      COM1 ≤ port → port ≤ COM1 + 7#16 → Move m (m.inb port).2

end SerialMachine

end YmirC
