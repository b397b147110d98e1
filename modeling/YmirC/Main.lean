import YmirC.Arch.X86.Interrupt
import YmirC.Arch.X86.Serial
import YmirC.Arch.X86.SvmVcpu
import YmirC.Log

/-!
# `YmirC.Main`: the interrupts and the console of `kernel_main` (`main.c`)

`setupInterrupts` is the part of `kernel_main` that programs the chips and registers the
handlers, with the subscription `svm_vcpu_loop` starts with. The UART's own interrupt register and
the log lines are left out.

`IrqMachine` is what it runs on: the chips, the interrupt flag, the tables of `interrupt.c` and the
vCPU. Devices raise their lines and take requests back at any time. The processor takes an
interrupt when the flag is on and the chips ask for it. The gates clear the flag, so a
handler runs to its end before the next interrupt.

`driveEvent` is what a line of the trace of an exit does to the ports. The characters of a
log line are `text`, the output of `log_printf`, and go through `serial_log_output`.
-/

set_option autoImplicit false

namespace YmirC

open Interleave Pic8259

/-- The handlers. -/
inductive KernelHandler where
  | unhandled
  | blobIrq
  deriving DecidableEq, Repr

/-- The subscribers. -/
inductive KernelCallback where
  | intrSubscriber
  deriving DecidableEq, Repr

/-- `taken` has the vectors of the interrupts, latest first. -/
structure IrqMachine where
  pics : Pair
  intr : Bool
  itr : Interrupts KernelCallback KernelHandler
  vcpu : SvmVcpu
  taken : List (BitVec 8)
  halted : Bool

/-- A halted machine executes nothing. -/
instance : PortMachine IrqMachine where
  outb m value port := if m.halted then m else { m with pics := picOutb m.pics value port }
  inb m port := if m.halted then (0xFF#8, m) else (picInb m.pics port, m)
  setIntr m on := if m.halted then m else { m with intr := on }

namespace IrqMachine

/-- One call of `itr_dispatch` for the vector `v`. -/
def call (v : BitVec 8) (m : IrqMachine) : DispatchCall KernelCallback KernelHandler → IrqMachine
  | .callback .intrSubscriber _ => { m with vcpu := m.vcpu.intrSubscriberCallback v.toNat }
  | .handler .unhandled => { m with halted := true }
  | .handler .blobIrq =>
      let writes := blobIrqHandler (v.setWidth 64)
      { m with pics := writes.foldl (fun p w => picOutb p w.value w.port) m.pics }

/-- The processor takes an interrupt. Devices may have taken requests back since it was told. -/
def interrupt (m : IrqMachine) (withdrawn : List IrqLine) : Option IrqMachine :=
  if m.halted || !m.intr || !m.pics.intr then none
  else
    let (v, pics) := (withdrawn.foldl Pair.lower m.pics).acknowledge
    let m := { m with pics := pics, taken := v :: m.taken }
    match m.itr.itrDispatch (v.setWidth 64) with
    | some calls => some (calls.foldl (call v) m)
    | none => some { m with halted := true }

/-- What happens besides the program. -/
inductive Move : IrqMachine → IrqMachine → Prop
  | raise {m : IrqMachine} {line : IrqLine} :
      line < 16 → line ≠ irqSecondary → Move m { m with pics := m.pics.raise line }
  | lower {m : IrqMachine} {line : IrqLine} :
      line < 16 → Move m { m with pics := m.pics.lower line }
  | interrupt {m m' : IrqMachine} {withdrawn : List IrqLine} :
      m.interrupt withdrawn = some m' → Move m m'

/-- A call of `register_handler`. -/
def register (irq : IrqLine) : Driver IrqMachine Unit :=
  .step fun m =>
    if m.halted then m
    else { m with
      itr := m.itr.registerHandler (BitVec.ofNat 8 (irq + primaryVectorOffset)) .blobIrq }

/-- The call of `subscribe2interrupt` for the vCPU at `self`. A panic halts. -/
def subscribe (self : BitVec 64) : Driver IrqMachine Unit :=
  .step fun m =>
    if m.halted then m
    else match m.itr.subscribe2interrupt self .intrSubscriber with
    | .ok itr => { m with itr := itr }
    | .error _ => { m with halted := true }

end IrqMachine

/-- The interrupts of `kernel_main`, and the subscription of `svm_vcpu_loop`. -/
def setupInterrupts (self : BitVec 64) : Driver IrqMachine Unit := do
  picInit
  IrqMachine.register irqTimer
  unsetMask irqTimer
  IrqMachine.register irqSerial1
  unsetMask irqSerial1
  IrqMachine.subscribe self

/-! ### The console -/

section Console
variable {σ : Type} [PortMachine σ]

/-- `serial_log_output`. -/
def serialLogOutput (serial : Serial) (c : CChar) : Driver σ Unit := serialWrite serial c

/-- The calls of the write function for one log line. -/
def logOutput (serial : Serial) : List CChar → Driver σ Unit
  | [] => return ()
  | c :: out => do
      serialLogOutput serial c
      logOutput serial out

/-- The writes of a list. -/
def drivePorts : List PortWrite → Driver σ Unit
  | [] => return ()
  | w :: writes => do
      outb w.value w.port
      drivePorts writes

/-- A write of more than one byte goes to the ports in a row. -/
def outBytes : List (BitVec 8) → BitVec 16 → Driver σ Unit
  | [], _ => return ()
  | b :: bytes, port => do
      outb b port
      outBytes bytes (port + 1)

/-- What an event of the trace does to the ports. The handler of an accepted vector is
`blob_irq_handler`. -/
def driveEvent (text : Log → List CChar) (serial : Serial) : HostEvent → Driver σ Unit
  | .accept vector => drivePorts (blobIrqHandler (BitVec.ofNat 64 vector))
  | .injected _ => return ()
  | .outb value port => outb value port
  | .outw value port => outBytes [value.extractLsb' 0 8, value.extractLsb' 8 8] port
  | .outl value port =>
      outBytes [value.extractLsb' 0 8, value.extractLsb' 8 8, value.extractLsb' 16 8,
        value.extractLsb' 24 8] port
  | .serialWrite c => serialWrite serial c
  | .writeMsr _ _ => return ()
  | .log line => logOutput serial (text line)

/-- A whole trace. -/
def driveTrace (text : Log → List CChar) (serial : Serial) : List HostEvent → Driver σ Unit
  | [] => return ()
  | e :: trace => do
      driveEvent text serial e
      driveTrace text serial trace

end Console

end YmirC
