import YmirC.Arch.X86.Pic
import YmirC.Arch.X86.SvmIoio
import YmirC.Arch.X86.SvmCpuid

/-!
# `YmirC.Arch.X86.SvmVcpu`: the vCPU loop

The run-time half of `svm_vcpu.c`: the interrupt callback, `inject_ext_intr`, `handle_exit`
and the loop `svm_vcpu_loop` around it.

The hypervisor accepts physical interrupts only between `stgi` and `clgi`. The `INTR` case
has one such window, the `HLT` case one per iteration of its loop. A window is the list of
vectors accepted in it, in order, and `handleExit` takes the windows as an argument. When the
`HLT` loop is still going after the last window it was given, it has not returned yet, which
is `Halt.loop`.

`Sys` adds the history the claims about interrupt delivery speak of, and `Sys.step` is one
step of the whole system: the guest runs, the hardware takes the virtual interrupt, or an
exit is handled.
-/

set_option autoImplicit false

namespace YmirC

namespace SvmVcpu

/-- `intr_subscriber_callback`, called by `itr_dispatch` for every accepted vector. -/
def intrSubscriberCallback (vcpu : SvmVcpu) (vector : Nat) : SvmVcpu :=
  let offset := primaryVectorOffset
  if offset ≤ vector && vector < offset + 16 then
    { vcpu with pendingIrq := vcpu.pendingIrq ||| tobit16 (vector - offset) }
  else vcpu

/-- One `stgi`/`clgi` window: the callback runs for each vector accepted in it. -/
def acceptWindow (vcpu : SvmVcpu) (window : List Nat) : SvmVcpu :=
  window.foldl intrSubscriberCallback vcpu

/-- The line's bit in its own PIC's mask. -/
def isMasked (g : SvmIoioGuestState) (i : IrqLine) : Bool :=
  if isPrimary i then isset8 g.primaryMask (delta i) else isset8 g.secondaryMask (delta i)

/-- The `for` loop of `inject_ext_intr`: the first line it would inject. -/
def findInjectable (vcpu : SvmVcpu) (isSecondaryMasked : Bool) : List IrqLine → Option IrqLine
  | [] => none
  | i :: rest =>
      if isSecondaryMasked && decide (i ≥ 8) then none
      else if vcpu.pendingIrq &&& tobit16 i = 0#16 then findInjectable vcpu isSecondaryMasked rest
      else if isMasked vcpu.guestIoioState i then findInjectable vcpu isSecondaryMasked rest
      else some i

/-- The loop body's effect at the line it injects. -/
def inject (vcpu : SvmVcpu) (i : IrqLine) : SvmVcpu :=
  let g := vcpu.guestIoioState
  { vcpu with
      vmcb := { vcpu.vmcb with
        vIrq := true
        vIntrVector :=
          if isPrimary i then BitVec.ofNat 8 (delta i) + g.primaryBase
          else BitVec.ofNat 8 (delta i) + g.secondaryBase }
      pendingIrq := vcpu.pendingIrq &&& ~~~tobit16 i
      lastInjectedIrq := BitVec.ofNat 8 i }

/-- `RFLAGS.IF` of the guest. -/
def ief (vcpu : SvmVcpu) : Bool := vcpu.vmcb.rflags.getLsbD 9

/-- `inject_ext_intr`. -/
def injectExtIntr (vcpu : SvmVcpu) : Bool × SvmVcpu :=
  let isSecondaryMasked := isset16 (vcpu.guestIoioState.primaryMask.setWidth 16) irqSecondary
  if vcpu.pendingIrq = 0#16 then (false, vcpu)
  else if vcpu.guestIoioState.primaryPhase ≠ .inited then (false, vcpu)
  else if !vcpu.ief then (false, vcpu)
  else match vcpu.findInjectable isSecondaryMasked (List.range 16) with
  | some i => (true, vcpu.inject i)
  | none => (false, vcpu)

/-- `step_next_inst`. -/
def stepNextInst (vcpu : SvmVcpu) : SvmVcpu :=
  { vcpu with vmcb := { vcpu.vmcb with rip := vcpu.vmcb.nrip } }

/-- The `INTR` case puts the occupant of the `V_IRQ` slot back to the pending lines. -/
def requeue (vcpu : SvmVcpu) : SvmVcpu :=
  if vcpu.vmcb.vIrq then
    { vcpu with pendingIrq := vcpu.pendingIrq ||| tobit16 vcpu.lastInjectedIrq.toNat }
  else vcpu

/-- The mark `handle_exit` leaves in the trace for one call of `inject_ext_intr`. -/
def injectionMark (r : Bool × SvmVcpu) : List HostEvent :=
  if r.1 then [.injected r.2.lastInjectedIrq.toNat] else []

/-- The `INTR` case of `handle_exit`. -/
def handleIntr (vcpu : SvmVcpu) (window : List Nat) : SvmVcpu × List HostEvent :=
  let r := (vcpu.requeue.acceptWindow window).injectExtIntr
  (r.2, window.map .accept ++ injectionMark r)

/-- The loop of the `HLT` case of `handle_exit`. -/
def hltLoop : List (List Nat) → SvmVcpu → Run (SvmVcpu × List HostEvent)
  | windows, vcpu =>
      let r := vcpu.injectExtIntr
      if r.1 then .ok (r.2, injectionMark r)
      else match windows with
      | [] => .error .loop
      | window :: rest => do
          let (vcpu', trace) ← hltLoop rest (r.2.acceptWindow window)
          pure (vcpu', window.map .accept ++ trace)

/-- The lines `print_exit_info` logs. -/
def exitInfo (vcpu : SvmVcpu) : List Log :=
  [logError "=== #VMEXIT Information ===\n" [],
   logError "EXITCODE : 0x%x\n" [vcpu.vmcb.exitcode],
   logError "EXITINFO1: 0x%x\n" [vcpu.vmcb.exitinfo1],
   logError "EXITINFO2: 0x%x\n" [vcpu.vmcb.exitinfo2]]

/-- `handle_exit`. `windows` are the interrupt windows the exit opens, `host` what the host
hardware answers to port reads and `cpuid`. -/
def handleExit (host : Host) (windows : List (List Nat)) (vcpu : SvmVcpu) :
    Run (SvmVcpu × List HostEvent) :=
  let vcpu := { vcpu with vmcb := { vcpu.vmcb with tlbControl := 0 } }
  if vcpu.vmcb.exitcode = SVM_EXIT_CODE_INTR then
    .ok (vcpu.handleIntr (windows.headD []))
  else if vcpu.vmcb.exitcode = SVM_EXIT_CODE_CPUID then do
    let (vcpu, trace) ← handleSvmCpuidExit host vcpu
    pure (vcpu.stepNextInst, trace)
  else if vcpu.vmcb.exitcode = SVM_EXIT_CODE_HLT then do
    let (vcpu, trace) ← hltLoop windows vcpu
    let vcpu := vcpu.stepNextInst
    pure ({ vcpu with vmcb := { vcpu.vmcb with interruptShadow := false } }, trace)
  else if vcpu.vmcb.exitcode = SVM_EXIT_CODE_IOIO then do
    let (vcpu, trace) ← handleSvmIoioExit host vcpu
    pure (vcpu.stepNextInst, trace)
  else if vcpu.vmcb.exitcode = SVM_EXIT_CODE_MSR then do
    let (vcpu, trace) ← handleSvmMsrExit vcpu
    pure (vcpu.stepNextInst, trace)
  else if vcpu.vmcb.exitcode = SVM_EXIT_CODE_VMMCALL then do
    let (vcpu, trace) ← handleSvmVmmcallExit vcpu
    pure (vcpu.stepNextInst, trace)
  else .error (.abort vcpu.exitInfo)

end SvmVcpu

/-! ### The system around the loop -/

/-- What the guest and the hardware may leave behind between two exits: the guest's
registers and the exit information. The virtual interrupt, `EFER`, the other intercepted
MSRs and every control field of the VMCB are not theirs to write. -/
structure GuestState where
  regs : GuestRegisters := {}
  rax : BitVec 64 := 0
  rip : BitVec 64 := 0
  rsp : BitVec 64 := 0
  rflags : BitVec 64 := 0
  cr0 : BitVec 64 := 0
  cr3 : BitVec 64 := 0
  cr4 : BitVec 64 := 0
  es : VmcbSeg := {}
  cs : VmcbSeg := {}
  ss : VmcbSeg := {}
  ds : VmcbSeg := {}
  fs : VmcbSeg := {}
  gs : VmcbSeg := {}
  kernelGsBase : BitVec 64 := 0
  interruptShadow : Bool := false
  exitcode : BitVec 64 := 0
  exitinfo1 : BitVec 64 := 0
  exitinfo2 : BitVec 64 := 0
  nrip : BitVec 64 := 0

/-- The vCPU after the guest ran and left `g`. -/
def SvmVcpu.setGuest (vcpu : SvmVcpu) (g : GuestState) : SvmVcpu :=
  { vcpu with
      guestRegs := g.regs
      vmcb := { vcpu.vmcb with
        rax := g.rax, rip := g.rip, rsp := g.rsp, rflags := g.rflags
        cr0 := g.cr0, cr3 := g.cr3, cr4 := g.cr4
        es := g.es, cs := g.cs, ss := g.ss, ds := g.ds, fs := g.fs, gs := g.gs
        kernelGsBase := g.kernelGsBase, interruptShadow := g.interruptShadow
        exitcode := g.exitcode, exitinfo1 := g.exitinfo1, exitinfo2 := g.exitinfo2
        nrip := g.nrip } }

/-- What has happened to the interrupt lines. `recorded` is a line noted by the callback,
`injected` a line put in the `V_IRQ` slot, `delivered` a virtual interrupt the guest took. -/
inductive IrqEvent where
  | recorded (line : Nat)
  | injected (line : Nat)
  | delivered (line : Nat)
  deriving DecidableEq, Repr

/-- The interrupt events of one handled exit. A vector outside the PICs' range is accepted
but records no line. -/
def HostEvent.irqEvents : HostEvent → List IrqEvent
  | .accept vector =>
      if primaryVectorOffset ≤ vector && vector < primaryVectorOffset + 16 then
        [.recorded (vector - primaryVectorOffset)]
      else []
  | .injected irq => [.injected irq]
  | _ => []

/-- The vCPU with the history of its interrupt lines, newest event first. -/
structure Sys where
  vcpu : SvmVcpu
  history : List IrqEvent

/-- One step of the system.

* `guest g`: the guest ran (it may have changed `RFLAGS.IF`) and left the state `g`, with an
  exit code of any kind. The `V_IRQ` slot is as it was: the guest may be in an interrupt
  shadow, or have interrupts off.
* `takeVirq`: the hardware delivered the virtual interrupt.
* `exit`: `handle_exit` ran and returned. -/
inductive Action where
  | guest (g : GuestState)
  | takeVirq
  | exit (host : Host) (windows : List (List Nat))

/-- The step `action` takes, or `none` when it is not possible in `s`: the interrupt is not
deliverable, or `handle_exit` does not return. -/
def Sys.step (s : Sys) : Action → Option Sys
  | .guest g => some { s with vcpu := s.vcpu.setGuest g }
  | .takeVirq =>
      if s.vcpu.vmcb.vIrq && s.vcpu.ief then
        some { vcpu := { s.vcpu with vmcb := { s.vcpu.vmcb with vIrq := false } }
               history := .delivered s.vcpu.lastInjectedIrq.toNat :: s.history }
      else none
  | .exit host windows =>
      match s.vcpu.handleExit host windows with
      | .ok (vcpu, trace) =>
          some { vcpu := vcpu, history := (trace.flatMap HostEvent.irqEvents).reverse ++ s.history }
      | .error _ => none

/-- The state in which `svm_vcpu_loop` starts: no line pending, the slot empty, the PICs as
`svm_ioio_guest_state_new` leaves them, and nothing recorded yet. -/
def Sys.Init (s : Sys) : Prop :=
  s.vcpu.pendingIrq = 0#16 ∧ s.vcpu.vmcb.vIrq = false ∧
    s.vcpu.guestIoioState = svmIoioGuestStateNew ∧ s.history = []

end YmirC
