import YmirC.Panic
import YmirC.Bits

/-!
# `YmirC.Arch.X86.SvmState`: the vCPU and its VMCB

The data of `svm_vmcb.h`, `svm_common.h`, `svm_ioio_guest_state.h` and `svm_vcpu.h`. A
one-bit field is a `Bool`, every other integer field a bit vector of its own width. The VMCB
keeps the fields some function of the hypervisor reads or writes, and the control registers
and `RSP` the abort dump prints. Fields nothing touches (reserved words, the other
intercept bits, the debug registers) are left out.
-/

set_option autoImplicit false

namespace YmirC

/-- `VmcbSeg`. -/
structure VmcbSeg where
  sel : BitVec 16 := 0
  attr : BitVec 16 := 0
  limit : BitVec 32 := 0
  base : BitVec 64 := 0
  deriving DecidableEq, Repr

/-- `Vmcb`. The defaults are the page `memset` clears. -/
structure Vmcb where
  interceptIntr : Bool := false
  interceptCpuid : Bool := false
  interceptHlt : Bool := false
  interceptIoioProt : Bool := false
  interceptMsrProt : Bool := false
  interceptVmrun : Bool := false
  interceptVmmcall : Bool := false
  iopmBasePa : BitVec 64 := 0
  msrpmBasePa : BitVec 64 := 0
  guestAsid : BitVec 32 := 0
  tlbControl : BitVec 8 := 0
  vIrq : Bool := false
  vIgnTpr : Bool := false
  vIntrMasking : Bool := false
  vIntrVector : BitVec 8 := 0
  interruptShadow : Bool := false
  exitcode : BitVec 64 := 0
  exitinfo1 : BitVec 64 := 0
  exitinfo2 : BitVec 64 := 0
  npEnable : Bool := false
  nCr3 : BitVec 64 := 0
  nrip : BitVec 64 := 0
  es : VmcbSeg := {}
  cs : VmcbSeg := {}
  ss : VmcbSeg := {}
  ds : VmcbSeg := {}
  fs : VmcbSeg := {}
  gs : VmcbSeg := {}
  efer : BitVec 64 := 0
  cr4 : BitVec 64 := 0
  cr3 : BitVec 64 := 0
  cr0 : BitVec 64 := 0
  rflags : BitVec 64 := 0
  rip : BitVec 64 := 0
  rsp : BitVec 64 := 0
  rax : BitVec 64 := 0
  star : BitVec 64 := 0
  lstar : BitVec 64 := 0
  cstar : BitVec 64 := 0
  sfmask : BitVec 64 := 0
  kernelGsBase : BitVec 64 := 0
  sysenterCs : BitVec 64 := 0
  sysenterEsp : BitVec 64 := 0
  sysenterEip : BitVec 64 := 0
  deriving DecidableEq, Repr

/-- The exit codes `handle_exit` dispatches on (`SvmExitCode`). Every other code takes the
`default` branch. -/
def SVM_EXIT_CODE_INTR : BitVec 64 := 0x60
def SVM_EXIT_CODE_CPUID : BitVec 64 := 0x72
def SVM_EXIT_CODE_HLT : BitVec 64 := 0x78
def SVM_EXIT_CODE_IOIO : BitVec 64 := 0x7B
def SVM_EXIT_CODE_MSR : BitVec 64 := 0x7C
def SVM_EXIT_CODE_VMMCALL : BitVec 64 := 0x81

/-- `GuestRegisters`. -/
structure GuestRegisters where
  rcx : BitVec 64 := 0
  rdx : BitVec 64 := 0
  rbx : BitVec 64 := 0
  rbp : BitVec 64 := 0
  rsi : BitVec 64 := 0
  rdi : BitVec 64 := 0
  r8 : BitVec 64 := 0
  r9 : BitVec 64 := 0
  r10 : BitVec 64 := 0
  r11 : BitVec 64 := 0
  r12 : BitVec 64 := 0
  r13 : BitVec 64 := 0
  r14 : BitVec 64 := 0
  r15 : BitVec 64 := 0
  xmm0 : BitVec 128 := 0
  xmm1 : BitVec 128 := 0
  xmm2 : BitVec 128 := 0
  xmm3 : BitVec 128 := 0
  xmm4 : BitVec 128 := 0
  xmm5 : BitVec 128 := 0
  xmm6 : BitVec 128 := 0
  xmm7 : BitVec 128 := 0
  deriving DecidableEq, Repr

/-- `SvmPicInitPhase`. -/
inductive SvmPicInitPhase where
  | uninitialized
  | phase1
  | phase2
  | phase3
  | inited
  deriving DecidableEq, Repr

/-- `SvmIoioGuestState`. -/
structure SvmIoioGuestState where
  ier : BitVec 8 := 0
  mcr : BitVec 8 := 0
  primaryMask : BitVec 8
  secondaryMask : BitVec 8
  primaryPhase : SvmPicInitPhase
  secondaryPhase : SvmPicInitPhase
  primaryBase : BitVec 8 := 0
  secondaryBase : BitVec 8 := 0
  deriving DecidableEq, Repr

/-- `svm_ioio_guest_state_new`. -/
def svmIoioGuestStateNew : SvmIoioGuestState :=
  { primaryMask := 0xFF
    secondaryMask := 0xFF
    primaryPhase := .uninitialized
    secondaryPhase := .uninitialized }

/-- `SvmVcpu`. The VMCB the source points to is a field here. The `Serial` pointer is left
out: `serial_write` through it is a `HostEvent`. -/
structure SvmVcpu where
  id : Nat := 0
  asid : BitVec 16
  vmcb : Vmcb := {}
  vmcbPhys : BitVec 64 := 0
  guestRegs : GuestRegisters := {}
  guestBase : BitVec 64 := 0
  guestIoioState : SvmIoioGuestState
  pendingIrq : BitVec 16 := 0
  lastInjectedIrq : BitVec 8 := 0
  deriving DecidableEq, Repr

/-- `svm_vcpu_new`. -/
def svmVcpuNew (asid : BitVec 16) : SvmVcpu :=
  { asid := asid, guestIoioState := svmIoioGuestStateNew }

/-- What the exit handlers do outside the vCPU, in order. `accept` is a physical interrupt
taken while the global interrupt flag is set, whose dispatch calls
`intr_subscriber_callback`. `injected` marks a successful `inject_ext_intr`. The others are
port writes, the serial console, host MSR writes and log lines. -/
inductive HostEvent where
  | accept (vector : Nat)
  | injected (irq : Nat)
  | outb (value : BitVec 8) (port : BitVec 16)
  | outw (value : BitVec 16) (port : BitVec 16)
  | outl (value : BitVec 32) (port : BitVec 16)
  | serialWrite (c : BitVec 8)
  | writeMsr (msr : BitVec 32) (value : BitVec 64)
  | log (line : Log)
  deriving DecidableEq, Repr

/-- `CpuidRegisters`. -/
structure CpuidRegisters where
  eax : BitVec 32
  ebx : BitVec 32
  ecx : BitVec 32
  edx : BitVec 32
  deriving DecidableEq, Repr

/-- What the host machine answers during one exit: port reads and `cpuid`. -/
structure Host where
  inb : BitVec 16 → BitVec 8
  inw : BitVec 16 → BitVec 16
  inl : BitVec 16 → BitVec 32
  cpuid : BitVec 32 → BitVec 32 → CpuidRegisters

end YmirC
