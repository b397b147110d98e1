import YmirC.Arch.X86.Isr
import YmirC.Arch.X86.SvmState

/-!
# `YmirC.Arch.X86.SvmAsm`: the world switch (`arch/x86/svm_asm.c`)

`asm_vmrun` is assembly. `SvmInstr` adds to the instructions of `YmirC.Arch.X86.Isr` the moves to
and from memory it uses, `ret`, and the three SVM instructions. An instruction that raises an
exception has no result: that is `movaps` on an address that is not a multiple of 16.

What the guest does between `VMRUN` and `#VMEXIT` is `World.guest`, any function of the state at
`VMRUN`. The processor takes RAX and RSP of the guest from the VMCB and gives the host its own
back. The other general-purpose registers and the SSE registers are the same for both.
-/

set_option autoImplicit false

namespace YmirC

open WordStack

/-! ### The layout of `SvmVcpu` and `GuestRegisters` -/

/-- `offsetof(SvmVcpu, vmcb_phys)`. -/
def VMCB_PHYS_OFFSET : Nat := 24

/-- `offsetof(SvmVcpu, guest_regs)`. -/
def GUEST_REGS_OFFSET : Nat := 32

/-- `sizeof(GuestRegisters)`. -/
def SIZEOF_GUEST_REGISTERS : Nat := 240

/-- The general-purpose registers of `GuestRegisters`, in order. RAX and RSP are in the VMCB. -/
def guestRegFields : List Gpr :=
  [.rcx, .rdx, .rbx, .rbp, .rsi, .rdi, .r8, .r9, .r10, .r11, .r12, .r13, .r14, .r15]

/-- `offsetof(GuestRegisters, r)`. -/
def guestRegOffset (r : Gpr) : Nat := 8 * guestRegFields.idxOf r

/-- `offsetof(GuestRegisters, xmm<i>)`. -/
def guestXmmOffset (i : Fin 8) : Nat := 112 + 16 * i.val

/-- `*regs` as words: the general-purpose registers, then the halves of the SSE registers. -/
def GuestRegisters.words (regs : GuestRegisters) : List (BitVec 64) :=
  [regs.rcx, regs.rdx, regs.rbx, regs.rbp, regs.rsi, regs.rdi, regs.r8, regs.r9, regs.r10,
    regs.r11, regs.r12, regs.r13, regs.r14, regs.r15]
    ++ [regs.xmm0, regs.xmm1, regs.xmm2, regs.xmm3, regs.xmm4, regs.xmm5, regs.xmm6,
      regs.xmm7].flatMap fun x => [x.extractLsb' 0 64, x.extractLsb' 64 64]

/-- `*regs`. -/
def GuestRegisters.read (m : Memory) (regs : BitVec 64) : GuestRegisters where
  rcx := load m regs
  rdx := load m (regs + 8#64)
  rbx := load m (regs + 16#64)
  rbp := load m (regs + 24#64)
  rsi := load m (regs + 32#64)
  rdi := load m (regs + 40#64)
  r8 := load m (regs + 48#64)
  r9 := load m (regs + 56#64)
  r10 := load m (regs + 64#64)
  r11 := load m (regs + 72#64)
  r12 := load m (regs + 80#64)
  r13 := load m (regs + 88#64)
  r14 := load m (regs + 96#64)
  r15 := load m (regs + 104#64)
  xmm0 := load128 m (regs + 112#64)
  xmm1 := load128 m (regs + 128#64)
  xmm2 := load128 m (regs + 144#64)
  xmm3 := load128 m (regs + 160#64)
  xmm4 := load128 m (regs + 176#64)
  xmm5 := load128 m (regs + 192#64)
  xmm6 := load128 m (regs + 208#64)
  xmm7 := load128 m (regs + 224#64)

/-! ### The processor -/

/-- The processor with the SSE registers and the instruction pointer `ret` loads. `svmRax` is a
history, latest first: RAX at each SVM instruction. -/
structure SvmCpu where
  core : Cpu
  xmm : Fin 8 → BitVec 128
  rip : BitVec 64
  svmRax : List (BitVec 64)

/-- The guest, and what `VMSAVE` writes to the VMCB whose address is in RAX. -/
structure World where
  guest : SvmCpu → SvmCpu
  vmsave : BitVec 64 → Memory → Memory

inductive SvmInstr where
  | core (i : Instr)
  /-- `mov d(base), r` -/
  | load (d : Nat) (base r : Gpr)
  /-- `mov r, d(base)` -/
  | store (r : Gpr) (d : Nat) (base : Gpr)
  /-- `lea d(base), r` -/
  | lea (d : Nat) (base r : Gpr)
  /-- `movaps d(base), xmm<i>` -/
  | loadXmm (d : Nat) (base : Gpr) (i : Fin 8)
  /-- `movaps xmm<i>, d(base)` -/
  | storeXmm (i : Fin 8) (d : Nat) (base : Gpr)
  | vmload
  | vmrun
  | vmsave
  | ret

namespace SvmCpu

/-- The address `d(base)`. -/
def addr (c : SvmCpu) (d : Nat) (base : Gpr) : BitVec 64 := c.core.reg base + BitVec.ofNat 64 d

def setReg (c : SvmCpu) (r : Gpr) (v : BitVec 64) : SvmCpu := { c with core := c.core.set r v }

def setMem (c : SvmCpu) (m : Memory) : SvmCpu := { c with core := { c.core with mem := m } }

/-- The registers that are in `GuestRegisters`. -/
def guestRegs (c : SvmCpu) : GuestRegisters where
  rcx := c.core.reg .rcx
  rdx := c.core.reg .rdx
  rbx := c.core.reg .rbx
  rbp := c.core.reg .rbp
  rsi := c.core.reg .rsi
  rdi := c.core.reg .rdi
  r8 := c.core.reg .r8
  r9 := c.core.reg .r9
  r10 := c.core.reg .r10
  r11 := c.core.reg .r11
  r12 := c.core.reg .r12
  r13 := c.core.reg .r13
  r14 := c.core.reg .r14
  r15 := c.core.reg .r15
  xmm0 := c.xmm 0
  xmm1 := c.xmm 1
  xmm2 := c.xmm 2
  xmm3 := c.xmm 3
  xmm4 := c.xmm 4
  xmm5 := c.xmm 5
  xmm6 := c.xmm 6
  xmm7 := c.xmm 7

/-- RAX is noted when an SVM instruction uses it. -/
def noteRax (c : SvmCpu) : SvmCpu := { c with svmRax := c.core.reg .rax :: c.svmRax }

/-- The host after `#VMEXIT`: the guest has left `g`, and RAX, RSP, the interrupt flag and the
instruction pointer are those of the host. -/
def exitFrom (c g : SvmCpu) : SvmCpu :=
  { g with
      core := { (g.core.set .rax (c.core.reg .rax)).set .rsp (c.core.reg .rsp) with
        interruptFlag := c.core.interruptFlag }
      rip := c.rip
      svmRax := c.svmRax }

end SvmCpu

/-- One instruction. -/
def SvmInstr.exec (w : World) (c : SvmCpu) : SvmInstr → Option SvmCpu
  | .core i => some { c with core := i.exec c.core }
  | .load d base r => some (c.setReg r (WordStack.load c.core.mem (c.addr d base)))
  | .store r d base => some (c.setMem (WordStack.store c.core.mem (c.addr d base) (c.core.reg r)))
  | .lea d base r => some (c.setReg r (c.addr d base))
  | .loadXmm d base i =>
      if (c.addr d base).toNat % 16 ≠ 0 then none
      else some { c with xmm := fun j =>
        if j = i then load128 c.core.mem (c.addr d base) else c.xmm j }
  | .storeXmm i d base =>
      if (c.addr d base).toNat % 16 ≠ 0 then none
      else some (c.setMem (store128 c.core.mem (c.addr d base) (c.xmm i)))
  | .vmload => some c.noteRax
  | .vmrun => some (c.noteRax.exitFrom (w.guest c.noteRax))
  | .vmsave => some (c.noteRax.setMem (w.vmsave (c.core.reg .rax) c.core.mem))
  | .ret =>
      some { c.setReg .rsp (c.core.reg .rsp + 8#64) with
        rip := WordStack.load c.core.mem (c.core.reg .rsp) }

/-- A list of instructions. -/
def SvmCpu.run (w : World) (c : SvmCpu) : List SvmInstr → Option SvmCpu
  | [] => some c
  | i :: is => (i.exec w c).bind fun c => c.run w is

/-! ### `asm_vmrun` -/

/-- Save callee saved registers. -/
def saveCalleeSaved : List SvmInstr :=
  [.core (.push .rbp), .core (.push .r15), .core (.push .r14), .core (.push .r13),
    .core (.push .r12), .core (.push .rbx)]

/-- RAX gets the address of the VMCB, and RBX that of the guest registers, which is pushed. -/
def passVcpu : List SvmInstr :=
  [.load VMCB_PHYS_OFFSET .rdi .rax, .lea GUEST_REGS_OFFSET .rdi .rbx, .core (.push .rbx)]

/-- The registers in the order of the blocks that restore and save them, RBX apart. -/
def switchedRegs : List Gpr :=
  [.rsi, .rdi, .rbp, .r8, .r9, .r10, .r11, .r12, .r13, .r14, .r15]

/-- Restore guest registers. RBX, the base of the moves, is the last one. -/
def restoreGuestRegs : List SvmInstr :=
  [.load (guestRegOffset .rcx) .rbx .rcx, .load (guestRegOffset .rdx) .rbx .rdx]
    ++ switchedRegs.map (fun r => .load (guestRegOffset r) .rbx r)
    ++ (List.finRange 8).map (fun i => .loadXmm (guestXmmOffset i) .rbx i)
    ++ [.load (guestRegOffset .rbx) .rbx .rbx]

/-- `vmload`, `vmrun`, `vmsave`. -/
def switchWorld : List SvmInstr := [.vmload, .vmrun, .vmsave]

/-- The instructions of `asm_vmrun` before `vmrun`. -/
def toVmrun : List SvmInstr := saveCalleeSaved ++ passVcpu ++ restoreGuestRegs ++ [.vmload]

/-- Save guest registers, at the address popped into RAX. -/
def saveGuestRegs : List SvmInstr :=
  [.core (.pop .rax), .store .rcx (guestRegOffset .rcx) .rax,
    .store .rdx (guestRegOffset .rdx) .rax, .store .rbx (guestRegOffset .rbx) .rax]
    ++ switchedRegs.map (fun r => .store r (guestRegOffset r) .rax)
    ++ (List.finRange 8).map (fun i => .storeXmm i (guestXmmOffset i) .rax)

/-- Restore callee saved registers, and return. -/
def restoreCalleeSaved : List SvmInstr :=
  [.core (.pop .rbx), .core (.pop .r12), .core (.pop .r13), .core (.pop .r14),
    .core (.pop .r15), .core (.pop .rbp), .ret]

/-- `asm_vmrun`. -/
def asmVmrun : List SvmInstr :=
  saveCalleeSaved ++ passVcpu ++ restoreGuestRegs ++ switchWorld ++ saveGuestRegs
    ++ restoreCalleeSaved

/-! ### The loop of `svm_vcpu_loop` -/

/-- `mov %0, %rdi` and `call`, with the vCPU pointer in the register `r`. -/
def passVcpuPointer (r : Gpr) (returnAddress : BitVec 64) (c : SvmCpu) : SvmCpu :=
  let c := c.setReg .rdi (c.core.reg r)
  { c with core := c.core.push returnAddress }

/-- The statement that calls `asm_vmrun`. -/
def callAsmVmrun (w : World) (r : Gpr) (returnAddress : BitVec 64) (c : SvmCpu) : Option SvmCpu :=
  (passVcpuPointer r returnAddress c).run w asmVmrun

/-- The first rounds of `while (1)`. `handleExit` is the compiled `handle_exit`, which may never
return. -/
def vcpuLoop (w : World) (handleExit : SvmCpu → Option SvmCpu) (r : Gpr)
    (returnAddress : BitVec 64) : Nat → SvmCpu → Option SvmCpu
  | 0, c => some c
  | n + 1, c =>
      (vcpuLoop w handleExit r returnAddress n c).bind fun c =>
        (callAsmVmrun w r returnAddress c).bind handleExit

end YmirC
