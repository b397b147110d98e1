import YmirC.Lib.WordStack

/-!
# `YmirC.Arch.X86.Isr`: interrupt stubs (`ymirc/arch/x86/isr.h` and `isr.c`)

The stubs are assembly. `Instr` has the instructions they use, and the blocks of `isr_common` are
the lists `saveRegisters`, `passContext` and `restoreRegisters`. A stub jumps to `isr_common`, so
its list goes on with them.

Of the processor the model has the general-purpose registers, memory and the interrupt flag. The
other flags are in the frame that the processor pushes (`CpuStatus`), and `iretq` reloads them.
-/

set_option autoImplicit false

namespace YmirC

open WordStack

/-- The general-purpose registers. -/
inductive Gpr where
  | rax | rcx | rdx | rbx | rsp | rbp | rsi | rdi
  | r8 | r9 | r10 | r11 | r12 | r13 | r14 | r15
  deriving DecidableEq, Repr

/-- `Registers`. -/
structure Registers where
  r8 : BitVec 64
  r9 : BitVec 64
  r10 : BitVec 64
  r11 : BitVec 64
  r12 : BitVec 64
  r13 : BitVec 64
  r14 : BitVec 64
  r15 : BitVec 64
  rdi : BitVec 64
  rsi : BitVec 64
  rbp : BitVec 64
  rsp : BitVec 64
  rbx : BitVec 64
  rdx : BitVec 64
  rcx : BitVec 64
  rax : BitVec 64

/-- The field for a register. -/
def Registers.get (regs : Registers) : Gpr → BitVec 64
  | .rax => regs.rax
  | .rcx => regs.rcx
  | .rdx => regs.rdx
  | .rbx => regs.rbx
  | .rsp => regs.rsp
  | .rbp => regs.rbp
  | .rsi => regs.rsi
  | .rdi => regs.rdi
  | .r8 => regs.r8
  | .r9 => regs.r9
  | .r10 => regs.r10
  | .r11 => regs.r11
  | .r12 => regs.r12
  | .r13 => regs.r13
  | .r14 => regs.r14
  | .r15 => regs.r15

/-- `Context`. -/
structure Context where
  registers : Registers
  vector : BitVec 64
  errorCode : BitVec 64
  rip : BitVec 64
  cs : BitVec 64
  rflags : BitVec 64

/-- `sizeof(Context)`. -/
def SIZEOF_CONTEXT : Nat := 168

/-- `*ctx`: the struct is packed, in the order of its declaration. -/
def Context.read (m : Memory) (ctx : BitVec 64) : Context where
  registers :=
    { r8 := load m ctx
      r9 := load m (ctx + 8#64)
      r10 := load m (ctx + 16#64)
      r11 := load m (ctx + 24#64)
      r12 := load m (ctx + 32#64)
      r13 := load m (ctx + 40#64)
      r14 := load m (ctx + 48#64)
      r15 := load m (ctx + 56#64)
      rdi := load m (ctx + 64#64)
      rsi := load m (ctx + 72#64)
      rbp := load m (ctx + 80#64)
      rsp := load m (ctx + 88#64)
      rbx := load m (ctx + 96#64)
      rdx := load m (ctx + 104#64)
      rcx := load m (ctx + 112#64)
      rax := load m (ctx + 120#64) }
  vector := load m (ctx + 128#64)
  errorCode := load m (ctx + 136#64)
  rip := load m (ctx + 144#64)
  cs := load m (ctx + 152#64)
  rflags := load m (ctx + 160#64)

/-! ### The processor -/

structure Cpu where
  reg : Gpr → BitVec 64
  mem : Memory
  /-- The interrupt flag. -/
  interruptFlag : Bool

/-- What the processor saves of its own state, apart from the stack pointer. -/
structure CpuStatus where
  rip : BitVec 64
  cs : BitVec 64
  rflags : BitVec 64
  ss : BitVec 64

namespace Cpu

def set (c : Cpu) (r : Gpr) (v : BitVec 64) : Cpu :=
  { c with reg := fun r' => if r' = r then v else c.reg r' }

/-- The stack pointer goes down by a word, and the word is stored there. -/
def push (c : Cpu) (v : BitVec 64) : Cpu :=
  let sp := c.reg .rsp - 8#64
  { c.set .rsp sp with mem := store c.mem sp v }

end Cpu

inductive Instr where
  /-- `cli` -/
  | cli
  /-- `pushq $v` -/
  | pushImm (v : BitVec 64)
  /-- `pushq %r` -/
  | push (r : Gpr)
  /-- `pushq (%rsp)` -/
  | pushTop
  /-- `popq %r` -/
  | pop (r : Gpr)
  /-- `andq $v, %rsp` -/
  | andRsp (v : BitVec 64)
  /-- `addq $v, %rsp` -/
  | addRsp (v : BitVec 64)
  /-- `movq d(%rsp), %rsp` -/
  | movRsp (d : BitVec 64)
  deriving DecidableEq, Repr

/-- One instruction. `pushq %rsp` stores the stack pointer as it was before, and `popq %rsp` ends
with the word it has read. -/
def Instr.exec (c : Cpu) : Instr → Cpu
  | .cli => { c with interruptFlag := false }
  | .pushImm v => c.push v
  | .push r => c.push (c.reg r)
  | .pushTop => c.push (load c.mem (c.reg .rsp))
  | .pop r => (c.set .rsp (c.reg .rsp + 8#64)).set r (load c.mem (c.reg .rsp))
  | .andRsp v => c.set .rsp (c.reg .rsp &&& v)
  | .addRsp v => c.set .rsp (c.reg .rsp + v)
  | .movRsp d => c.set .rsp (load c.mem (c.reg .rsp + d))

/-- A list of instructions. -/
def Cpu.run (c : Cpu) : List Instr → Cpu
  | [] => c
  | i :: is => (i.exec c).run is

/-- Whether the processor pushes an error code for the vector. -/
def pushesErrorCode (vector : BitVec 8) : Bool :=
  let v := vector.toNat
  v = 8 ∨ (10 ≤ v ∧ v ≤ 14) ∨ v = 17 ∨ v = 21 ∨ v = 29 ∨ v = 30

/-- The processor aligns the stack and pushes the frame that `iretq` takes back. Its last word is
the saved RIP. -/
def Cpu.pushFrame (c : Cpu) (status : CpuStatus) : Cpu :=
  let rsp := c.reg .rsp
  let c := c.set .rsp (rsp &&& -16#64)
  ((((c.push status.ss).push rsp).push status.rflags).push status.cs).push status.rip

/-- The processor takes the interrupt through an interrupt gate. -/
def Cpu.interrupt (c : Cpu) (status : CpuStatus) (vector : BitVec 8) (errorCode : BitVec 64) :
    Cpu :=
  let c := { c.pushFrame status with interruptFlag := false }
  if pushesErrorCode vector then c.push errorCode else c

/-! ### The stubs -/

/-- The condition of `DEFINE_ISR` for a dummy error code. -/
def pushesDummy (vector : BitVec 8) : Bool :=
  let v := vector.toNat
  v ≠ 8 ∧ ¬ (v ≥ 10 ∧ v ≤ 14) ∧ v ≠ 17

/-- `isr_<vector>` of `DEFINE_ISR(vector)`, up to `jmp isr_common`. -/
def isr (vector : BitVec 8) : List Instr :=
  [.cli] ++ (if pushesDummy vector then [.pushImm 0#64] else [])
    ++ [.pushImm (vector.setWidth 64)]

/-- `isr_common` saves the general-purpose registers. -/
def saveRegisters : List Instr :=
  [.push .rax, .push .rcx, .push .rdx, .push .rbx, .push .rsp, .push .rbp, .push .rsi, .push .rdi,
    .push .r15, .push .r14, .push .r13, .push .r12, .push .r11, .push .r10, .push .r9, .push .r8]

/-- `isr_common` up to `call itr_dispatch`: the argument, and the alignment of the stack. -/
def passContext : List Instr :=
  [.push .rsp, .pop .rdi, .push .rsp, .pushTop, .andRsp (-0x10#64)]

/-- `isr_common` from the return of `itr_dispatch` to `iretq`. -/
def restoreRegisters : List Instr :=
  [.movRsp 8#64,
    .pop .r8, .pop .r9, .pop .r10, .pop .r11, .pop .r12, .pop .r13, .pop .r14, .pop .r15,
    .pop .rdi, .pop .rsi, .pop .rbp, .pop .rsp, .pop .rbx, .pop .rdx, .pop .rcx, .pop .rax,
    .addRsp 0x10#64]

/-- The stub of the vector and `isr_common`, before the instruction `call itr_dispatch`. -/
def isrToCall (c : Cpu) (vector : BitVec 8) : Cpu :=
  c.run (isr vector ++ saveRegisters ++ passContext)

/-- `isr_common` from `call itr_dispatch` to the instruction `iretq`. The call pushes its return
address. -/
def isrToIretq (itrDispatch : Cpu → Cpu) (returnAddress : BitVec 64) (c : Cpu) : Cpu :=
  (itrDispatch (c.push returnAddress)).run restoreRegisters

end YmirC
