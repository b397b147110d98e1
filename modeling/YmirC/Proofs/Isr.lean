import Mathlib.Tactic.SplitIfs
import YmirC.Arch.X86.Isr
import YmirC.Lib.BitField

/-!
# `YmirC.Proofs.Isr`: the interrupt stubs keep the interrupted context

Up to the call of `itr_dispatch` the stubs push. `Stacked` describes the machine while they do,
with the list of the words pushed so far, so that the stack at the call is a list one can read
`Context` from. From the return to `iretq` they pop, and `run_pops` says what comes back.

The words between the frame of the processor and the vector are `errorWords`: there has to be one,
and `errorWords_length` says for which vectors there is. `isr_keepsContext_iff` is the same
condition for the whole way from the interrupt to `iretq`, with a handler that keeps the stack of
its caller and `*ctx` (`ReturnsIntact`).
-/

set_option autoImplicit false

namespace YmirC

open WordStack

/-! ### Instructions -/

namespace Cpu

@[simp] theorem set_reg_self (c : Cpu) (r : Gpr) (v : BitVec 64) : (c.set r v).reg r = v :=
  if_pos rfl

theorem set_reg_of_ne (c : Cpu) {r r' : Gpr} (v : BitVec 64) (h : r' ≠ r) :
    (c.set r v).reg r' = c.reg r' := if_neg h

@[simp] theorem set_mem (c : Cpu) (r : Gpr) (v : BitVec 64) : (c.set r v).mem = c.mem := rfl

@[simp] theorem push_rsp (c : Cpu) (v : BitVec 64) :
    (c.push v).reg .rsp = c.reg .rsp - 8#64 := rfl

theorem push_reg (c : Cpu) {r : Gpr} (v : BitVec 64) (h : r ≠ .rsp) :
    (c.push v).reg r = c.reg r := set_reg_of_ne c _ h

@[simp] theorem push_mem (c : Cpu) (v : BitVec 64) :
    (c.push v).mem = store c.mem (c.reg .rsp - 8#64) v := rfl

theorem run_append (c : Cpu) (is js : List Instr) : c.run (is ++ js) = (c.run is).run js := by
  induction is generalizing c with
  | nil => rfl
  | cons i is ih => exact ih (i.exec c)

end Cpu

namespace Instr

theorem exec_push (c : Cpu) (r : Gpr) : (push r).exec c = c.push (c.reg r) := rfl

theorem exec_pushTop {c : Cpu} {w : BitVec 64} (h : load c.mem (c.reg .rsp) = w) :
    pushTop.exec c = c.push w := by
  rw [exec, h]

@[simp] theorem exec_pop_mem (c : Cpu) (r : Gpr) : ((pop r).exec c).mem = c.mem := rfl

theorem exec_pop_reg_self (c : Cpu) (r : Gpr) :
    ((pop r).exec c).reg r = load c.mem (c.reg .rsp) := Cpu.set_reg_self _ _ _

theorem exec_pop_rsp (c : Cpu) {r : Gpr} (h : r ≠ .rsp) :
    ((pop r).exec c).reg .rsp = c.reg .rsp + 8#64 := by
  rw [exec, Cpu.set_reg_of_ne _ _ (Ne.symm h), Cpu.set_reg_self]

theorem exec_pop_reg_of_ne (c : Cpu) (r r' : Gpr) (hne : r' ≠ r) (hrsp : r' ≠ .rsp) :
    ((pop r).exec c).reg r' = c.reg r' := by
  rw [exec, Cpu.set_reg_of_ne _ _ hne, Cpu.set_reg_of_ne _ _ hrsp]

end Instr

/-! ### Pushing -/

/-- The words `ws` have been pushed below `top`, and the other registers are those of `regs`. -/
structure Stacked (regs : Gpr → BitVec 64) (top : BitVec 64) (ws : List (BitVec 64)) (c : Cpu) :
    Prop where
  reg : ∀ r, r ≠ .rsp → c.reg r = regs r
  rsp : c.reg .rsp = top - BitVec.ofNat 64 (8 * ws.length)
  words : StackAt c.mem (c.reg .rsp) ws

section Stacked
variable {regs : Gpr → BitVec 64} {top : BitVec 64} {ws : List (BitVec 64)} {c : Cpu}

theorem Stacked.push (h : Stacked regs top ws c) (v : BitVec 64)
    (hlen : 8 * ws.length + 8 ≤ 2 ^ 64) : Stacked regs top (v :: ws) (c.push v) := by
  refine ⟨fun r hr => ?_, ?_, h.words.push v hlen⟩
  · rw [Cpu.push_reg c v hr, h.reg r hr]
  · rw [Cpu.push_rsp, h.rsp, List.length_cons, Nat.mul_add, BitVec.ofNat_add]
    bv_omega

/-- A list of pushes without `pushq %rsp`. -/
theorem Stacked.run_pushes (rs : List Gpr) (hrs : Gpr.rsp ∉ rs) (h : Stacked regs top ws c)
    (hlen : 8 * (ws.length + rs.length) ≤ 2 ^ 64) :
    Stacked regs top ((rs.map regs).reverse ++ ws) (c.run (rs.map .push)) := by
  induction rs generalizing c ws with
  | nil => exact h
  | cons r rs ih =>
      obtain ⟨hr, hrs⟩ := not_or.mp (List.mem_cons.not.mp hrs)
      rw [List.length_cons] at hlen
      have hpush := h.push (c.reg r) (by omega)
      rw [h.reg r (Ne.symm hr)] at hpush
      have hrest := ih hrs hpush (by rw [List.length_cons]; omega)
      rw [List.map_cons, List.reverse_cons, List.append_assoc]
      rw [← h.reg r (Ne.symm hr)] at hrest ⊢
      exact hrest

/-- The words of `Registers`, with `saved` for the stack pointer. -/
def registerWords (regs : Gpr → BitVec 64) (saved : BitVec 64) : List (BitVec 64) :=
  [regs .r8, regs .r9, regs .r10, regs .r11, regs .r12, regs .r13, regs .r14, regs .r15,
    regs .rdi, regs .rsi, regs .rbp, saved, regs .rbx, regs .rdx, regs .rcx, regs .rax]

/-- What `pushq %rsp` stores is the address of the word before it, where RBX is. -/
theorem Stacked.saveRegisters (h : Stacked regs top ws c) (hlen : 8 * ws.length + 128 ≤ 2 ^ 64) :
    Stacked regs top
      (registerWords regs ((c.run saveRegisters).reg .rsp + 96#64) ++ ws)
      (c.run saveRegisters) := by
  let first : List Gpr := [.rax, .rcx, .rdx, .rbx]
  let second : List Gpr := [.rbp, .rsi, .rdi, .r15, .r14, .r13, .r12, .r11, .r10, .r9, .r8]
  have hrun : c.run YmirC.saveRegisters
      = ((c.run (first.map .push)).push ((c.run (first.map .push)).reg .rsp)).run
          (second.map .push) := by
    show c.run (first.map .push ++ ([.push .rsp] ++ second.map .push)) = _
    rw [Cpu.run_append, Cpu.run_append]
    rfl
  have hfirst := h.run_pushes first (by decide) (by simp [first]; omega)
  have hsaved := hfirst.push ((c.run (first.map .push)).reg .rsp) (by simp [first]; omega)
  have hall := hsaved.run_pushes second (by decide) (by simp [first, second]; omega)
  rw [← hrun] at hall
  have hsp : (c.run YmirC.saveRegisters).reg .rsp + 96#64
      = (c.run (first.map .push)).reg .rsp := by
    rw [hall.rsp, hfirst.rsp]
    simp only [first, second, List.length_append, List.length_reverse, List.length_map,
      List.length_cons, List.length_nil]
    bv_omega
  rw [hsp]
  exact hall

end Stacked

/-! ### The argument and the alignment -/

theorem and_neg_sixteen (x : BitVec 64) : (x &&& -0x10#64).toNat = x.toNat / 16 * 16 :=
  BitField.toNat_and_not_lowMask x 4

/-- `pushq %rsp; popq %rdi` leaves the stack as it is. -/
theorem push_pop_rdi {c : Cpu} {ws : List (BitVec 64)} (hws : StackAt c.mem (c.reg .rsp) ws)
    (hlen : 8 * ws.length + 8 ≤ 2 ^ 64) :
    let c' := (Instr.pop .rdi).exec ((Instr.push .rsp).exec c)
    c'.reg .rsp = c.reg .rsp ∧ c'.reg .rdi = c.reg .rsp ∧ StackAt c'.mem (c.reg .rsp) ws := by
  have hpush := hws.push (c.reg .rsp) hlen
  rw [stackAt_cons, BitVec.sub_add_cancel] at hpush
  rw [Instr.exec_push]
  refine ⟨?_, ?_, hpush.2⟩
  · rw [Instr.exec_pop_rsp _ (by decide), Cpu.push_rsp, BitVec.sub_add_cancel]
  · rw [Instr.exec_pop_reg_self]
    exact hpush.1

/-- The argument is the stack pointer, and the stack has it twice more before the alignment. -/
theorem passContext_spec {c : Cpu} {ws : List (BitVec 64)} (hws : StackAt c.mem (c.reg .rsp) ws)
    (hlen : 8 * ws.length + 16 ≤ 2 ^ 64) :
    (c.run passContext).reg .rdi = c.reg .rsp ∧
    (c.run passContext).reg .rsp = (c.reg .rsp - 16#64) &&& -0x10#64 ∧
    StackAt (c.run passContext).mem (c.reg .rsp - 16#64) (c.reg .rsp :: c.reg .rsp :: ws) := by
  obtain ⟨hrsp, hrdi, hstack⟩ := push_pop_rdi hws (by omega)
  have hrun : c.run passContext = (Instr.andRsp (-0x10#64)).exec (Instr.pushTop.exec
      ((Instr.push .rsp).exec ((Instr.pop .rdi).exec ((Instr.push .rsp).exec c)))) := rfl
  rw [hrun]
  generalize (Instr.pop .rdi).exec ((Instr.push .rsp).exec c) = c' at hrsp hrdi hstack ⊢
  have hone := hstack.push (c.reg .rsp) (by omega)
  have htwo := hone.push (c.reg .rsp) (by rw [List.length_cons]; omega)
  have hsub : c.reg .rsp - 8#64 - 8#64 = c.reg .rsp - 16#64 := by bv_omega
  have htop : load (c'.push (c.reg .rsp)).mem ((c'.push (c.reg .rsp)).reg .rsp) = c.reg .rsp := by
    rw [Cpu.push_mem, Cpu.push_rsp, hrsp]
    exact hone.1
  rw [Instr.exec_push, hrsp, Instr.exec_pushTop htop, Instr.exec]
  refine ⟨?_, ?_, ?_⟩
  · rw [Cpu.set_reg_of_ne _ _ (by decide), Cpu.push_reg _ _ (by decide),
      Cpu.push_reg _ _ (by decide), hrdi]
  · rw [Cpu.set_reg_self, Cpu.push_rsp, Cpu.push_rsp, hrsp, hsub]
  · rw [hsub] at htwo
    rw [Cpu.set_mem, Cpu.push_mem, Cpu.push_mem, Cpu.push_rsp, hrsp, hsub]
    exact htwo

/-! ### Popping -/

/-- A list of pops without `popq %rsp`. -/
theorem run_pops (rs : List Gpr) (hrs : Gpr.rsp ∉ rs) (regs : Gpr → BitVec 64) {c : Cpu}
    (h : StackAt c.mem (c.reg .rsp) (rs.map regs)) :
    (c.run (rs.map .pop)).mem = c.mem ∧
    (c.run (rs.map .pop)).reg .rsp = c.reg .rsp + BitVec.ofNat 64 (8 * rs.length) ∧
    ∀ r, r ≠ .rsp → (c.run (rs.map .pop)).reg r = if r ∈ rs then regs r else c.reg r := by
  induction rs generalizing c with
  | nil => exact ⟨rfl, (BitVec.add_zero _).symm, fun r _ => rfl⟩
  | cons r rs ih =>
      obtain ⟨hr, hrs⟩ := not_or.mp (List.mem_cons.not.mp hrs)
      rw [List.map_cons, stackAt_cons] at h
      have hmem := Instr.exec_pop_mem c r
      have hself := Instr.exec_pop_reg_self c r
      have hsp := Instr.exec_pop_rsp c (Ne.symm hr)
      have hother := Instr.exec_pop_reg_of_ne c r
      rw [h.1] at hself
      rw [List.map_cons, Cpu.run, List.length_cons]
      generalize (Instr.pop r).exec c = c' at hmem hself hsp hother ⊢
      obtain ⟨hmem', hsp', hregs⟩ := ih hrs (c := c') (by rw [hmem, hsp]; exact h.2)
      refine ⟨hmem'.trans hmem, ?_, fun r' hne => ?_⟩
      · rw [hsp', hsp, Nat.mul_add, BitVec.ofNat_add]
        bv_omega
      · rw [hregs r' hne]
        by_cases hin : r' ∈ rs
        · simp [hin]
        · by_cases heq : r' = r
          · simp [heq, hself]
          · simp [hin, heq, hother r' heq hne]

/-- The registers come back from the words of `Registers`, and the stack pointer ends behind the
error code. `popq %rsp` reads the address of the next word, so it moves like the others. -/
theorem restoreRegisters_spec {regs : Gpr → BitVec 64} {c : Cpu} {ctx : BitVec 64}
    (hctx : load c.mem (c.reg .rsp + 8#64) = ctx)
    (hwords : StackAt c.mem ctx (registerWords regs (ctx + 96#64))) :
    (c.run restoreRegisters).mem = c.mem ∧
    (c.run restoreRegisters).reg .rsp = ctx + 144#64 ∧
    ∀ r, r ≠ .rsp → (c.run restoreRegisters).reg r = regs r := by
  let first : List Gpr := [.r8, .r9, .r10, .r11, .r12, .r13, .r14, .r15, .rdi, .rsi, .rbp]
  let second : List Gpr := [.rbx, .rdx, .rcx, .rax]
  have hsplit : registerWords regs (ctx + 96#64)
      = first.map regs ++ (ctx + 96#64) :: second.map regs := rfl
  rw [hsplit, stackAt_append, stackAt_cons, List.length_map] at hwords
  obtain ⟨hfirst, hsaved, hsecond⟩ := hwords
  have hrun : c.run restoreRegisters = (Instr.addRsp 0x10#64).exec (((Instr.pop .rsp).exec
      ((c.set .rsp (load c.mem (c.reg .rsp + 8#64))).run (first.map .pop))).run
        (second.map .pop)) := rfl
  rw [hrun, hctx]
  obtain ⟨hmem1, hsp1, hregs1⟩ := run_pops first (by decide) regs (c := c.set .rsp ctx)
    (by rw [Cpu.set_reg_self]; exact hfirst)
  rw [Cpu.set_reg_self] at hsp1
  rw [Cpu.set_mem] at hmem1
  generalize (c.set .rsp ctx).run (first.map .pop) = c1 at hmem1 hsp1 hregs1 ⊢
  -- `popq %rsp`
  have hmem2 := Instr.exec_pop_mem c1 .rsp
  have hsp2 := Instr.exec_pop_reg_self c1 .rsp
  have hregs2 := fun r h => Instr.exec_pop_reg_of_ne c1 .rsp r h h
  rw [hmem1] at hmem2
  rw [hmem1, hsp1, hsaved] at hsp2
  generalize (Instr.pop .rsp).exec c1 = c2 at hmem2 hsp2 hregs2 ⊢
  obtain ⟨hmem3, hsp3, hregs3⟩ := run_pops second (by decide) regs (c := c2) (by
    have hnext : ctx + BitVec.ofNat 64 (8 * first.length) + 8#64 = ctx + 96#64 := by
      show ctx + 88#64 + 8#64 = _
      bv_omega
    rw [hmem2, hsp2, ← hnext]
    exact hsecond)
  refine ⟨?_, ?_, fun r hr => ?_⟩
  · rw [Instr.exec, Cpu.set_mem, hmem3, hmem2]
  · have hend : ctx + 96#64 + BitVec.ofNat 64 (8 * second.length) + 0x10#64 = ctx + 144#64 := by
      show ctx + 96#64 + 32#64 + 0x10#64 = _
      bv_omega
    rw [Instr.exec, Cpu.set_reg_self, hsp3, hsp2, hend]
  · rw [Instr.exec, Cpu.set_reg_of_ne _ _ hr, hregs3 r hr, hregs2 r hr, hregs1 r hr]
    cases r <;> simp [first, second] at hr ⊢

/-! ### The frame of an interrupt -/

/-- The words that `iretq` takes back. -/
def frameWords (status : CpuStatus) (rsp : BitVec 64) : List (BitVec 64) :=
  [status.rip, status.cs, status.rflags, rsp, status.ss]

/-- The words between the vector and the frame: the dummy of the stub and the error code of the
processor. -/
def errorWords (vector : BitVec 8) (errorCode : BitVec 64) : List (BitVec 64) :=
  (if pushesDummy vector then [0#64] else [])
    ++ (if pushesErrorCode vector then [errorCode] else [])

/-- The stub knows of no error code for the vectors 21, 29 and 30. -/
theorem errorWords_length (vector : BitVec 8) (errorCode : BitVec 64) :
    (errorWords vector errorCode).length
      = if vector = 21#8 ∨ vector = 29#8 ∨ vector = 30#8 then 2 else 1 := by
  have heq : ∀ k : Nat, k < 256 → (vector = BitVec.ofNat 8 k ↔ vector.toNat = k) := by
    intro k hk
    rw [BitVec.toNat_eq, BitVec.toNat_ofNat, Nat.mod_eq_of_lt hk]
  rw [errorWords, List.length_append]
  simp only [heq 21 (by decide), heq 29 (by decide), heq 30 (by decide), pushesDummy,
    pushesErrorCode, decide_eq_true_eq, apply_ite List.length, List.length_cons, List.length_nil]
  split_ifs <;> omega

theorem pushFrame_stacked (c : Cpu) (status : CpuStatus) :
    Stacked c.reg (c.reg .rsp &&& -16#64) (frameWords status (c.reg .rsp))
      (c.pushFrame status) := by
  have h0 : Stacked c.reg (c.reg .rsp &&& -16#64) [] (c.set .rsp (c.reg .rsp &&& -16#64)) := by
    refine ⟨fun r hr => Cpu.set_reg_of_ne c _ hr, ?_, stackAt_nil _ _⟩
    rw [Cpu.set_reg_self]
    simp
  have h1 := h0.push status.ss (by simp)
  have h2 := h1.push (c.reg .rsp) (by simp)
  have h3 := h2.push status.rflags (by simp)
  have h4 := h3.push status.cs (by simp)
  exact h4.push status.rip (by simp)

/-- The interrupt flag is not among what the pushes use. -/
theorem Stacked.of_interruptFlag {regs : Gpr → BitVec 64} {top : BitVec 64}
    {ws : List (BitVec 64)} {c : Cpu} (h : Stacked regs top ws c) (b : Bool) :
    Stacked regs top ws { c with interruptFlag := b } := ⟨h.reg, h.rsp, h.words⟩

/-- The stack when the stub jumps to `isr_common`. -/
theorem isr_stacked (c : Cpu) (status : CpuStatus) (vector : BitVec 8) (errorCode : BitVec 64) :
    Stacked c.reg (c.reg .rsp &&& -16#64)
      (vector.setWidth 64 :: errorWords vector errorCode ++ frameWords status (c.reg .rsp))
      ((c.interrupt status vector errorCode).run (isr vector)) := by
  have hframe := (pushFrame_stacked c status).of_interruptFlag false
  have hentry : Stacked c.reg (c.reg .rsp &&& -16#64)
      ((if pushesErrorCode vector then [errorCode] else []) ++ frameWords status (c.reg .rsp))
      (c.interrupt status vector errorCode) := by
    rw [Cpu.interrupt]
    by_cases hpush : pushesErrorCode vector
    · simp only [hpush, if_true]
      exact hframe.push errorCode (by simp [frameWords])
    · simp only [hpush]
      exact hframe
  have hcli := hentry.of_interruptFlag false
  have hdummy : Stacked c.reg (c.reg .rsp &&& -16#64)
      (errorWords vector errorCode ++ frameWords status (c.reg .rsp))
      ((Instr.exec (c.interrupt status vector errorCode) .cli).run
        (if pushesDummy vector then [.pushImm 0#64] else [])) := by
    rw [errorWords, List.append_assoc]
    by_cases hdummy : pushesDummy vector
    · simp only [hdummy, if_true]
      exact hcli.push 0#64 (by simp [frameWords]; split <;> simp)
    · simp only [hdummy]
      exact hcli
  rw [isr, Cpu.run_append, Cpu.run_append]
  have hlen := errorWords_length vector errorCode
  refine hdummy.push (vector.setWidth 64) ?_
  rw [List.length_append, hlen]
  simp only [frameWords, List.length_cons, List.length_nil]
  split <;> omega

/-! ### The handler -/

/-- What `itr_dispatch` is trusted with, from its first instruction to its return: it takes its
return address from the stack, it keeps the frame of its caller, and it does not modify
`*ctx`. -/
structure ReturnsIntact (entry ret : Cpu) : Prop where
  rsp : ret.reg .rsp = entry.reg .rsp + 8#64
  frame : ∀ b : BitVec 64,
    (b - (entry.reg .rsp + 8#64)).toNat < (entry.reg .rdi - (entry.reg .rsp + 8#64)).toNat →
    ret.mem b = entry.mem b
  context : ∀ b : BitVec 64,
    (b - entry.reg .rdi).toNat < SIZEOF_CONTEXT → ret.mem b = entry.mem b

/-- The stack of the stub when `itr_dispatch` starts: the two copies of the stack pointer, and the
words of `Context` behind them. -/
structure Entered (ctx : BitVec 64) (ws : List (BitVec 64)) (entry : Cpu) : Prop where
  rdi : entry.reg .rdi = ctx
  rsp : entry.reg .rsp + 8#64 = (ctx - 16#64) &&& -0x10#64
  words : StackAt entry.mem (ctx - 16#64) (ctx :: ctx :: ws)

/-- The alignment puts the stack pointer on the lower of the two copies or one word below it. -/
theorem and_neg_sixteen_eq_or {x : BitVec 64} (h : x.toNat % 8 = 0) :
    x &&& -0x10#64 = x ∨ x &&& -0x10#64 = x - 8#64 := by
  have hand := and_neg_sixteen x
  by_cases h16 : x.toNat % 16 = 0
  · left
    apply BitVec.eq_of_toNat_eq
    omega
  · right
    apply BitVec.eq_of_toNat_eq
    rw [hand, BitVec.toNat_sub_of_le (by bv_omega)]
    show _ = x.toNat - 8
    omega

/-- So a push after the alignment is at most two words below. -/
theorem toNat_sub_and_neg_sixteen {x : BitVec 64} (h : x.toNat % 8 = 0) :
    8 ≤ (x - ((x &&& -0x10#64) - 8#64)).toNat ∧ (x - ((x &&& -0x10#64) - 8#64)).toNat ≤ 16 := by
  rcases and_neg_sixteen_eq_or h with hlow | hlow
  · rw [hlow]
    bv_omega
  · rw [hlow]
    bv_omega

section Dispatch
variable {ctx : BitVec 64} {ws : List (BitVec 64)} {entry ret : Cpu}

/-- The word that `restoreRegisters` reads first is one of the two copies. -/
theorem ReturnsIntact.load_rsp (hret : ReturnsIntact entry ret) (h : Entered ctx ws entry)
    (halign : ctx.toNat % 8 = 0) : load ret.mem (ret.reg .rsp + 8#64) = ctx := by
  have hframe := hret.frame
  rw [hret.rsp]
  rw [h.rdi, h.rsp] at hframe
  rw [h.rsp]
  have hwords := h.words
  rw [stackAt_cons, stackAt_cons] at hwords
  rcases and_neg_sixteen_eq_or (x := ctx - 16#64) (by bv_omega) with hlow | hlow
  · rw [hlow] at hframe ⊢
    rw [load_congr fun b hb => hframe b (by bv_omega)]
    exact hwords.2.1
  · rw [hlow] at hframe ⊢
    have hsub : ctx - 16#64 - 8#64 + 8#64 = ctx - 16#64 := BitVec.sub_add_cancel _ _
    rw [hsub, load_congr fun b hb => hframe b (by bv_omega)]
    exact hwords.1

/-- The words of `*ctx` are as they were. -/
theorem ReturnsIntact.stackAt (hret : ReturnsIntact entry ret) {us : List (BitVec 64)}
    (h : StackAt entry.mem (entry.reg .rdi) us) (hlen : 8 * us.length ≤ SIZEOF_CONTEXT) :
    StackAt ret.mem (entry.reg .rdi) us :=
  h.congr fun b hb => hret.context b (by omega)

end Dispatch

/-! ### The whole way -/

section Way
variable (c : Cpu) (status : CpuStatus) (vector : BitVec 8) (errorCode returnAddress : BitVec 64)

/-- The address of the interrupted context: the stack pointer when the registers are saved. -/
def contextAddress : BitVec 64 :=
  ((c.interrupt status vector errorCode).run (isr vector ++ saveRegisters)).reg .rsp

/-- The words from there up. -/
def contextWords : List (BitVec 64) :=
  registerWords c.reg (contextAddress c status vector errorCode + 96#64)
    ++ (vector.setWidth 64 :: errorWords vector errorCode ++ frameWords status (c.reg .rsp))

/-- The machine when `itr_dispatch` starts. -/
def isrEntry : Cpu :=
  (isrToCall (c.interrupt status vector errorCode) vector).push returnAddress

theorem saved_stacked :
    Stacked c.reg (c.reg .rsp &&& -16#64) (contextWords c status vector errorCode)
      ((c.interrupt status vector errorCode).run (isr vector ++ saveRegisters)) := by
  have hisr := isr_stacked c status vector errorCode
  have hlen := errorWords_length vector errorCode
  have hsaved := hisr.saveRegisters (by
    simp only [frameWords, List.length_append, List.length_cons, List.length_nil, hlen]
    split <;> omega)
  rw [contextWords, contextAddress, Cpu.run_append]
  exact hsaved

theorem contextWords_length :
    (contextWords c status vector errorCode).length
      = if vector = 21#8 ∨ vector = 29#8 ∨ vector = 30#8 then 24 else 23 := by
  simp only [contextWords, registerWords, frameWords, List.length_append, List.length_cons,
    List.length_nil, errorWords_length]
  split <;> rfl

/-- The context is at a fixed distance below the aligned stack pointer, for each number of
words. -/
theorem contextAddress_eq :
    contextAddress c status vector errorCode
      = (c.reg .rsp &&& -16#64) - if vector = 21#8 ∨ vector = 29#8 ∨ vector = 30#8 then 192#64
          else 184#64 := by
  have hsp := (saved_stacked c status vector errorCode).rsp
  rw [contextWords_length] at hsp
  rw [contextAddress, hsp]
  split <;> rfl

theorem contextAddress_mod : (contextAddress c status vector errorCode).toNat % 8 = 0 := by
  have halign := and_neg_sixteen (c.reg .rsp)
  rw [contextAddress_eq]
  split <;> bv_omega

/-- The return address is below both copies of the stack pointer. -/
theorem isrEntry_entered :
    Entered (contextAddress c status vector errorCode) (contextWords c status vector errorCode)
      (isrEntry c status vector errorCode returnAddress) := by
  have hlen := contextWords_length c status vector errorCode
  have hbound : 8 * (contextWords c status vector errorCode).length + 64 ≤ 2 ^ 64 := by
    rw [hlen]
    split <;> omega
  have hmod := contextAddress_mod c status vector errorCode
  have hctx : ((c.interrupt status vector errorCode).run (isr vector ++ saveRegisters)).reg .rsp
      = contextAddress c status vector errorCode := rfl
  obtain ⟨hrdi, hrsp, hwords⟩ := passContext_spec
    (saved_stacked c status vector errorCode).words (by omega)
  rw [← Cpu.run_append, hctx] at hrdi hrsp hwords
  have hcall : isrEntry c status vector errorCode returnAddress
      = ((c.interrupt status vector errorCode).run
          ((isr vector ++ saveRegisters) ++ passContext)).push returnAddress := rfl
  rw [hcall]
  refine ⟨?_, ?_, ?_⟩
  · rw [Cpu.push_reg _ _ (by decide), hrdi]
  · rw [Cpu.push_rsp, BitVec.sub_add_cancel, hrsp]
  · rw [Cpu.push_mem, hrsp]
    have hpad := toNat_sub_and_neg_sixteen (x := contextAddress c status vector errorCode - 16#64)
      (by bv_omega)
    apply hwords.store_below
    · exact hpad.1
    · simp only [List.length_cons]
      omega

end Way

/-- The fields of `Context` in the words of the stack. -/
theorem read_of_stackAt {m : Memory} {ctx : BitVec 64} {regs : Gpr → BitVec 64}
    {saved v e rip cs rflags : BitVec 64}
    (h : StackAt m ctx (registerWords regs saved ++ [v, e, rip, cs, rflags])) :
    (∀ r, r ≠ .rsp → (Context.read m ctx).registers.get r = regs r) ∧
    (Context.read m ctx).vector = v ∧ (Context.read m ctx).errorCode = e ∧
    (Context.read m ctx).rip = rip ∧ (Context.read m ctx).cs = cs ∧
    (Context.read m ctx).rflags = rflags := by
  simp only [registerWords, List.cons_append, List.nil_append, stackAt_cons, BitVec.add_assoc,
    BitVec.reduceAdd] at h
  obtain ⟨h0, h1, h2, h3, h4, h5, h6, h7, h8, h9, h10, -, h12, h13, h14, h15, hv, he, hrip, hcs,
    hrflags, -⟩ := h
  simp only [Context.read]
  refine ⟨fun r hr => ?_, hv, he, hrip, hcs, hrflags⟩
  cases r with
  | rsp => exact absurd rfl hr
  | _ =>
      simp only [Registers.get, h0, h1, h2, h3, h4, h5, h6, h7, h8, h9, h10, h12, h13, h14, h15]

/-- `ctx` describes the interrupted context: the registers other than the stack pointer, the vector
with its error code or 0, and the saved state of the processor. -/
structure Describes (c : Cpu) (status : CpuStatus) (v : BitVec 8) (error : BitVec 64)
    (ctx : Context) : Prop where
  registers : ∀ r, r ≠ .rsp → ctx.registers.get r = c.reg r
  vector : ctx.vector = v.setWidth 64
  errorCode : ctx.errorCode = if pushesErrorCode v then error else 0#64
  rip : ctx.rip = status.rip
  cs : ctx.cs = status.cs
  rflags : ctx.rflags = status.rflags

/-- The stubs keep the interrupted context: `itr_dispatch` gets a pointer to it, on an aligned
stack, and `iretq` finds the registers restored and the stack at the saved RIP. -/
structure KeepsContext (itrDispatch : Cpu → Cpu) (returnAddress : BitVec 64) (c : Cpu)
    (status : CpuStatus) (v : BitVec 8) (error : BitVec 64) : Prop where
  context : Describes c status v error
    (Context.read (isrEntry c status v error returnAddress).mem
      ((isrEntry c status v error returnAddress).reg .rdi))
  aligned : ((isrToCall (c.interrupt status v error) v).reg .rsp).toNat % 16 = 0
  registers : ∀ r, r ≠ .rsp →
    (isrToIretq itrDispatch returnAddress (isrToCall (c.interrupt status v error) v)).reg r
      = c.reg r
  savedRip :
    (isrToIretq itrDispatch returnAddress (isrToCall (c.interrupt status v error) v)).reg .rsp
      = (c.pushFrame status).reg .rsp
  rip :
    load (isrToIretq itrDispatch returnAddress (isrToCall (c.interrupt status v error) v)).mem
      ((c.pushFrame status).reg .rsp) = status.rip

section Way
variable (c : Cpu) (status : CpuStatus) (v : BitVec 8) (error returnAddress : BitVec 64)
  {itrDispatch : Cpu → Cpu}

/-- The words of `*ctx` when `itr_dispatch` starts. -/
theorem isrEntry_stackAt :
    StackAt (isrEntry c status v error returnAddress).mem (contextAddress c status v error)
      (contextWords c status v error) := by
  have hwords := (isrEntry_entered c status v error returnAddress).words
  rw [stackAt_cons, stackAt_cons] at hwords
  have hctx : contextAddress c status v error - 16#64 + 8#64 + 8#64
      = contextAddress c status v error := by bv_omega
  rw [hctx] at hwords
  exact hwords.2.2

/-- The state at `iretq`, for every vector. -/
theorem isrToIretq_spec
    (hret : ReturnsIntact (isrEntry c status v error returnAddress)
      (itrDispatch (isrEntry c status v error returnAddress))) :
    let ret := itrDispatch (isrEntry c status v error returnAddress)
    let i := isrToIretq itrDispatch returnAddress (isrToCall (c.interrupt status v error) v)
    i.mem = ret.mem ∧ i.reg .rsp = contextAddress c status v error + 144#64 ∧
      ∀ r, r ≠ .rsp → i.reg r = c.reg r := by
  have hentered := isrEntry_entered c status v error returnAddress
  have hload := hret.load_rsp hentered (contextAddress_mod c status v error)
  have hwords := isrEntry_stackAt c status v error returnAddress
  rw [contextWords, stackAt_append, ← hentered.rdi] at hwords
  have hregs := hret.stackAt hwords.1 (by simp [registerWords, SIZEOF_CONTEXT])
  rw [hentered.rdi] at hregs
  exact restoreRegisters_spec hload hregs

/-- Where the saved RIP is. -/
theorem pushFrame_rsp :
    (c.pushFrame status).reg .rsp = (c.reg .rsp &&& -16#64) - 40#64 :=
  (pushFrame_stacked c status).rsp

/-- One word between the vector and the frame: the error code or the dummy. -/
theorem errorWords_eq (hv : v ≠ 21#8 ∧ v ≠ 29#8 ∧ v ≠ 30#8) :
    errorWords v error = [if pushesErrorCode v then error else 0#64] := by
  have hlen := errorWords_length v error
  rw [if_neg (by simp [hv])] at hlen
  rw [errorWords] at hlen ⊢
  by_cases hdummy : pushesDummy v <;> by_cases hcode : pushesErrorCode v <;>
    simp [hdummy, hcode] at hlen ⊢

/-- The stubs keep the interrupted context exactly when the vector is not 21, 29 or 30. -/
theorem isr_keepsContext_iff (itrDispatch : Cpu → Cpu)
    (hret : ReturnsIntact (isrEntry c status v error returnAddress)
      (itrDispatch (isrEntry c status v error returnAddress))) :
    KeepsContext itrDispatch returnAddress c status v error ↔
      v ≠ 21#8 ∧ v ≠ 29#8 ∧ v ≠ 30#8 := by
  obtain ⟨hmem, hsp, hregs⟩ := isrToIretq_spec c status v error returnAddress hret
  have hctx := contextAddress_eq c status v error
  have hframe := pushFrame_rsp c status
  constructor
  · -- With two words in between, the stack is at the error code.
    intro hkeeps
    have hrip := hkeeps.savedRip
    rw [hsp, hctx, hframe] at hrip
    by_cases hbad : v = 21#8 ∨ v = 29#8 ∨ v = 30#8
    · rw [if_pos hbad] at hrip
      bv_omega
    · simpa using hbad
  · intro hv
    rw [if_neg (by simp [hv])] at hctx
    have hsaved : contextAddress c status v error + 144#64 = (c.pushFrame status).reg .rsp := by
      rw [hctx, hframe]
      bv_omega
    have hentered := isrEntry_entered c status v error returnAddress
    have hwords := isrEntry_stackAt c status v error returnAddress
    have hsplit : contextWords c status v error
        = (registerWords c.reg (contextAddress c status v error + 96#64)
            ++ [v.setWidth 64, if pushesErrorCode v then error else 0#64, status.rip, status.cs,
              status.rflags]) ++ [c.reg .rsp, status.ss] := by
      rw [contextWords, errorWords_eq v error hv, frameWords, List.append_assoc]
      rfl
    rw [hsplit, stackAt_append, ← hentered.rdi] at hwords
    obtain ⟨hreg, hvector, hcode, hrip, hcs, hrflags⟩ := read_of_stackAt hwords.1
    obtain ⟨-, -, -, hrip', -, -⟩ :=
      read_of_stackAt (hret.stackAt hwords.1 (by simp [registerWords, SIZEOF_CONTEXT]))
    refine ⟨⟨hreg, hvector, hcode, hrip, hcs, hrflags⟩, ?_, hregs, hsp.trans hsaved, ?_⟩
    · have hcall := hentered.rsp
      rw [isrEntry, Cpu.push_rsp, BitVec.sub_add_cancel] at hcall
      rw [hcall, and_neg_sixteen]
      omega
    · rw [hmem, ← hsaved, ← hentered.rdi]
      exact hrip'

end Way

/-- A handler that returns at once. -/
def returnOnly (c : Cpu) : Cpu := c.set .rsp (c.reg .rsp + 8#64)

theorem returnsIntact_returnOnly (c : Cpu) : ReturnsIntact c (returnOnly c) :=
  ⟨Cpu.set_reg_self _ _ _, fun _ _ => rfl, fun _ _ => rfl⟩

/-- A processor with a stack at 0x8000 and nothing else. -/
def stackOnly : Cpu where
  reg r := if r = .rsp then 0x8000#64 else 0#64
  mem _ := 0#8
  interruptFlag := true

/-- A page fault with error code 2. -/
theorem isr_keepsContext_iff_pageFault :
    KeepsContext returnOnly 0x1000#64 stackOnly ⟨0x2000#64, 8#64, 0x202#64, 0x10#64⟩ 14#8 2#64 ↔
      14#8 ≠ 21#8 ∧ 14#8 ≠ 29#8 ∧ 14#8 ≠ 30#8 :=
  isr_keepsContext_iff stackOnly ⟨0x2000#64, 8#64, 0x202#64, 0x10#64⟩ 14#8 2#64 0x1000#64
    returnOnly (returnsIntact_returnOnly _)

/-- A control-protection exception with error code 3. The stub pushes its dummy on top of the error
code, so at `iretq` the stack is at the error code and not at the saved RIP. -/
theorem not_isr_keepsContext :
    ReturnsIntact
      (isrEntry stackOnly ⟨0x2000#64, 8#64, 0x202#64, 0x10#64⟩ 21#8 3#64 0x1000#64)
      (returnOnly (isrEntry stackOnly ⟨0x2000#64, 8#64, 0x202#64, 0x10#64⟩ 21#8 3#64
        0x1000#64)) ∧
    ¬ KeepsContext returnOnly 0x1000#64 stackOnly ⟨0x2000#64, 8#64, 0x202#64, 0x10#64⟩ 21#8
        3#64 := by
  have hret := returnsIntact_returnOnly
    (isrEntry stackOnly ⟨0x2000#64, 8#64, 0x202#64, 0x10#64⟩ 21#8 3#64 0x1000#64)
  refine ⟨hret, fun hkeeps => ?_⟩
  obtain ⟨-, hsp, -⟩ := isrToIretq_spec stackOnly ⟨0x2000#64, 8#64, 0x202#64, 0x10#64⟩ 21#8 3#64
    0x1000#64 hret
  have hrip := hkeeps.savedRip
  rw [hsp, contextAddress_eq, pushFrame_rsp] at hrip
  exact absurd hrip (by decide)

end YmirC
