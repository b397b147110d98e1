import YmirC.Arch.X86.SvmAsm
import YmirC.Proofs.Isr

/-!
# `YmirC.Proofs.SvmAsm`: the world switch keeps both sides

`asm_vmrun` is a sequence of blocks, and there is one lemma for each. The pushes and the pops are
those of the interrupt stubs (`Stacked`, `run_pops`). The blocks in between read or write the
record `GuestRegisters` at its address, which `StackAt` describes as a list of words.
-/

set_option autoImplicit false

namespace YmirC

open WordStack

/-! ### Blocks of instructions -/

namespace SvmCpu

@[simp] theorem setMem_mem (c : SvmCpu) (m : Memory) : (c.setMem m).core.mem = m := rfl

@[simp] theorem setMem_reg (c : SvmCpu) (m : Memory) : (c.setMem m).core.reg = c.core.reg := rfl

@[simp] theorem setMem_setMem (c : SvmCpu) (m m' : Memory) :
    (c.setMem m).setMem m' = c.setMem m' := rfl

/-- The registers replaced. -/
def setRegs (c : SvmCpu) (regs : Gpr → BitVec 64) : SvmCpu :=
  { c with core := { c.core with reg := regs } }

variable {w : World}

theorem run_append (c : SvmCpu) (is js : List SvmInstr) :
    c.run w (is ++ js) = (c.run w is).bind fun c => c.run w js := by
  induction is generalizing c with
  | nil => rfl
  | cons i is ih =>
      show (i.exec w c).bind (fun c => c.run w (is ++ js)) = ((i.exec w c).bind _).bind _
      rw [Option.bind_assoc]
      congr 1
      funext c
      exact ih c

/-- Instructions of the stubs. -/
theorem run_core (c : SvmCpu) (is : List Instr) :
    c.run w (is.map .core) = some { c with core := c.core.run is } := by
  induction is generalizing c with
  | nil => rfl
  | cons i is ih => exact ih { c with core := i.exec c.core }

/-- Loads of registers from the record at RBX. -/
theorem run_loads (c : SvmCpu) (rs : List Gpr) (hrs : Gpr.rbx ∉ rs) :
    c.run w (rs.map fun r => .load (guestRegOffset r) .rbx r)
      = some (c.setRegs fun r =>
          if r ∈ rs then load c.core.mem (c.addr (guestRegOffset r) .rbx) else c.core.reg r) := by
  induction rs generalizing c with
  | nil => simp [run, setRegs]
  | cons r rs ih =>
      obtain ⟨hr, hrs⟩ := not_or.mp (List.mem_cons.not.mp hrs)
      have hstep : c.run w ((r :: rs).map fun r => .load (guestRegOffset r) .rbx r)
          = (c.setReg r (load c.core.mem (c.addr (guestRegOffset r) .rbx))).run w
              (rs.map fun r => .load (guestRegOffset r) .rbx r) := rfl
      rw [hstep, ih _ hrs]
      simp only [addr, setReg, setRegs, Cpu.set_mem, Cpu.set_reg_of_ne _ _ hr]
      congr 3
      funext r'
      by_cases hin : r' ∈ rs
      · simp [hin]
      · by_cases heq : r' = r
        · simp [heq]
        · simp [hin, heq, Cpu.set_reg_of_ne _ _ heq]

/-- Loads of SSE registers from the record at RBX. -/
theorem run_loadXmms (c : SvmCpu) (is : List (Fin 8))
    (hal : ∀ i ∈ is, (c.addr (guestXmmOffset i) .rbx).toNat % 16 = 0) :
    ∃ xmm, c.run w (is.map fun i => .loadXmm (guestXmmOffset i) .rbx i)
        = some { c with xmm := xmm } ∧
      (∀ j ∈ is, xmm j = load128 c.core.mem (c.addr (guestXmmOffset j) .rbx)) ∧
      ∀ j, j ∉ is → xmm j = c.xmm j := by
  induction is generalizing c with
  | nil => exact ⟨c.xmm, rfl, fun j hj => absurd hj List.not_mem_nil, fun j _ => rfl⟩
  | cons i is ih =>
      have hi := hal i List.mem_cons_self
      obtain ⟨xmm, hrun, hin, hout⟩ := ih
        { c with xmm := fun j =>
            if j = i then load128 c.core.mem (c.addr (guestXmmOffset i) .rbx) else c.xmm j }
        fun j hj => hal j (List.mem_cons_of_mem _ hj)
      refine ⟨xmm, ?_, fun j hj => ?_, fun j hj => ?_⟩
      · rw [List.map_cons, run, SvmInstr.exec, if_neg (not_not_intro hi), Option.bind_some, hrun]
      · by_cases hmem : j ∈ is
        · exact hin j hmem
        · obtain rfl : j = i := (List.mem_cons.mp hj).resolve_right hmem
          rw [hout j hmem]
          exact if_pos rfl
      · obtain ⟨hne, hmem⟩ := not_or.mp (List.mem_cons.not.mp hj)
        rw [hout j hmem]
        exact if_neg hne

/-- The fields of `GuestRegisters` that are registers, as writes to a record. -/
def regFields (c : SvmCpu) (rs : List Gpr) : List (Nat × BitVec 64) :=
  rs.map fun r => (guestRegFields.idxOf r, c.core.reg r)

/-- The SSE fields of `GuestRegisters`, as writes to a record of words. -/
def xmmFields (c : SvmCpu) (is : List (Fin 8)) : List (Nat × BitVec 64) :=
  is.flatMap fun i => [(14 + 2 * i.val, (c.xmm i).extractLsb' 0 64),
    (15 + 2 * i.val, (c.xmm i).extractLsb' 64 64)]

theorem xmmFields_setMem (c : SvmCpu) (m : Memory) : (c.setMem m).xmmFields = c.xmmFields := rfl

/-- Stores of registers to the record at RAX. -/
theorem run_stores (c : SvmCpu) (rs : List Gpr) :
    c.run w (rs.map fun r => .store r (guestRegOffset r) .rax)
      = some (c.setMem (storeAll c.core.mem (c.core.reg .rax) (c.regFields rs))) := by
  induction rs generalizing c with
  | nil => rfl
  | cons r rs ih => exact ih (c.setMem _)

/-- Stores of SSE registers to the record at RAX. -/
theorem run_storeXmms (c : SvmCpu) (is : List (Fin 8))
    (hal : ∀ i ∈ is, (c.addr (guestXmmOffset i) .rax).toNat % 16 = 0) :
    c.run w (is.map fun i => .storeXmm i (guestXmmOffset i) .rax)
      = some (c.setMem (storeAll c.core.mem (c.core.reg .rax) (c.xmmFields is))) := by
  induction is generalizing c with
  | nil => rfl
  | cons i is ih =>
      have hi := hal i List.mem_cons_self
      have hstore : store128 c.core.mem (c.addr (guestXmmOffset i) .rax) (c.xmm i)
          = storeAll c.core.mem (c.core.reg .rax) (c.xmmFields [i]) := by
        have hlow : c.addr (guestXmmOffset i) .rax
            = c.core.reg .rax + BitVec.ofNat 64 (8 * (14 + 2 * i.val)) := by
          rw [addr, guestXmmOffset]
          congr 2
          omega
        have hhigh : c.addr (guestXmmOffset i) .rax + 8#64
            = c.core.reg .rax + BitVec.ofNat 64 (8 * (15 + 2 * i.val)) := by
          rw [addr, guestXmmOffset]
          bv_omega
        rw [store128, hhigh, hlow]
        rfl
      have hfields : c.xmmFields (i :: is) = c.xmmFields [i] ++ c.xmmFields is := by
        simp [xmmFields]
      rw [List.map_cons, run, SvmInstr.exec, if_neg (by omega), Option.bind_some, ih, hstore,
        hfields, storeAll_append]
      · rfl
      · intro j hj
        exact hal j (List.mem_cons_of_mem _ hj)

end SvmCpu

/-- Pushes leave the memory above the stack pointer and below the last of them alone. -/
theorem run_pushes_mem (c : Cpu) (rs : List Gpr) (hrs : Gpr.rsp ∉ rs) {b : BitVec 64}
    (hb : 8 * rs.length ≤ (b - (c.reg .rsp - BitVec.ofNat 64 (8 * rs.length))).toNat) :
    (c.run (rs.map .push)).mem b = c.mem b := by
  induction rs generalizing c with
  | nil => rfl
  | cons r rs ih =>
      obtain ⟨hr, hrs⟩ := not_or.mp (List.mem_cons.not.mp hrs)
      rw [List.length_cons] at hb
      have hbase : (c.push (c.reg r)).reg .rsp - BitVec.ofNat 64 (8 * rs.length)
          = c.reg .rsp - BitVec.ofNat 64 (8 * (rs.length + 1)) := by
        rw [Cpu.push_rsp, Nat.mul_add, BitVec.ofNat_add]
        bv_omega
      have hrest := ih (c.push (c.reg r)) hrs (by rw [hbase]; omega)
      have hout : ¬ (b - (c.reg .rsp - 8#64)).toNat < 8 := by bv_omega
      rw [List.map_cons, Cpu.run, Instr.exec_push, hrest, Cpu.push_mem, store, if_neg hout]

/-! ### A call of `asm_vmrun` -/

/-- The registers `asm_vmrun` saves, in the order of its pushes. -/
def savedRegs : List Gpr := [.rbp, .r15, .r14, .r13, .r12, .rbx]

/-- `&vcpu->guest_regs`. -/
def guestRegsAddr (c : SvmCpu) : BitVec 64 := c.core.reg .rdi + BitVec.ofNat 64 GUEST_REGS_OFFSET

/-- The seven words `asm_vmrun` pushes and the return address. -/
def OnStack (c : SvmCpu) (b : BitVec 64) : Prop := (b - (c.core.reg .rsp - 56#64)).toNat < 64

/-- The record `GuestRegisters` of the vCPU. -/
def InGuestRegs (c : SvmCpu) (b : BitVec 64) : Prop :=
  (b - guestRegsAddr c).toNat < SIZEOF_GUEST_REGISTERS

/-- `asm_vmrun` is called with a vCPU whose VMCB is at `vmcbPhys`. The vCPU does not reach into
the stack. -/
structure VmrunCall (c : SvmCpu) (vmcbPhys : BitVec 64) : Prop where
  aligned : (c.core.reg .rdi).toNat % 16 = 0
  vmcbPhys : load c.core.mem (c.core.reg .rdi + BitVec.ofNat 64 VMCB_PHYS_OFFSET) = vmcbPhys
  apart : 64 ≤ (c.core.reg .rdi - (c.core.reg .rsp - 56#64)).toNat ∧
    (c.core.reg .rdi - (c.core.reg .rsp - 56#64)).toNat + 272 ≤ 2 ^ 64

/-- The words on the stack at `VMRUN`, the return address last. -/
def vmrunStack (c : SvmCpu) : List (BitVec 64) :=
  guestRegsAddr c :: (savedRegs.map c.core.reg).reverse ++ [load c.core.mem (c.core.reg .rsp)]

/-- A record of words is read back. -/
theorem GuestRegisters.read_eq {m : Memory} {a : BitVec 64} {regs : GuestRegisters}
    (h : StackAt m a regs.words) : GuestRegisters.read m a = regs := by
  have hreg := fun i (hi : i < 30) => h.load (i := i) hi
  have hxmm := fun i (hi : i + 1 < 30) => h.load128 (i := i) hi
  have hfirst := hreg 0 (by decide)
  rw [show a + BitVec.ofNat 64 (8 * 0) = a by simp] at hfirst
  obtain ⟨rcx, rdx, rbx, rbp, rsi, rdi, r8, r9, r10, r11, r12, r13, r14, r15, x0, x1, x2, x3, x4,
    x5, x6, x7⟩ := regs
  rw [GuestRegisters.read, GuestRegisters.mk.injEq]
  exact ⟨hfirst, hreg 1 (by decide), hreg 2 (by decide), hreg 3 (by decide), hreg 4 (by decide),
    hreg 5 (by decide), hreg 6 (by decide), hreg 7 (by decide), hreg 8 (by decide),
    hreg 9 (by decide), hreg 10 (by decide), hreg 11 (by decide), hreg 12 (by decide),
    hreg 13 (by decide), (hxmm 14 (by decide)).trans (append_halves x0),
    (hxmm 16 (by decide)).trans (append_halves x1), (hxmm 18 (by decide)).trans (append_halves x2),
    (hxmm 20 (by decide)).trans (append_halves x3), (hxmm 22 (by decide)).trans (append_halves x4),
    (hxmm 24 (by decide)).trans (append_halves x5), (hxmm 26 (by decide)).trans (append_halves x6),
    (hxmm 28 (by decide)).trans (append_halves x7)⟩

/-- Any thirty words are those of a record. -/
theorem GuestRegisters.stackAt_read (m : Memory) (a : BitVec 64) :
    StackAt m a (GuestRegisters.read m a).words := by
  have hlow : ∀ a, (load128 m a).extractLsb' 0 64 = load m a := fun a =>
    BitVec.extractLsb'_append_eq_right
  have hhigh : ∀ a, (load128 m a).extractLsb' 64 64 = load m (a + 8#64) := fun a =>
    BitVec.extractLsb'_append_eq_left
  have hwords : (GuestRegisters.read m a).words = loads m a 30 := by
    simp [GuestRegisters.read, GuestRegisters.words, loads, hlow, hhigh, BitVec.add_assoc]
  rw [hwords]
  exact stackAt_loads m a 30

theorem GuestRegisters.words_length (regs : GuestRegisters) : regs.words.length = 30 := rfl

section Call
variable {w : World} {c : SvmCpu} {vmcbPhys : BitVec 64} {regs : GuestRegisters}

/-- The vCPU pointer is in RDI up to here, and nothing but the stack has changed. -/
theorem VmrunCall.passVcpu (h : VmrunCall c vmcbPhys) :
    ∃ core, c.run w (saveCalleeSaved ++ passVcpu) = some { c with core := core } ∧
      core.reg .rax = vmcbPhys ∧ core.reg .rbx = guestRegsAddr c ∧
      core.reg .rsp = c.core.reg .rsp - 56#64 ∧
      StackAt core.mem (c.core.reg .rsp - 56#64) (vmrunStack c) ∧
      ∀ b, ¬ OnStack c b → core.mem b = c.core.mem b := by
  have hsaved : Stacked c.core.reg (c.core.reg .rsp + 8#64) [load c.core.mem (c.core.reg .rsp)]
      c.core := by
    refine ⟨fun r _ => rfl, ?_, rfl, trivial⟩
    rw [List.length_singleton]
    bv_omega
  have hpushed := hsaved.run_pushes savedRegs (by decide) (by simp [savedRegs])
  have hmem : ∀ b, ¬ OnStack c b → (c.core.run (savedRegs.map .push)).mem b = c.core.mem b := by
    intro b hb
    refine run_pushes_mem c.core savedRegs (by decide) ?_
    have hlen : 8 * savedRegs.length = 48 := rfl
    rw [hlen]
    unfold OnStack at hb
    bv_omega
  have hrun : c.run w (saveCalleeSaved ++ YmirC.passVcpu)
      = ({ c with core := c.core.run (savedRegs.map .push) } : SvmCpu).run w YmirC.passVcpu := by
    have hsave : saveCalleeSaved = (savedRegs.map .push).map .core := rfl
    rw [SvmCpu.run_append, hsave, SvmCpu.run_core, Option.bind_some]
  have hlen : (savedRegs.map c.core.reg).reverse.length = 6 := rfl
  rw [hrun]
  generalize c.core.run (savedRegs.map .push) = saved at hpushed hmem ⊢
  obtain ⟨hreg, hrsp, hwords⟩ := hpushed
  rw [List.length_append, hlen, List.length_singleton] at hrsp
  have hrsp : saved.reg .rsp = c.core.reg .rsp - 48#64 := by bv_omega
  have hrdi := hreg .rdi (by decide)
  have hload : load saved.mem (c.core.reg .rdi + BitVec.ofNat 64 VMCB_PHYS_OFFSET) = vmcbPhys := by
    rw [← h.vmcbPhys]
    refine load_congr fun b hb => hmem b ?_
    have happart := h.apart
    unfold VMCB_PHYS_OFFSET at hb
    unfold OnStack
    bv_omega
  let base := (saved.set .rax vmcbPhys).set .rbx (guestRegsAddr c)
  have hbase : ({ c with core := saved } : SvmCpu).run w YmirC.passVcpu
      = some { c with core := base.push (base.reg .rbx) } := by
    simp only [YmirC.passVcpu, SvmCpu.run, SvmInstr.exec, SvmCpu.addr, SvmCpu.setReg,
      Option.bind_some, Instr.exec, Cpu.set_reg_of_ne _ _ (show Gpr.rdi ≠ .rax by decide), hrdi,
      hload]
    rfl
  have hself : base.reg .rbx = guestRegsAddr c := Cpu.set_reg_self _ _ _
  have hsp : (base.push (base.reg .rbx)).mem
      = store saved.mem (c.core.reg .rsp - 56#64) (base.reg .rbx) := by
    have hsub : base.reg .rsp - 8#64 = c.core.reg .rsp - 56#64 := by
      rw [Cpu.set_reg_of_ne _ _ (by decide), Cpu.set_reg_of_ne _ _ (by decide), hrsp]
      bv_omega
    rw [Cpu.push_mem, hsub]
    rfl
  refine ⟨_, hbase, ?_, ?_, ?_, ?_, ?_⟩
  · rw [Cpu.push_reg _ _ (by decide), Cpu.set_reg_of_ne _ _ (by decide), Cpu.set_reg_self]
  · rw [Cpu.push_reg _ _ (by decide), Cpu.set_reg_self]
  · rw [Cpu.push_rsp, Cpu.set_reg_of_ne _ _ (by decide), Cpu.set_reg_of_ne _ _ (by decide), hrsp]
    bv_omega
  · have hpush := hwords.push (guestRegsAddr c) (by
      rw [List.length_append, hlen, List.length_singleton]; decide)
    have hsub : saved.reg .rsp - 8#64 = c.core.reg .rsp - 56#64 := by
      rw [hrsp]
      bv_omega
    rw [hsub] at hpush
    rw [hsp, hself]
    exact hpush
  · intro b hb
    rw [hsp, hself, store, if_neg (by unfold OnStack at hb; omega), hmem b hb]

/-- What `restoreGuestRegs` makes of the registers. -/
theorem restoreGuestRegs_spec {core : Cpu} (hal : (core.reg .rbx).toNat % 16 = 0) :
    ∃ c', ({ c with core := core } : SvmCpu).run w restoreGuestRegs = some c' ∧
      c'.guestRegs = GuestRegisters.read core.mem (core.reg .rbx) ∧ c'.core.mem = core.mem ∧
      c'.core.reg .rax = core.reg .rax ∧ c'.core.reg .rsp = core.reg .rsp ∧
      c'.svmRax = c.svmRax := by
  have hsplit : restoreGuestRegs
      = (((Gpr.rcx :: .rdx :: switchedRegs)).map fun r => .load (guestRegOffset r) .rbx r)
        ++ (List.finRange 8).map (fun i => .loadXmm (guestXmmOffset i) .rbx i)
        ++ [.load (guestRegOffset .rbx) .rbx .rbx] := rfl
  have hloads := SvmCpu.run_loads (w := w) { c with core := core } (.rcx :: .rdx :: switchedRegs)
    (by decide)
  obtain ⟨xmm, hxmms, hin, -⟩ := SvmCpu.run_loadXmms (w := w)
    (SvmCpu.setRegs { c with core := core } fun r =>
      if r ∈ (Gpr.rcx :: .rdx :: switchedRegs) then
        load core.mem (SvmCpu.addr { c with core := core } (guestRegOffset r) .rbx)
      else core.reg r) (List.finRange 8) (by
        intro i _
        show (core.reg .rbx + BitVec.ofNat 64 (guestXmmOffset i)).toNat % 16 = 0
        unfold guestXmmOffset
        bv_omega)
  rw [hsplit, SvmCpu.run_append, SvmCpu.run_append, hloads, Option.bind_some, hxmms,
    Option.bind_some]
  refine ⟨_, rfl, ?_, rfl, rfl, rfl, rfl⟩
  have hfirst : load core.mem (core.reg .rbx + BitVec.ofNat 64 (guestRegOffset .rcx))
      = load core.mem (core.reg .rbx) :=
    congrArg (load core.mem) (BitVec.add_zero _)
  have hxmm := fun i => hin i (List.mem_finRange i)
  rw [SvmCpu.guestRegs, GuestRegisters.read, GuestRegisters.mk.injEq]
  exact ⟨hfirst, rfl, rfl, rfl, rfl, rfl, rfl, rfl, rfl, rfl, rfl, rfl, rfl, rfl, hxmm 0, hxmm 1,
    hxmm 2, hxmm 3, hxmm 4, hxmm 5, hxmm 6, hxmm 7⟩

/-- The fields of the record that `saveGuestRegs` writes, in its order. -/
def savedFields (c : SvmCpu) : List (Nat × BitVec 64) :=
  c.regFields (.rcx :: .rdx :: .rbx :: switchedRegs) ++ c.xmmFields (List.finRange 8)

theorem savedFields_indices (c : SvmCpu) : (savedFields c).map Prod.fst
    = [0, 1, 2, 4, 5, 3, 6, 7, 8, 9, 10, 11, 12, 13, 14, 15, 16, 17, 18, 19, 20, 21, 22, 23, 24,
      25, 26, 27, 28, 29] := rfl

theorem savedFields_lt (c : SvmCpu) : ∀ x ∈ savedFields c, x.1 < 30 := by
  intro x hx
  have hlt : ∀ k ∈ [0, 1, 2, 4, 5, 3, 6, 7, 8, 9, 10, 11, 12, 13, 14, 15, 16, 17, 18, 19, 20, 21,
      22, 23, 24, 25, 26, 27, 28, 29], k < 30 := by decide
  refine hlt x.1 ?_
  rw [← savedFields_indices c]
  exact List.mem_map_of_mem hx

/-- `saveGuestRegs` writes every field. -/
theorem stackAt_savedFields (c : SvmCpu) (m : Memory) (a : BitVec 64) :
    StackAt (storeAll m a (savedFields c)) a c.guestRegs.words := by
  have hreg : ∀ r ∈ guestRegFields,
      c.guestRegs.words[guestRegFields.idxOf r]? = some (c.core.reg r) := by
    intro r hr
    cases r <;> first | rfl | exact absurd hr (by decide)
  have hxmm : ∀ i : Fin 8,
      c.guestRegs.words[14 + 2 * i.val]? = some ((c.xmm i).extractLsb' 0 64) ∧
      c.guestRegs.words[15 + 2 * i.val]? = some ((c.xmm i).extractLsb' 64 64) := by
    intro i
    match i with
    | 0 | 1 | 2 | 3 | 4 | 5 | 6 | 7 => exact ⟨rfl, rfl⟩
  refine stackAt_storeAll m a _ ?_ ?_ ?_
  · intro x hx
    obtain hx | hx := List.mem_append.mp hx
    · obtain ⟨r, hr, rfl⟩ := List.mem_map.mp hx
      have hperm : ∀ r ∈ (.rcx :: .rdx :: .rbx :: switchedRegs : List Gpr), r ∈ guestRegFields := by
        decide
      exact hreg r (hperm r hr)
    · obtain ⟨i, -, hi⟩ := List.mem_flatMap.mp hx
      obtain rfl | hi := List.mem_cons.mp hi
      · exact (hxmm i).1
      · rw [List.mem_singleton.mp hi]
        exact (hxmm i).2
  · rw [savedFields_indices, GuestRegisters.words_length]
    decide
  · rw [GuestRegisters.words_length]
    decide

/-- `saveGuestRegs` as one write to memory. -/
theorem saveGuestRegs_run {a : BitVec 64} (hal : a.toNat % 16 = 0)
    (htop : load c.core.mem (c.core.reg .rsp) = a) :
    c.run w saveGuestRegs = some (({ c with core := (Instr.pop .rax).exec c.core } : SvmCpu).setMem
      (storeAll c.core.mem a (savedFields c))) := by
  have hsplit : saveGuestRegs = .core (.pop .rax)
      :: ((Gpr.rcx :: .rdx :: .rbx :: switchedRegs).map fun r => .store r (guestRegOffset r) .rax)
        ++ (List.finRange 8).map fun i => .storeXmm i (guestXmmOffset i) .rax := rfl
  have hpop : ∀ is, c.run w (.core (.pop .rax) :: is)
      = ({ c with core := (Instr.pop .rax).exec c.core } : SvmCpu).run w is := fun _ => rfl
  have hrax : ((Instr.pop .rax).exec c.core).reg .rax = a := by
    rw [Instr.exec_pop_reg_self, htop]
  have hregs : SvmCpu.regFields { c with core := (Instr.pop .rax).exec c.core }
      (.rcx :: .rdx :: .rbx :: switchedRegs) = c.regFields (.rcx :: .rdx :: .rbx :: switchedRegs) :=
    rfl
  have hxmm : SvmCpu.xmmFields { c with core := (Instr.pop .rax).exec c.core } = c.xmmFields := rfl
  have hmem : ((Instr.pop .rax).exec c.core).mem = c.core.mem := rfl
  rw [hsplit, List.cons_append, hpop, savedFields, storeAll_append, ← hregs, ← hxmm, ← hmem]
  generalize (Instr.pop .rax).exec c.core = core at hrax ⊢
  rw [SvmCpu.run_append, SvmCpu.run_stores, Option.bind_some, SvmCpu.run_storeXmms]
  · simp only [SvmCpu.setMem_setMem, SvmCpu.setMem_mem, SvmCpu.setMem_reg,
      SvmCpu.xmmFields_setMem, hrax]
  · intro i _
    rw [SvmCpu.addr, SvmCpu.setMem_reg, hrax]
    unfold guestXmmOffset
    bv_omega

/-- What `saveGuestRegs` writes, and that it writes nothing else. -/
theorem saveGuestRegs_spec {a : BitVec 64} (hal : a.toNat % 16 = 0)
    (htop : load c.core.mem (c.core.reg .rsp) = a) :
    ∃ c', c.run w saveGuestRegs = some c' ∧ StackAt c'.core.mem a c.guestRegs.words ∧
      (∀ b, SIZEOF_GUEST_REGISTERS ≤ (b - a).toNat → c'.core.mem b = c.core.mem b) ∧
      c'.core.reg .rsp = c.core.reg .rsp + 8#64 ∧ c'.svmRax = c.svmRax := by
  have hall := stackAt_savedFields c c.core.mem a
  have hframe : ∀ b, SIZEOF_GUEST_REGISTERS ≤ (b - a).toNat →
      storeAll c.core.mem a (savedFields c) b = c.core.mem b :=
    fun b hb => storeAll_apply _ _ (savedFields_lt c) hb
  have hrsp := Instr.exec_pop_rsp c.core (show Gpr.rax ≠ .rsp by decide)
  have hrun := saveGuestRegs_run (w := w) hal htop
  generalize storeAll c.core.mem a (savedFields c) = m at hall hframe hrun
  exact ⟨_, hrun, hall, hframe, hrsp, rfl⟩

/-- What `restoreCalleeSaved` takes from the stack. -/
theorem restoreCalleeSaved_spec {saved : Gpr → BitVec 64} {ret : BitVec 64}
    (h : StackAt c.core.mem (c.core.reg .rsp) ((savedRegs.map saved).reverse ++ [ret])) :
    ∃ c', c.run w restoreCalleeSaved = some c' ∧ (∀ r ∈ savedRegs, c'.core.reg r = saved r) ∧
      c'.core.reg .rsp = c.core.reg .rsp + 56#64 ∧ c'.rip = ret ∧ c'.core.mem = c.core.mem ∧
      c'.svmRax = c.svmRax := by
  have hsplit : restoreCalleeSaved = (savedRegs.reverse.map .pop).map .core ++ [.ret] := rfl
  rw [← List.map_reverse, stackAt_append] at h
  obtain ⟨hmem, hrsp, hregs⟩ := run_pops savedRegs.reverse (by decide) saved h.1
  have hlast := h.2.1
  have hlen : savedRegs.reverse.length = 6 := rfl
  rw [List.length_map] at hlast
  rw [← hrsp, ← hmem] at hlast
  rw [hlen] at hrsp
  rw [hsplit, SvmCpu.run_append, SvmCpu.run_core, Option.bind_some]
  generalize c.core.run (savedRegs.reverse.map .pop) = core at hmem hrsp hregs hlast ⊢
  refine ⟨_, rfl, ?_, ?_, hlast, hmem, rfl⟩
  · intro r hr
    have hne : r ≠ .rsp := by
      rintro rfl
      exact absurd hr (by decide)
    show (core.set .rsp _).reg r = saved r
    rw [Cpu.set_reg_of_ne _ _ hne, hregs r hne, if_pos (List.mem_reverse.mpr hr)]
  · show (core.set .rsp (core.reg .rsp + 8#64)).reg .rsp = _
    rw [Cpu.set_reg_self, hrsp]
    bv_omega

/-- The guest and `VMSAVE` leave bytes of the host alone. -/
structure World.Keeps (w : World) (vmcbPhys : BitVec 64) (kept : BitVec 64 → Prop) : Prop where
  guest : ∀ c b, c.core.reg .rax = vmcbPhys → kept b → (w.guest c).core.mem b = c.core.mem b
  vmsave : ∀ m b, kept b → w.vmsave vmcbPhys m b = m b

/-- What `switchWorld` leaves to the host. -/
structure Switched (w : World) (vmcbPhys : BitVec 64) (c left : SvmCpu) : Prop where
  rsp : left.core.reg .rsp = c.core.reg .rsp
  mem : left.core.mem = w.vmsave vmcbPhys (w.guest c.noteRax.noteRax).core.mem
  guestRegs : left.guestRegs = (w.guest c.noteRax.noteRax).guestRegs
  svmRax : left.svmRax = [vmcbPhys, vmcbPhys, vmcbPhys] ++ c.svmRax

theorem switchWorld_spec (hrax : c.core.reg .rax = vmcbPhys) :
    ∃ left, c.run w switchWorld = some left ∧ Switched w vmcbPhys c left := by
  subst hrax
  exact ⟨_, rfl, rfl, rfl, rfl, rfl⟩

/-- What `asm_vmrun` does between its call in `c` and its return in `ret`. The guest is entered in
`entry`. -/
structure VmrunReturn (w : World) (vmcbPhys : BitVec 64) (c entry ret : SvmCpu) : Prop where
  enters : c.run w toVmrun = some entry
  entryRegs : entry.guestRegs = GuestRegisters.read c.core.mem (guestRegsAddr c)
  entryRax : entry.core.reg .rax = vmcbPhys
  entryMem : ∀ b, ¬ OnStack c b → entry.core.mem b = c.core.mem b
  svmRax : ret.svmRax = [vmcbPhys, vmcbPhys, vmcbPhys] ++ c.svmRax
  saved : ∀ r ∈ savedRegs, ret.core.reg r = c.core.reg r
  rsp : ret.core.reg .rsp = c.core.reg .rsp + 8#64
  rip : ret.rip = load c.core.mem (c.core.reg .rsp)
  guestRegs : GuestRegisters.read ret.core.mem (guestRegsAddr c)
    = (w.guest entry.noteRax).guestRegs
  mem : ∀ b, ¬ InGuestRegs c b →
    ret.core.mem b = w.vmsave vmcbPhys (w.guest entry.noteRax).core.mem b

/-- `asm_vmrun` enters the guest with its registers and returns to the host with its own. -/
theorem VmrunCall.returns (h : VmrunCall c vmcbPhys) (hkeeps : w.Keeps vmcbPhys (OnStack c)) :
    ∃ entry ret, c.run w asmVmrun = some ret ∧ VmrunReturn w vmcbPhys c entry ret := by
  obtain ⟨core, hpass, hrax, hrbx, hrsp, hstack, hmem⟩ := h.passVcpu (w := w)
  have hread : GuestRegisters.read core.mem (core.reg .rbx)
      = GuestRegisters.read c.core.mem (guestRegsAddr c) := by
    rw [hrbx]
    refine GuestRegisters.read_eq ((GuestRegisters.stackAt_read _ _).congr fun b hb => hmem b ?_)
    have happart := h.apart
    rw [GuestRegisters.words_length] at hb
    unfold guestRegsAddr GUEST_REGS_OFFSET at hb
    unfold OnStack
    bv_omega
  have hal : (core.reg .rbx).toNat % 16 = 0 := by
    have haligned := h.aligned
    rw [hrbx, guestRegsAddr, GUEST_REGS_OFFSET]
    bv_omega
  obtain ⟨c1, hrestore, hregs1, hmem1, hrax1, hrsp1, hsvm1⟩ :=
    restoreGuestRegs_spec (w := w) (c := c) hal
  rw [hread] at hregs1
  have henter : c.run w toVmrun = some c1.noteRax := by
    rw [toVmrun, SvmCpu.run_append, SvmCpu.run_append, hpass, Option.bind_some, hrestore]
    rfl
  have hrax1 : c1.core.reg .rax = vmcbPhys := hrax1.trans hrax
  obtain ⟨left, hswitch, hleft⟩ := switchWorld_spec (w := w) hrax1
  have hstackLeft : StackAt left.core.mem (left.core.reg .rsp) (vmrunStack c) := by
    rw [hleft.rsp, hrsp1, hrsp]
    refine hstack.congr fun b hb => ?_
    have hon : OnStack c b := hb
    rw [hleft.mem, hkeeps.vmsave _ _ hon]
    exact (hkeeps.guest c1.noteRax.noteRax b hrax1 hon).trans (congrFun hmem1 b)
  rw [hrbx] at hal
  obtain ⟨c2, hsave, hrecord, hframe, hrsp2, hsvm2⟩ :=
    saveGuestRegs_spec (w := w) hal hstackLeft.1
  have hstack2 : StackAt c2.core.mem (c2.core.reg .rsp)
      ((savedRegs.map c.core.reg).reverse ++ [load c.core.mem (c.core.reg .rsp)]) := by
    have hrest : StackAt left.core.mem (left.core.reg .rsp + 8#64)
      ((savedRegs.map c.core.reg).reverse ++ [load c.core.mem (c.core.reg .rsp)]) :=
      hstackLeft.2
    rw [hrsp2]
    refine hrest.congr fun b hb => hframe b ?_
    have happart := h.apart
    have hlen : ((savedRegs.map c.core.reg).reverse
      ++ [load c.core.mem (c.core.reg .rsp)]).length = 7 := rfl
    rw [hlen, hleft.rsp, hrsp1, hrsp] at hb
    unfold SIZEOF_GUEST_REGISTERS guestRegsAddr GUEST_REGS_OFFSET
    bv_omega
  obtain ⟨ret, hret, hsaved, hrspRet, hrip, hmemRet, hsvmRet⟩ :=
    restoreCalleeSaved_spec (w := w) hstack2
  refine ⟨c1.noteRax, ret, ?_, henter, hregs1, hrax1, fun b hb => ?_, ?_, hsaved, ?_, hrip, ?_,
    fun b hb => ?_⟩
  · rw [asmVmrun, SvmCpu.run_append, SvmCpu.run_append, SvmCpu.run_append, SvmCpu.run_append,
      hpass, Option.bind_some, hrestore, Option.bind_some, hswitch, Option.bind_some, hsave,
      Option.bind_some, hret]
  · exact (congrFun hmem1 b).trans (hmem b hb)
  · rw [hsvmRet, hsvm2, hleft.svmRax, hsvm1]
  · rw [hrspRet, hrsp2, hleft.rsp, hrsp1, hrsp]
    bv_omega
  · rw [hmemRet, GuestRegisters.read_eq hrecord, hleft.guestRegs]
  · rw [hmemRet, hframe b (Nat.le_of_not_lt hb), hleft.mem]

/-- As a C function, with what the guest is given and what it leaves in `guest_regs`. -/
theorem asmVmrun_spec {kept : BitVec 64 → Prop} (h : VmrunCall c vmcbPhys)
    (hkeeps : w.Keeps vmcbPhys fun b => OnStack c b ∨ kept b) :
    ∃ entry ret, c.run w toVmrun = some entry ∧ c.run w asmVmrun = some ret ∧
      (entry.guestRegs = GuestRegisters.read c.core.mem (guestRegsAddr c) ∧
        entry.core.reg .rax = vmcbPhys ∧
        ret.svmRax = [vmcbPhys, vmcbPhys, vmcbPhys] ++ c.svmRax) ∧
      GuestRegisters.read ret.core.mem (guestRegsAddr c) = (w.guest entry.noteRax).guestRegs ∧
      ((∀ r ∈ savedRegs, ret.core.reg r = c.core.reg r) ∧
        ret.core.reg .rsp = c.core.reg .rsp + 8#64 ∧
        ret.rip = load c.core.mem (c.core.reg .rsp)) ∧
      ∀ b, kept b → ¬ OnStack c b → ¬ InGuestRegs c b → ret.core.mem b = c.core.mem b := by
  obtain ⟨entry, ret, hrun, hret⟩ := h.returns
    ⟨fun c b hc hb => hkeeps.guest c b hc (Or.inl hb), fun m b hb => hkeeps.vmsave m b (Or.inl hb)⟩
  refine ⟨entry, ret, hret.enters, hrun, ⟨hret.entryRegs, hret.entryRax, hret.svmRax⟩,
    hret.guestRegs, ⟨hret.saved, hret.rsp, hret.rip⟩, fun b hb hstack hrecord => ?_⟩
  rw [hret.mem b hrecord, hkeeps.vmsave _ b (Or.inr hb),
    hkeeps.guest entry.noteRax b hret.entryRax (Or.inr hb)]
  exact hret.entryMem b hstack

/-- A host with a vCPU at 0x1000 and its stack at 0x2000. -/
def hostWithVcpu : SvmCpu where
  core :=
    { reg := fun r => match r with
        | .rdi | .rbx => 0x1000#64
        | .rsp => 0x2000#64
        | _ => 0#64
      mem := store (fun _ => 0#8) 0x1018#64 0x5000#64
      interruptFlag := false }
  xmm := fun _ => 0#128
  rip := 0#64
  svmRax := []

/-- A guest that loads RCX and RBX. -/
def twoRegisters : World where
  guest := fun c => (c.setReg .rcx 7#64).setReg .rbx 9#64
  vmsave := fun _ m => m

theorem twoRegisters_keeps (vmcbPhys : BitVec 64) (kept : BitVec 64 → Prop) :
    twoRegisters.Keeps vmcbPhys kept := ⟨fun _ _ _ _ => rfl, fun _ _ _ => rfl⟩

theorem asmVmrun_spec_hostWithVcpu : ∃ ret, hostWithVcpu.run twoRegisters asmVmrun = some ret ∧
    ret.core.reg .rbx = 0x1000#64 ∧ (GuestRegisters.read ret.core.mem 0x1020#64).rbx = 9#64 := by
  have hcall : VmrunCall hostWithVcpu 0x5000#64 := ⟨by decide, load_store _ _ _, by decide⟩
  have hkeeps : twoRegisters.Keeps 0x5000#64 fun b => OnStack hostWithVcpu b ∨ True :=
    twoRegisters_keeps _ _
  obtain ⟨entry, ret, -, hrun, -, hregs, hhost, -⟩ := asmVmrun_spec hcall hkeeps
  refine ⟨ret, hrun, hhost.1 .rbx (by decide), ?_⟩
  have haddr : guestRegsAddr hostWithVcpu = 0x1020#64 := by decide
  rw [← haddr, hregs]
  rfl

end Call

/-! ### The loop

`r` is the register in which the compiler keeps the vCPU pointer `p`. The statement lists the
caller-saved registers as clobbered, so it is one of `savedRegs`, and it comes back. -/

/-- The head of the loop. -/
structure AtLoopHead (r : Gpr) (p sp vmcbPhys : BitVec 64) (c : SvmCpu) : Prop where
  pointer : c.core.reg r = p
  rsp : c.core.reg .rsp = sp
  vmcbPhys : load c.core.mem (p + BitVec.ofNat 64 VMCB_PHYS_OFFSET) = vmcbPhys

/-- `handle_exit` follows the calling convention, writes no other address to `vcpu->vmcb_phys` and
has none of the instructions `svmRax` is about. -/
structure KeepsCaller (handleExit : SvmCpu → Option SvmCpu) (p : BitVec 64) : Prop where
  saved : ∀ c c', handleExit c = some c' → ∀ r ∈ savedRegs, c'.core.reg r = c.core.reg r
  rsp : ∀ c c', handleExit c = some c' → c'.core.reg .rsp = c.core.reg .rsp
  vmcbPhys : ∀ c c', handleExit c = some c' →
    load c'.core.mem (p + BitVec.ofNat 64 VMCB_PHYS_OFFSET)
      = load c.core.mem (p + BitVec.ofNat 64 VMCB_PHYS_OFFSET)
  svmRax : ∀ c c', handleExit c = some c' → c'.svmRax = c.svmRax

/-- The bytes of the host that a round needs: the words below the stack pointer of the loop and
`vcpu->vmcb_phys`. -/
def LoopBytes (p sp b : BitVec 64) : Prop :=
  (b - (sp - 64#64)).toNat < 64 ∨ (b - (p + BitVec.ofNat 64 VMCB_PHYS_OFFSET)).toNat < 8

section Loop
variable {w : World} {handleExit : SvmCpu → Option SvmCpu} {r : Gpr}
  {returnAddress p sp vmcbPhys : BitVec 64} {c : SvmCpu}

/-- What the call of `asm_vmrun` does in a round that starts in `c`. -/
structure RoundCall (w : World) (r : Gpr) (returnAddress p vmcbPhys : BitVec 64)
    (c entry left : SvmCpu) : Prop where
  enters : (passVcpuPointer r returnAddress c).run w toVmrun = some entry
  entryRegs : entry.guestRegs
    = GuestRegisters.read c.core.mem (p + BitVec.ofNat 64 GUEST_REGS_OFFSET)
  returns : callAsmVmrun w r returnAddress c = some left
  rip : left.rip = returnAddress
  saved : ∀ r ∈ savedRegs, left.core.reg r = c.core.reg r
  rsp : left.core.reg .rsp = c.core.reg .rsp
  vmcbField : load left.core.mem (p + BitVec.ofNat 64 VMCB_PHYS_OFFSET) = vmcbPhys
  svmRax : left.svmRax = [vmcbPhys, vmcbPhys, vmcbPhys] ++ c.svmRax
  leftRegs : GuestRegisters.read left.core.mem (p + BitVec.ofNat 64 GUEST_REGS_OFFSET)
    = (w.guest entry.noteRax).guestRegs

theorem AtLoopHead.roundCall (h : AtLoopHead r p sp vmcbPhys c) (hr : r ∈ savedRegs)
    (hal : p.toNat % 16 = 0) (hapart : 64 ≤ (p - (sp - 64#64)).toNat ∧
      (p - (sp - 64#64)).toNat + 272 ≤ 2 ^ 64) (hkeeps : w.Keeps vmcbPhys (LoopBytes p sp)) :
    ∃ entry left, RoundCall w r returnAddress p vmcbPhys c entry left := by
  have hr' : r ≠ .rsp := by
    rintro rfl
    exact absurd hr (by decide)
  let called := passVcpuPointer r returnAddress c
  have hrdi : called.core.reg .rdi = p := by
    show ((c.core.set .rdi (c.core.reg r)).push returnAddress).reg .rdi = p
    rw [Cpu.push_reg _ _ (by decide), Cpu.set_reg_self, h.pointer]
  have hrsp : called.core.reg .rsp = sp - 8#64 := by
    show ((c.core.set .rdi (c.core.reg r)).push returnAddress).reg .rsp = _
    rw [Cpu.push_rsp, Cpu.set_reg_of_ne _ _ (by decide), h.rsp]
  have hmem : called.core.mem = store c.core.mem (sp - 8#64) returnAddress := by
    show store c.core.mem ((c.core.set .rdi (c.core.reg r)).reg .rsp - 8#64) returnAddress = _
    rw [Cpu.set_reg_of_ne _ _ (by decide), h.rsp]
  have hsub : called.core.reg .rsp - 56#64 = sp - 64#64 := by
    rw [hrsp]
    bv_omega
  have haddr : guestRegsAddr called = p + BitVec.ofNat 64 GUEST_REGS_OFFSET := by
    rw [guestRegsAddr, hrdi]
  -- the return address is not in the vCPU
  have hout : ∀ b, (b - p).toNat < 272 → called.core.mem b = c.core.mem b := by
    intro b hb
    have hb' : ¬ (b - (sp - 8#64)).toNat < 8 := by bv_omega
    rw [hmem, store, if_neg hb']
  have hcall : VmrunCall called vmcbPhys := by
    refine ⟨?_, ?_, ?_⟩
    · rw [hrdi]
      exact hal
    · rw [hrdi, ← h.vmcbPhys]
      refine load_congr fun b hb => hout b ?_
      unfold VMCB_PHYS_OFFSET at hb
      bv_omega
    · rw [hrdi, hsub]
      exact hapart
  have hon : ∀ b, OnStack called b → LoopBytes p sp b := by
    intro b hb
    unfold OnStack at hb
    rw [hsub] at hb
    exact Or.inl hb
  obtain ⟨entry, left, hrun, hret⟩ := hcall.returns
    ⟨fun c b hc hb => hkeeps.guest c b hc (hon b hb), fun m b hb => hkeeps.vmsave m b (hon b hb)⟩
  have hregs := hret.entryRegs
  have hleft := hret.guestRegs
  rw [haddr] at hregs hleft
  refine ⟨entry, left, hret.enters, hregs.trans ?_, hrun, hret.rip.trans ?_, ?_, ?_, ?_, ?_,
    hleft⟩
  · refine GuestRegisters.read_eq ((GuestRegisters.stackAt_read c.core.mem _).congr ?_)
    intro b hb
    refine hout b ?_
    rw [GuestRegisters.words_length] at hb
    unfold GUEST_REGS_OFFSET at hb
    bv_omega
  · rw [hmem, hrsp, load_store]
  · intro r' hr''
    have hne : r' ≠ .rsp ∧ r' ≠ .rdi := by
      constructor <;> rintro rfl <;> exact absurd hr'' (by decide)
    rw [hret.saved r' hr'']
    show ((c.core.set .rdi (c.core.reg r)).push returnAddress).reg r' = _
    rw [Cpu.push_reg _ _ hne.1, Cpu.set_reg_of_ne _ _ hne.2]
  · rw [hret.rsp, hrsp, h.rsp, BitVec.sub_add_cancel]
  · rw [← h.vmcbPhys]
    refine load_congr fun b hb => ?_
    have hrecord : ¬ InGuestRegs called b := by
      rw [InGuestRegs, haddr]
      unfold VMCB_PHYS_OFFSET at hb
      unfold GUEST_REGS_OFFSET SIZEOF_GUEST_REGISTERS
      bv_omega
    have hstack : ¬ OnStack called b := by
      rw [OnStack, hsub]
      unfold VMCB_PHYS_OFFSET at hb
      bv_omega
    rw [hret.mem b hrecord, hkeeps.vmsave _ b (Or.inr hb),
      hkeeps.guest entry.noteRax b hret.entryRax (Or.inr hb)]
    refine (hret.entryMem b hstack).trans (hout b ?_)
    unfold VMCB_PHYS_OFFSET at hb
    bv_omega
  · exact hret.svmRax

/-- One round. -/
theorem RoundCall.atLoopHead {entry left c' : SvmCpu}
    (hcall : RoundCall w r returnAddress p vmcbPhys c entry left)
    (h : AtLoopHead r p sp vmcbPhys c) (hr : r ∈ savedRegs) (hexit : KeepsCaller handleExit p)
    (hc' : handleExit left = some c') : AtLoopHead r p sp vmcbPhys c' := by
  refine ⟨?_, ?_, ?_⟩
  · rw [hexit.saved left c' hc' r hr, hcall.saved r hr, h.pointer]
  · rw [hexit.rsp left c' hc', hcall.rsp, h.rsp]
  · rw [hexit.vmcbPhys left c' hc', hcall.vmcbField]

/-- The loop enters the guest with the registers the last `handle_exit` left in `guest_regs`, and
calls `handle_exit` with those the guest left, in every round. -/
theorem vcpuLoop_spec (hr : r ∈ savedRegs) (hal : p.toNat % 16 = 0)
    (hapart : 64 ≤ (p - (sp - 64#64)).toNat ∧ (p - (sp - 64#64)).toNat + 272 ≤ 2 ^ 64)
    (hkeeps : w.Keeps vmcbPhys (LoopBytes p sp)) (hexit : KeepsCaller handleExit p)
    (h : AtLoopHead r p sp vmcbPhys c) (n : Nat) {head : SvmCpu}
    (hrun : vcpuLoop w handleExit r returnAddress n c = some head) :
    AtLoopHead r p sp vmcbPhys head ∧ (∀ r ∈ savedRegs, head.core.reg r = c.core.reg r) ∧
      head.svmRax = List.replicate (3 * n) vmcbPhys ++ c.svmRax ∧
      ∃ entry left, RoundCall w r returnAddress p vmcbPhys head entry left := by
  have hround : ∀ head, AtLoopHead r p sp vmcbPhys head →
      ∃ entry left, RoundCall w r returnAddress p vmcbPhys head entry left :=
    fun head hhead => hhead.roundCall hr hal hapart hkeeps
  induction n generalizing head with
  | zero =>
      obtain rfl := Option.some.inj hrun
      exact ⟨h, fun _ _ => rfl, rfl, hround c h⟩
  | succ n ih =>
      obtain ⟨last, hlast, hcall⟩ := Option.bind_eq_some_iff.mp hrun
      obtain ⟨hhead, hsaved, hrax, entry, left, hround'⟩ := ih hlast
      rw [hround'.returns, Option.bind_some] at hcall
      have hnext := hround'.atLoopHead hhead hr hexit hcall
      refine ⟨hnext, fun r' hr' => ?_, ?_, hround head hnext⟩
      · rw [hexit.saved left head hcall r' hr', hround'.saved r' hr', hsaved r' hr']
      · rw [hexit.svmRax left head hcall, hround'.svmRax, hrax, ← List.append_assoc]
        congr 1

/-- Two rounds with a `handle_exit` that does nothing. -/
theorem vcpuLoop_spec_hostWithVcpu : ∃ head,
    vcpuLoop twoRegisters some .rbx 0x3000#64 2 hostWithVcpu = some head ∧
      head.svmRax = List.replicate 6 0x5000#64 ∧ head.core.reg .rsp = 0x2000#64 := by
  have hexit : KeepsCaller some 0x1000#64 := by
    refine ⟨?_, ?_, ?_, ?_⟩ <;> rintro c _ ⟨⟩ <;> intros <;> rfl
  have hkeeps : twoRegisters.Keeps 0x5000#64 (LoopBytes 0x1000#64 0x2000#64) :=
    twoRegisters_keeps _ _
  have hstart : AtLoopHead .rbx 0x1000#64 0x2000#64 0x5000#64 hostWithVcpu :=
    ⟨rfl, rfl, load_store _ _ _⟩
  have hspec := fun n head (hrun : vcpuLoop twoRegisters some .rbx 0x3000#64 n hostWithVcpu
      = some head) =>
    vcpuLoop_spec (by decide) (by decide) (by decide) hkeeps hexit hstart n hrun
  have hnext : ∀ n head left, vcpuLoop twoRegisters some .rbx 0x3000#64 n hostWithVcpu = some head →
      callAsmVmrun twoRegisters .rbx 0x3000#64 head = some left →
      vcpuLoop twoRegisters some .rbx 0x3000#64 (n + 1) hostWithVcpu = some left := by
    intro n head left hhead hleft
    rw [vcpuLoop, hhead, Option.bind_some, hleft, Option.bind_some]
  obtain ⟨-, -, -, entry, left, hleft⟩ := hspec 0 hostWithVcpu rfl
  have hone := hnext 0 _ _ rfl hleft.returns
  obtain ⟨-, -, -, entry', left', hleft'⟩ := hspec 1 left hone
  have htwo := hnext 1 _ _ hone hleft'.returns
  obtain ⟨hhead, -, hrax, -⟩ := hspec 2 left' htwo
  exact ⟨left', htwo, hrax, hhead.rsp⟩

end Loop

end YmirC
