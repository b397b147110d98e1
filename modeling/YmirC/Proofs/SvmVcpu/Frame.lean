import Mathlib.Order.Bounds.Basic
import YmirC.Proofs.SvmVcpu.Delivery
import YmirC.Proofs.SvmVcpu.Programmed

/-!
# `YmirC.Proofs.SvmVcpu.Frame`: what an exit changes, and what it leaves alone

`inject_ext_intr` first, since two of the exits end in it. `CanDeliver v i` is everything a line
has to pass before it may be delivered, and `injectExtIntr_exact` says that the loop takes the
least such line and what it writes for it.

Then `handle_exit` as a whole. `ExitFrame v v'` lists what an exit that took `v` to `v'` may have
touched, by the intercepted instruction. `handleExit_ok` (`Handlers.lean`) gives one case per exit
code and the handlers' own lemmas what each of them wrote, so that `handleExit_frame` only has to
compare the two.
-/

set_option autoImplicit false

namespace YmirC

/-! ### `inject_ext_intr` -/

namespace SvmVcpu

/-- Line `i` may be delivered: it is pending, the guest accepts interrupts, the primary PIC is
programmed, the line is not masked in its own PIC, and a line of the secondary is not cut off at
the cascade input. -/
structure CanDeliver (v : SvmVcpu) (i : Nat) : Prop where
  pending : v.pendingIrq.getLsbD i = true
  accepts : v.vmcb.rflags.getLsbD 9 = true
  inited : v.guestIoioState.primaryPhase = .inited
  unmasked : (if i < 8 then v.guestIoioState.primaryMask
    else v.guestIoioState.secondaryMask).getLsbD (i % 8) = false
  cascade : 8 ≤ i → v.guestIoioState.primaryMask.getLsbD 2 = false

/-- `v'` is `v` with line `i` in the `V_IRQ` slot, and nothing else changed. -/
structure Injects (v : SvmVcpu) (i : Nat) (v' : SvmVcpu) : Prop where
  vIrq : v'.vmcb.vIrq = true
  vector : v'.vmcb.vIntrVector.toNat
    = ((if i < 8 then v.guestIoioState.primaryBase
        else v.guestIoioState.secondaryBase).toNat + i % 8) % 256
  last : v'.lastInjectedIrq.toNat = i
  pending : ∀ j, v'.pendingIrq.getLsbD j = true ↔ v.pendingIrq.getLsbD j = true ∧ j ≠ i
  rest : v' = { v with
    vmcb := { v.vmcb with vIrq := v'.vmcb.vIrq, vIntrVector := v'.vmcb.vIntrVector }
    pendingIrq := v'.pendingIrq
    lastInjectedIrq := v'.lastInjectedIrq }

theorem delta_eq {i : Nat} (hi : i < 16) : delta i = i % 8 := by
  have hmod : ∀ j < 16, delta j = j % 8 := by decide
  exact hmod i hi

/-- The test of the loop reads the line's bit in the mask of its own PIC. -/
theorem isMasked_eq (g : SvmIoioGuestState) {i : Nat} (hi : i < 16) :
    isMasked g i = (if i < 8 then g.primaryMask else g.secondaryMask).getLsbD (i % 8) := by
  simp only [isMasked, isset8_eq, delta_eq hi, isPrimary, decide_eq_true_eq]
  split
  · rfl
  · rfl

theorem canDeliver_iff (v : SvmVcpu) (i : Nat) :
    v.CanDeliver i ↔
      v.ief = true ∧ v.guestIoioState.primaryPhase = .inited ∧ v.Deliverable i := by
  constructor
  · intro h
    have hi : i < 16 := BitVec.lt_of_getLsbD h.pending
    exact ⟨h.accepts, h.inited, h.pending, (isMasked_eq _ hi).trans h.unmasked, h.cascade⟩
  · rintro ⟨hief, hphase, hpend, hmask, hcascade⟩
    have hi : i < 16 := BitVec.lt_of_getLsbD hpend
    exact ⟨hpend, hief, hphase, (isMasked_eq _ hi).symm.trans hmask, hcascade⟩

theorem injects_inject (v : SvmVcpu) {i : Nat} (hi : i < 16) : v.Injects i (v.inject i) where
  vIrq := rfl
  vector := by
    have hbase : (v.guestIoioState.regs (ownerOf i)).base
        = if i < 8 then v.guestIoioState.primaryBase else v.guestIoioState.secondaryBase := by
      simp only [ownerOf, isPrimary, decide_eq_true_eq]
      split
      · rfl
      · rfl
    rw [vIntrVector_inject v hi, hbase, BitVec.toNat_add, BitVec.toNat_ofNat]
    omega
  last := inject_last v i hi
  pending j := pendingIrq_inject v i j hi
  rest := rfl

/-- **`inject_ext_intr` is exact.** It injects if and only if some line may be delivered, it takes
the least of them, and it changes nothing when there is none. -/
theorem injectExtIntr_exact (v : SvmVcpu) :
    (v.injectExtIntr.1 = true ↔ ∃ i, v.CanDeliver i) ∧
      (∀ i, IsLeast {i | v.CanDeliver i} i → v.Injects i v.injectExtIntr.2) ∧
      (v.injectExtIntr.1 = false → v.injectExtIntr.2 = v) := by
  rcases injectExtIntr_cases v with ⟨_, -, -, hrun⟩ | hrun
  · -- The line injected is the least one.
    obtain ⟨hief, hphase, i, hi, hinject, hdeliv, hfirst⟩ := injectExtIntr_first hrun
    have hleast : IsLeast {i | v.CanDeliver i} i := by
      refine ⟨(canDeliver_iff v i).mpr ⟨hief, hphase, hdeliv⟩, fun j hj => ?_⟩
      by_contra hlt
      exact hfirst j (Nat.not_le.mp hlt) ((canDeliver_iff v j).mp hj).2.2
    rw [hrun, hinject]
    refine ⟨iff_of_true rfl ⟨i, hleast.1⟩, fun j hj => ?_, fun h => (by cases h)⟩
    rw [hj.unique hleast]
    exact injects_inject v hi
  · have hnone : ¬ ∃ i, v.CanDeliver i := by
      rintro ⟨i, hcan⟩
      obtain ⟨hief, hphase, hpend, hunmasked⟩ := (canDeliver_iff v i).mp hcan
      have htrue := injectExtIntr_of_canInject v
        ⟨hief, hphase, i, BitVec.lt_of_getLsbD hpend, hpend, hunmasked⟩
      rw [hrun] at htrue
      cases htrue
    rw [hrun]
    exact ⟨iff_of_false (by simp) hnone, fun i hi => absurd ⟨i, hi.1⟩ hnone, fun _ => rfl⟩

end SvmVcpu

/-! ### `handle_exit` -/

/-- The VMCB field an MSR is kept in, set to `value`. `MSR_TSC_AUX` and every MSR the hypervisor
does not know have none. -/
def Vmcb.setMsr (vmcb : Vmcb) (msr value : BitVec 64) : Vmcb :=
  match msr with
  | 0x174 => { vmcb with sysenterCs := value }
  | 0x175 => { vmcb with sysenterEsp := value }
  | 0x176 => { vmcb with sysenterEip := value }
  | 0xC0000080 => { vmcb with efer := value }
  | 0xC0000081 => { vmcb with star := value }
  | 0xC0000082 => { vmcb with lstar := value }
  | 0xC0000083 => { vmcb with cstar := value }
  | 0xC0000084 => { vmcb with sfmask := value }
  | 0xC0000100 => { vmcb with fs := { vmcb.fs with base := value } }
  | 0xC0000101 => { vmcb with gs := { vmcb.gs with base := value } }
  | 0xC0000102 => { vmcb with kernelGsBase := value }
  | _ => vmcb

/-- What a VMCB has in common with one in which an MSR was set. -/
theorem Vmcb.setMsr_eq (vmcb : Vmcb) (msr value : BitVec 64) :
    ∃ efer star lstar cstar sfmask kernelGsBase cs esp eip fs gs,
      vmcb.setMsr msr value = { vmcb with
      efer := efer, star := star, lstar := lstar, cstar := cstar, sfmask := sfmask
      kernelGsBase := kernelGsBase, sysenterCs := cs, sysenterEsp := esp, sysenterEip := eip
      fs := fs, gs := gs } := by
  unfold setMsr
  split
  all_goals exact ⟨_, _, _, _, _, _, _, _, _, _, _, rfl⟩

namespace SvmVcpu

/-- The exit is for a port access, an `IN` when `type` is true. -/
def IsIoio (v : SvmVcpu) (type : Bool) : Prop :=
  v.vmcb.exitcode = SVM_EXIT_CODE_IOIO ∧ v.vmcb.exitinfo1.getLsbD 0 = type

/-- The exit is for a `RDMSR`. -/
def IsRdmsr (v : SvmVcpu) : Prop := v.vmcb.exitcode = SVM_EXIT_CODE_MSR ∧ v.vmcb.exitinfo1 = 0

/-- The exit is for a `WRMSR`. -/
def IsWrmsr (v : SvmVcpu) : Prop := v.vmcb.exitcode = SVM_EXIT_CODE_MSR ∧ v.vmcb.exitinfo1 = 1

/-- `EDX:EAX`. -/
def edxEax (v : SvmVcpu) : BitVec 64 := v.guestRegs.rdx.setWidth 32 ++ v.vmcb.rax.setWidth 32

/-- The intercepts, the permission maps and the nested page table in the VMCB are the same. -/
structure SameControls (vmcb vmcb' : Vmcb) : Prop where
  interceptIntr : vmcb'.interceptIntr = vmcb.interceptIntr
  interceptCpuid : vmcb'.interceptCpuid = vmcb.interceptCpuid
  interceptHlt : vmcb'.interceptHlt = vmcb.interceptHlt
  interceptIoioProt : vmcb'.interceptIoioProt = vmcb.interceptIoioProt
  interceptMsrProt : vmcb'.interceptMsrProt = vmcb.interceptMsrProt
  interceptVmrun : vmcb'.interceptVmrun = vmcb.interceptVmrun
  interceptVmmcall : vmcb'.interceptVmmcall = vmcb.interceptVmmcall
  iopmBasePa : vmcb'.iopmBasePa = vmcb.iopmBasePa
  msrpmBasePa : vmcb'.msrpmBasePa = vmcb.msrpmBasePa
  npEnable : vmcb'.npEnable = vmcb.npEnable
  nCr3 : vmcb'.nCr3 = vmcb.nCr3

/-- The guest registers in the VMCB no exit writes are the same. -/
structure SameGuest (vmcb vmcb' : Vmcb) : Prop where
  rsp : vmcb'.rsp = vmcb.rsp
  rflags : vmcb'.rflags = vmcb.rflags
  cr0 : vmcb'.cr0 = vmcb.cr0
  cr3 : vmcb'.cr3 = vmcb.cr3
  cr4 : vmcb'.cr4 = vmcb.cr4

/-- What an exit that took `v` to `v'` touched, by the intercepted instruction. -/
structure ExitFrame (v v' : SvmVcpu) : Prop where
  rip : v'.vmcb.rip
    = if v.vmcb.exitcode = SVM_EXIT_CODE_INTR then v.vmcb.rip else v.vmcb.nrip
  rax : v'.vmcb.rax ≠ v.vmcb.rax →
    v.IsIoio true ∨ v.vmcb.exitcode = SVM_EXIT_CODE_CPUID ∨ v.IsRdmsr
  rdx : v'.guestRegs.rdx ≠ v.guestRegs.rdx →
    v.vmcb.exitcode = SVM_EXIT_CODE_CPUID ∨ v.IsRdmsr
  rbx : v'.guestRegs.rbx ≠ v.guestRegs.rbx → v.vmcb.exitcode = SVM_EXIT_CODE_CPUID
  rcx : v'.guestRegs.rcx ≠ v.guestRegs.rcx → v.vmcb.exitcode = SVM_EXIT_CODE_CPUID
  regs : v'.guestRegs = { v.guestRegs with
    rbx := v'.guestRegs.rbx, rcx := v'.guestRegs.rcx, rdx := v'.guestRegs.rdx }
  guest : SameGuest v.vmcb v'.vmcb
  controls : SameControls v.vmcb v'.vmcb
  tlb : v'.vmcb.tlbControl ≠ 0 → v.IsWrmsr ∧ v.guestRegs.rcx = 0xC0000080
  wrmsr : v.IsWrmsr → v'.vmcb = { v.vmcb.setMsr v.guestRegs.rcx v.edxEax with
    rip := v'.vmcb.rip, tlbControl := v'.vmcb.tlbControl }
  out : v.IsIoio false → v'.guestRegs = v.guestRegs ∧
    v'.vmcb = { v.vmcb with rip := v'.vmcb.rip, tlbControl := v'.vmcb.tlbControl }
  irq : v.vmcb.exitcode ≠ SVM_EXIT_CODE_INTR → v.vmcb.exitcode ≠ SVM_EXIT_CODE_HLT →
    SameIrq v v' ∧ v'.vmcb.vIntrVector = v.vmcb.vIntrVector

/-- Only the four places of an interrupt differ. -/
def OnlyIrq (v v' : SvmVcpu) : Prop :=
  ∃ vIrq vector pending last, v' = { v with
    vmcb := { v.vmcb with vIrq := vIrq, vIntrVector := vector }
    pendingIrq := pending
    lastInjectedIrq := last }

theorem onlyIrq_handleIntr (v : SvmVcpu) (window : List Nat) :
    v.OnlyIrq (v.handleIntr window).1 := by
  -- The occupant of the slot is put back, the window adds lines, and one may be injected.
  obtain ⟨p, hp⟩ := acceptWindow_eq window v.requeue
  have hrequeue : ∃ q, v.requeue = { v with pendingIrq := q } := by
    unfold requeue
    split
    · exact ⟨_, rfl⟩
    · exact ⟨_, rfl⟩
  obtain ⟨q, hq⟩ := hrequeue
  show v.OnlyIrq (v.requeue.acceptWindow window).injectExtIntr.2
  rw [hp, hq]
  rcases injectExtIntr_cases { v with pendingIrq := p } with ⟨i, -, -, hrun⟩ | hrun
  · rw [hrun]
    exact ⟨_, _, _, _, rfl⟩
  · rw [hrun]
    exact ⟨_, _, _, _, rfl⟩

theorem onlyIrq_hltLoop {windows : List (List Nat)} {v u : SvmVcpu} {trace : List HostEvent}
    (h : hltLoop windows v = .ok (u, trace)) : v.OnlyIrq u := by
  obtain ⟨window, i, -, -, -, rfl, -⟩ := hltLoop_ok windows v u trace h
  obtain ⟨p, hp⟩ := acceptWindow_eq window v
  rw [hp]
  exact ⟨_, _, _, _, rfl⟩

/-- `tlb_control` after a `WRMSR`: only a write of `EFER` sets it. -/
def wrmsrTlb (v : SvmVcpu) : BitVec 8 :=
  if v.guestRegs.rcx = 0xC0000080 then (wrmsrEfer v.vmcb v.edxEax).tlbControl
  else v.vmcb.tlbControl

/-- A returned WRMSR handler wrote the field of the MSR, and `tlb_control` for `EFER` only. -/
theorem handleWrmsr_field {v v' : SvmVcpu} {trace : List HostEvent}
    (h : handleWrmsr v = .ok (v', trace)) :
    v' = { v with
      vmcb := { v.vmcb.setMsr v.guestRegs.rcx v.edxEax with tlbControl := v.wrmsrTlb } } := by
  unfold handleWrmsr at h
  dsimp only at h
  rw [concat64_eq] at h
  unfold wrmsrTlb
  split at h
  case h_13 => cases h
  all_goals
    rename_i hrcx
    cases h
    rw [hrcx]
    rfl

/-! One lemma per exit code. -/

theorem exitFrame_intr {v v' : SvmVcpu} (hcode : v.vmcb.exitcode = SVM_EXIT_CODE_INTR)
    (h : v.resetTlb.OnlyIrq v') : ExitFrame v v' := by
  obtain ⟨_, _, _, _, rfl⟩ := h
  refine { rip := (if_pos hcode).symm, rax := fun h => absurd rfl h, rdx := fun h => absurd rfl h,
           rbx := fun h => absurd rfl h, rcx := fun h => absurd rfl h, regs := rfl,
           guest := ⟨rfl, rfl, rfl, rfl, rfl⟩,
           controls := ⟨rfl, rfl, rfl, rfl, rfl, rfl, rfl, rfl, rfl, rfl, rfl⟩,
           tlb := fun h => absurd rfl h, wrmsr := fun h => ?_, out := fun h => ?_,
           irq := fun h => absurd hcode h }
  · exact absurd (hcode.symm.trans h.1) (by decide)
  · exact absurd (hcode.symm.trans h.1) (by decide)

theorem exitFrame_hlt {v u : SvmVcpu} (hcode : v.vmcb.exitcode = SVM_EXIT_CODE_HLT)
    (h : v.resetTlb.OnlyIrq u) : ExitFrame v u.stepNextInst.clearShadow := by
  obtain ⟨_, _, _, _, rfl⟩ := h
  refine { rip := ?_, rax := fun h => absurd rfl h, rdx := fun h => absurd rfl h,
           rbx := fun h => absurd rfl h, rcx := fun h => absurd rfl h, regs := rfl,
           guest := ⟨rfl, rfl, rfl, rfl, rfl⟩,
           controls := ⟨rfl, rfl, rfl, rfl, rfl, rfl, rfl, rfl, rfl, rfl, rfl⟩,
           tlb := fun h => absurd rfl h, wrmsr := fun h => ?_, out := fun h => ?_,
           irq := fun _ h => absurd hcode h }
  · rw [hcode, if_neg (by decide)]
    rfl
  · exact absurd (hcode.symm.trans h.1) (by decide)
  · exact absurd (hcode.symm.trans h.1) (by decide)

/-- The exits that write registers of the guest: `h` is what the handler may write, the other
hypotheses which of it this one did. -/
theorem exitFrame_regs {v u : SvmVcpu} (hintr : v.vmcb.exitcode ≠ SVM_EXIT_CODE_INTR)
    (hwrmsr : ¬ v.IsWrmsr)
    (h : ∃ rax rbx rcx rdx g, u = { v.resetTlb with
      vmcb := { v.resetTlb.vmcb with rax := rax }
      guestRegs := { v.guestRegs with rbx := rbx, rcx := rcx, rdx := rdx }
      guestIoioState := g })
    (hrax : u.vmcb.rax ≠ v.vmcb.rax →
      v.IsIoio true ∨ v.vmcb.exitcode = SVM_EXIT_CODE_CPUID ∨ v.IsRdmsr)
    (hrdx : u.guestRegs.rdx ≠ v.guestRegs.rdx →
      v.vmcb.exitcode = SVM_EXIT_CODE_CPUID ∨ v.IsRdmsr)
    (hrbx : u.guestRegs.rbx ≠ v.guestRegs.rbx → v.vmcb.exitcode = SVM_EXIT_CODE_CPUID)
    (hrcx : u.guestRegs.rcx ≠ v.guestRegs.rcx → v.vmcb.exitcode = SVM_EXIT_CODE_CPUID)
    (hout : v.IsIoio false → u.guestRegs = v.guestRegs ∧ u.vmcb.rax = v.vmcb.rax) :
    ExitFrame v u.stepNextInst := by
  obtain ⟨_, _, _, _, _, rfl⟩ := h
  refine { rip := (if_neg hintr).symm, rax := hrax, rdx := hrdx, rbx := hrbx, rcx := hrcx,
           regs := rfl, guest := ⟨rfl, rfl, rfl, rfl, rfl⟩,
           controls := ⟨rfl, rfl, rfl, rfl, rfl, rfl, rfl, rfl, rfl, rfl, rfl⟩,
           tlb := fun h => absurd rfl h, wrmsr := fun h => absurd h hwrmsr, out := fun h => ?_,
           irq := fun _ _ => ⟨⟨rfl, rfl, rfl⟩, rfl⟩ }
  obtain ⟨hregs, hsame⟩ := hout h
  refine ⟨hregs, ?_⟩
  dsimp only at hsame
  subst hsame
  rfl

theorem exitFrame_wrmsr {v u : SvmVcpu} {trace : List HostEvent} (hwrmsr : v.IsWrmsr)
    (h : handleWrmsr v.resetTlb = .ok (u, trace)) : ExitFrame v u.stepNextInst := by
  have hcode := hwrmsr.1
  obtain rfl := handleWrmsr_field h
  have htlb : v.resetTlb.wrmsrTlb ≠ 0 → v.guestRegs.rcx = 0xC0000080 := by
    intro hne
    by_contra hrcx
    exact hne (if_neg hrcx)
  -- The reset of `tlb_control` and the write of the field do not meet.
  have hvmcb : ∀ rip tlb, { v.resetTlb.vmcb.setMsr v.guestRegs.rcx v.edxEax with
      rip := rip, tlbControl := tlb }
        = { v.vmcb.setMsr v.guestRegs.rcx v.edxEax with rip := rip, tlbControl := tlb } := by
    intro rip tlb
    unfold Vmcb.setMsr
    split
    all_goals rfl
  obtain ⟨_, _, _, _, _, _, _, _, _, _, _, hset⟩ :=
    v.resetTlb.vmcb.setMsr_eq v.guestRegs.rcx v.edxEax
  have hnrip : (v.resetTlb.vmcb.setMsr v.guestRegs.rcx v.edxEax).nrip = v.vmcb.nrip := by
    rw [hset]
    rfl
  have hrax : (v.resetTlb.vmcb.setMsr v.guestRegs.rcx v.edxEax).rax = v.vmcb.rax := by
    rw [hset]
    rfl
  refine { rip := ?_, rax := fun h => absurd hrax h, rdx := fun h => absurd rfl h,
           rbx := fun h => absurd rfl h, rcx := fun h => absurd rfl h, regs := rfl,
           guest := ?_, controls := ?_, tlb := fun h => ⟨hwrmsr, htlb h⟩,
           wrmsr := fun _ => hvmcb _ _,
           out := fun h => absurd (hcode.symm.trans h.1) (by decide), irq := fun _ _ => ?_ }
  · rw [hcode, if_neg (by decide)]
    exact hnrip
  · show SameGuest v.vmcb { v.resetTlb.vmcb.setMsr v.guestRegs.rcx v.edxEax with
      rip := _, tlbControl := _ }
    rw [hset]
    exact ⟨rfl, rfl, rfl, rfl, rfl⟩
  · show SameControls v.vmcb { v.resetTlb.vmcb.setMsr v.guestRegs.rcx v.edxEax with
      rip := _, tlbControl := _ }
    rw [hset]
    exact ⟨rfl, rfl, rfl, rfl, rfl, rfl, rfl, rfl, rfl, rfl, rfl⟩
  · have hirq : (v.resetTlb.vmcb.setMsr v.guestRegs.rcx v.edxEax).vIrq = v.vmcb.vIrq ∧
        (v.resetTlb.vmcb.setMsr v.guestRegs.rcx v.edxEax).vIntrVector = v.vmcb.vIntrVector := by
      rw [hset]
      exact ⟨rfl, rfl⟩
    exact ⟨⟨hirq.1, rfl, rfl⟩, hirq.2⟩

section Exits
variable {host : Host} {windows : List (List Nat)} {v v' u : SvmVcpu} {trace : List HostEvent}

/-- `CPUID` writes its four registers. -/
theorem exitFrame_cpuid (hcode : v.vmcb.exitcode = SVM_EXIT_CODE_CPUID)
    (h : handleSvmCpuidExit host v.resetTlb = .ok (u, trace)) : ExitFrame v u.stepNextInst := by
  obtain ⟨⟨eax, ebx, ecx, edx, rfl⟩, -⟩ := handleSvmCpuidExit_ok h
  refine exitFrame_regs (by rw [hcode]; decide) (fun h => ?_) ⟨_, _, _, _, _, rfl⟩
    (fun _ => .inr (.inl hcode)) (fun _ => .inl hcode) (fun _ => hcode) (fun _ => hcode)
    (fun h => ?_)
  · exact absurd (hcode.symm.trans h.1) (by decide)
  · exact absurd (hcode.symm.trans h.1) (by decide)

/-- The handler looks at bit 0 of `EXITINFO1`. -/
theorem isIoio_of_type (hcode : v.vmcb.exitcode = SVM_EXIT_CODE_IOIO) {type : Bool}
    (h : (IOIOInterceptInfo.ofValue (v.vmcb.exitinfo1.setWidth 32)).type = type) :
    v.IsIoio type := by
  refine ⟨hcode, ?_⟩
  rw [← h]
  simp [IOIOInterceptInfo.ofValue]

/-- A port read writes `RAX`, a port write the state of the emulated devices. -/
theorem exitFrame_ioio (hcode : v.vmcb.exitcode = SVM_EXIT_CODE_IOIO)
    (h : handleSvmIoioExit host v.resetTlb = .ok (u, trace)) : ExitFrame v u.stepNextInst := by
  have hnot : ¬ v.IsWrmsr := fun h => absurd (hcode.symm.trans h.1) (by decide)
  unfold handleSvmIoioExit at h
  dsimp only at h
  split at h
  · rename_i htype
    have hin : v.IsIoio true := isIoio_of_type hcode htype
    obtain ⟨⟨x, rfl⟩, -⟩ := readsPort_handleIoioIn host v.resetTlb _ u trace h
    refine exitFrame_regs (by rw [hcode]; decide) hnot ⟨_, _, _, _, _, rfl⟩
      (fun _ => .inl hin) (fun h => absurd rfl h) (fun h => absurd rfl h) (fun h => absurd rfl h)
      (fun hout => ?_)
    have := hin.2.symm.trans hout.2
    cases this
  · obtain ⟨⟨g, rfl⟩, -⟩ := writesPort_handleIoioOut v.resetTlb _ u trace h
    exact exitFrame_regs (by rw [hcode]; decide) hnot ⟨_, _, _, _, _, rfl⟩
      (fun h => absurd rfl h) (fun h => absurd rfl h) (fun h => absurd rfl h)
      (fun h => absurd rfl h) (fun _ => ⟨rfl, rfl⟩)

/-- `RDMSR` writes `EDX:EAX`, `WRMSR` the field of its MSR. -/
theorem exitFrame_msr (hcode : v.vmcb.exitcode = SVM_EXIT_CODE_MSR)
    (h : handleSvmMsrExit v.resetTlb = .ok (u, trace)) : ExitFrame v u.stepNextInst := by
  unfold handleSvmMsrExit at h
  split at h
  · rename_i hread
    have hrdmsr : v.IsRdmsr := ⟨hcode, hread⟩
    obtain ⟨⟨val, rfl⟩, -⟩ := handleRdmsr_ok h
    refine exitFrame_regs (by rw [hcode]; decide) (fun h => ?_) ⟨_, _, _, _, _, rfl⟩
      (fun _ => .inr (.inr hrdmsr)) (fun _ => .inr hrdmsr) (fun h => absurd rfl h)
      (fun h => absurd rfl h) (fun h => ?_)
    · exact absurd (hread.symm.trans h.2) (by decide)
    · exact absurd (hcode.symm.trans h.1) (by decide)
  · split at h
    · rename_i hwrite
      exact exitFrame_wrmsr ⟨hcode, hwrite⟩ h
    · cases h

theorem exitFrame_vmmcall (hcode : v.vmcb.exitcode = SVM_EXIT_CODE_VMMCALL)
    (h : handleSvmVmmcallExit v.resetTlb = .ok (u, trace)) : ExitFrame v u.stepNextInst := by
  obtain ⟨rfl, -⟩ := handleSvmVmmcallExit_ok h
  refine exitFrame_regs (by rw [hcode]; decide) (fun h => ?_) ⟨_, _, _, _, _, rfl⟩
    (fun h => absurd rfl h) (fun h => absurd rfl h) (fun h => absurd rfl h)
    (fun h => absurd rfl h) (fun _ => ⟨rfl, rfl⟩)
  exact absurd (hcode.symm.trans h.1) (by decide)

/-- **Exit handling touches only what the intercepted instruction defines.** For every vCPU and
every exit it takes, whatever the host answers and whichever interrupts come in. -/
theorem handleExit_frame (h : v.handleExit host windows = .ok (v', trace)) : ExitFrame v v' := by
  rcases handleExit_ok h with ⟨hcode, hv⟩ | ⟨hcode, u, hu, rfl⟩ | ⟨hcode, u, hu, rfl⟩ |
    ⟨hcode, u, hu, rfl⟩ | ⟨hcode, u, hu, rfl⟩ | ⟨hcode, u, hu, rfl⟩
  · have hv' : v' = (v.resetTlb.handleIntr (windows.headD [])).1 := congrArg Prod.fst hv
    rw [hv']
    exact exitFrame_intr hcode (onlyIrq_handleIntr v.resetTlb (windows.headD []))
  · exact exitFrame_cpuid hcode hu
  · exact exitFrame_hlt hcode (onlyIrq_hltLoop hu)
  · exact exitFrame_ioio hcode hu
  · exact exitFrame_msr hcode hu
  · exact exitFrame_vmmcall hcode hu

end Exits

/-- A guest that sets `EFER.LME` and `EFER.NXE` with a `WRMSR`. -/
def eferVcpu : SvmVcpu :=
  { svmVcpuNew 1 with
    vmcb := { exitcode := SVM_EXIT_CODE_MSR, exitinfo1 := 1, nrip := 2, rax := 0x900 }
    guestRegs := { rcx := 0xC0000080 } }

theorem handleExit_frame_efer : ∃ v', eferVcpu.handleExit quietHost [] = .ok (v', []) ∧
    ExitFrame eferVcpu v' ∧ v'.vmcb.efer = 0x900 ∧ v'.vmcb.tlbControl = 3 := by
  obtain ⟨v', hrun, hefer, htlb⟩ : ∃ v', eferVcpu.handleExit quietHost [] = .ok (v', []) ∧
      v'.vmcb.efer = 0x900 ∧ v'.vmcb.tlbControl = 3 := ⟨_, rfl, rfl, rfl⟩
  exact ⟨v', hrun, handleExit_frame hrun, hefer, htlb⟩

end SvmVcpu

end YmirC
