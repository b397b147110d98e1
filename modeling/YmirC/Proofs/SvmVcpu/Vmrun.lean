import YmirC.Arch.X86.SvmVcpuSetup
import YmirC.Lib.Runs
import YmirC.Proofs.PageAllocatorIf
import YmirC.Proofs.SvmVcpu.Injection

/-!
# `YmirC.Proofs.SvmVcpu.Vmrun`: `EFER` and the TLB at every VMRUN

`VmrunSys` is `svm_vcpu_loop` seen at its VMRUN. One step is one round of the loop: the guest
runs and exits, and `handle_exit` returns. The state keeps the vCPU as the last `handle_exit`
found it, so that a state can be compared with the one before the exit.

The guest may leave anything in the registers that are its own. `EFER` is not, since its
writes are intercepted, but the processor keeps `LMA` there. So a round has an `EFER` value of
its own, and all it promises is that `SVME` was not cleared.

Of all exits only a `WRMSR` to `EFER` changes `EFER`, and it stores the guest's value whole
(`handleExit_efer`). Both results below follow from that one lemma.

* `svme_of_run`: `SVME` stays set as long as every value the guest writes has it set.
  `setup_vmcb` sets the bit because a guest that runs without it is undefined, and
  `handle_wrmsr` does not force it. `not_svme_of_run` is the guest that writes 0.
* `flush_of_run`: `tlb_control` asks for a flush when `LME` or `NXE` changed, as long as the
  guest does not clear the last of the two. `handle_wrmsr` looks at the new value only, so the
  switch back to legacy paging is not flushed (`not_flush_of_run`).
-/

set_option autoImplicit false

namespace YmirC

open Runs

namespace SvmVcpu

/-- `EFER.LME`. -/
def lme (efer : BitVec 64) : Bool := efer.getLsbD 8

/-- `EFER.NXE`. -/
def nxe (efer : BitVec 64) : Bool := efer.getLsbD 11

/-- `EFER.SVME`. -/
def svme (efer : BitVec 64) : Bool := efer.getLsbD 12

/-- The value of the `WRMSR` to `EFER` that caused the exit, `none` for every other exit. -/
def eferWrite (v : SvmVcpu) : Option (BitVec 64) :=
  if v.vmcb.exitcode = SVM_EXIT_CODE_MSR ∧ v.vmcb.exitinfo1 = 1 ∧ v.guestRegs.rcx = 0xC0000080 then
    some (concat64 v.guestRegs.rdx v.vmcb.rax)
  else none

/-- `EFER` and `tlb_control` are the same in both vCPUs. -/
structure SameMode (v v' : SvmVcpu) : Prop where
  efer : v'.vmcb.efer = v.vmcb.efer
  tlbControl : v'.vmcb.tlbControl = v.vmcb.tlbControl

theorem sameMode_injectExtIntr (v : SvmVcpu) : SameMode v v.injectExtIntr.2 := by
  rcases injectExtIntr_cases v with ⟨i, -, -, he⟩ | he
  · rw [he]
    exact ⟨rfl, rfl⟩
  · rw [he]
    exact ⟨rfl, rfl⟩

theorem sameMode_handleIntr (v : SvmVcpu) (window : List Nat) :
    SameMode v (v.handleIntr window).1 := by
  obtain ⟨hefer, htlb⟩ := sameMode_injectExtIntr (v.requeue.acceptWindow window)
  rw [acceptWindow_vmcb, requeue_vmcb] at hefer htlb
  exact ⟨hefer, htlb⟩

theorem sameMode_hltLoop {windows : List (List Nat)} {v u : SvmVcpu} {trace : List HostEvent}
    (h : hltLoop windows v = .ok (u, trace)) : SameMode v u := by
  obtain ⟨window, i, -, -, -, rfl, -⟩ := hltLoop_ok windows v u trace h
  have hvmcb := acceptWindow_vmcb v window
  constructor
  · show (v.acceptWindow window).vmcb.efer = _
    rw [hvmcb]
  · show (v.acceptWindow window).vmcb.tlbControl = _
    rw [hvmcb]

theorem sameMode_handleSvmIoioExit {host : Host} {v v' : SvmVcpu} {trace : List HostEvent}
    (h : handleSvmIoioExit host v = .ok (v', trace)) : SameMode v v' := by
  unfold handleSvmIoioExit at h
  dsimp only at h
  split at h
  · obtain ⟨⟨x, rfl⟩, -⟩ := readsPort_handleIoioIn host v _ v' trace h
    exact ⟨rfl, rfl⟩
  · obtain ⟨⟨g, rfl⟩, -⟩ := writesPort_handleIoioOut v _ v' trace h
    exact ⟨rfl, rfl⟩

/-- A returned `WRMSR` stored the value in `EFER` when `RCX` names it. -/
theorem handleWrmsr_efer {v v' : SvmVcpu} {trace : List HostEvent}
    (h : handleWrmsr v = .ok (v', trace)) :
    (v.guestRegs.rcx = 0xC0000080 ∧
      v'.vmcb = wrmsrEfer v.vmcb (concat64 v.guestRegs.rdx v.vmcb.rax)) ∨
    (v.guestRegs.rcx ≠ 0xC0000080 ∧ SameMode v v') := by
  unfold handleWrmsr at h
  dsimp only at h
  split at h
  -- The fourth MSR of the `switch` is `EFER`, and the last case is its panic.
  case h_4 heq =>
    cases h
    exact .inl ⟨heq, rfl⟩
  case h_13 => cases h
  all_goals
    rename_i heq
    cases h
    exact .inr ⟨by rw [heq]; decide, ⟨rfl, rfl⟩⟩

/-- The `EFER` and the `tlb_control` an exit leaves: a write to `EFER` stores its value and asks
for a flush when the value has `LME` or `NXE`, and no other exit changes `EFER` or asks. -/
def ModeAfter (v v' : SvmVcpu) : Prop :=
  match v.eferWrite with
  | some value =>
      v'.vmcb.efer = value ∧ v'.vmcb.tlbControl = if lme value || nxe value then 0x03 else 0
  | none => v'.vmcb.efer = v.vmcb.efer ∧ v'.vmcb.tlbControl = 0

theorem modeAfter_of_sameMode {v v' : SvmVcpu} (hno : v.eferWrite = none)
    (h : SameMode v.resetTlb v') : ModeAfter v v' := by
  unfold ModeAfter
  rw [hno]
  exact ⟨h.efer, h.tlbControl⟩

theorem eferWrite_of_exitcode {v : SvmVcpu} (h : v.vmcb.exitcode ≠ SVM_EXIT_CODE_MSR) :
    v.eferWrite = none :=
  if_neg fun hall => h hall.1

theorem modeAfter_handleSvmMsrExit {v u : SvmVcpu} {trace : List HostEvent}
    (hcode : v.vmcb.exitcode = SVM_EXIT_CODE_MSR)
    (h : handleSvmMsrExit v.resetTlb = .ok (u, trace)) : ModeAfter v u := by
  unfold handleSvmMsrExit at h
  split at h
  · -- `EXITINFO1` is 0 for a read and 1 for a write.
    rename_i hread
    obtain ⟨⟨val, rfl⟩, -⟩ := handleRdmsr_ok h
    refine modeAfter_of_sameMode (if_neg ?_) ⟨rfl, rfl⟩
    intro hall
    exact absurd (hread.symm.trans hall.2.1) (by decide)
  · split at h
    · rename_i hwrite
      rcases handleWrmsr_efer h with ⟨hrcx, hvmcb⟩ | ⟨hrcx, hsame⟩
      · have hsome : v.eferWrite = some (concat64 v.guestRegs.rdx v.vmcb.rax) :=
          if_pos ⟨hcode, hwrite, hrcx⟩
        unfold ModeAfter
        rw [hsome, hvmcb]
        exact ⟨rfl, rfl⟩
      · exact modeAfter_of_sameMode (if_neg fun hall => hrcx hall.2.2) hsame
    · cases h

/-- What a returned `handle_exit` left in `EFER` and `tlb_control`. -/
theorem handleExit_efer {host : Host} {windows : List (List Nat)} {v v' : SvmVcpu}
    {trace : List HostEvent} (h : v.handleExit host windows = .ok (v', trace)) :
    ModeAfter v v' := by
  unfold handleExit at h
  dsimp only at h
  -- One case per exit code, in the order of the `switch`.
  split at h
  · rename_i hcode
    cases h
    exact modeAfter_of_sameMode (eferWrite_of_exitcode (by rw [hcode]; decide))
      (sameMode_handleIntr v.resetTlb _)
  split at h
  · rename_i hcode
    obtain ⟨⟨u, t⟩, hu, hr⟩ := Run.bind_eq_ok.mp h
    cases hr
    obtain ⟨⟨_, _, _, _, rfl⟩, -⟩ := handleSvmCpuidExit_ok hu
    exact modeAfter_of_sameMode (eferWrite_of_exitcode (by rw [hcode]; decide)) ⟨rfl, rfl⟩
  split at h
  · rename_i hcode
    obtain ⟨⟨u, t⟩, hu, hr⟩ := Run.bind_eq_ok.mp h
    cases hr
    have hsame : SameMode v.resetTlb u := sameMode_hltLoop hu
    exact modeAfter_of_sameMode (eferWrite_of_exitcode (by rw [hcode]; decide))
      ⟨hsame.efer, hsame.tlbControl⟩
  split at h
  · rename_i hcode
    obtain ⟨⟨u, t⟩, hu, hr⟩ := Run.bind_eq_ok.mp h
    cases hr
    have hsame : SameMode v.resetTlb u := sameMode_handleSvmIoioExit hu
    exact modeAfter_of_sameMode (eferWrite_of_exitcode (by rw [hcode]; decide))
      ⟨hsame.efer, hsame.tlbControl⟩
  split at h
  · rename_i hcode
    obtain ⟨⟨u, t⟩, hu, hr⟩ := Run.bind_eq_ok.mp h
    cases hr
    have hmode : ModeAfter v u := modeAfter_handleSvmMsrExit hcode hu
    exact hmode
  split at h
  · rename_i hcode
    obtain ⟨⟨u, t⟩, hu, hr⟩ := Run.bind_eq_ok.mp h
    cases hr
    obtain ⟨rfl, -⟩ := handleSvmVmmcallExit_ok hu
    exact modeAfter_of_sameMode (eferWrite_of_exitcode (by rw [hcode]; decide)) ⟨rfl, rfl⟩
  · cases h

theorem handleExit_msr (host : Host) (windows : List (List Nat)) {v : SvmVcpu}
    (hcode : v.vmcb.exitcode = SVM_EXIT_CODE_MSR) :
    v.handleExit host windows =
      (handleSvmMsrExit v.resetTlb >>= fun p => pure (p.1.stepNextInst, p.2)) := by
  unfold handleExit
  dsimp only
  have hother : ∀ code, code ≠ SVM_EXIT_CODE_MSR → v.vmcb.exitcode ≠ code := by
    intro code hne hcode'
    exact hne (hcode'.symm.trans hcode)
  rw [if_neg (hother _ (by decide)), if_neg (hother _ (by decide)),
    if_neg (hother _ (by decide)), if_neg (hother _ (by decide)), if_pos hcode]
  rfl

/-- An exit of a `WRMSR` to `EFER` returns. -/
theorem handleExit_eferWrite (host : Host) (windows : List (List Nat)) {v : SvmVcpu}
    {value : BitVec 64} (h : v.eferWrite = some value) :
    ∃ v' trace, v.handleExit host windows = .ok (v', trace) := by
  unfold eferWrite at h
  split at h
  case isFalse => cases h
  rename_i hall
  obtain ⟨hcode, hinfo, hrcx⟩ := hall
  have hwrmsr : handleSvmMsrExit v.resetTlb = .ok ({ v.resetTlb with
      vmcb := wrmsrEfer v.resetTlb.vmcb (concat64 v.guestRegs.rdx v.vmcb.rax) }, []) := by
    have hinfo' : v.resetTlb.vmcb.exitinfo1 = 1 := hinfo
    have hrcx' : v.resetTlb.guestRegs.rcx = 0xC0000080 := hrcx
    unfold handleSvmMsrExit
    rw [hinfo', if_neg (by decide), if_pos rfl]
    unfold handleWrmsr
    rw [hrcx']
    rfl
  rw [handleExit_msr host windows hcode, hwrmsr]
  exact ⟨_, _, rfl⟩

end SvmVcpu

/-! ### The rounds of the loop -/

/-- One round of `svm_vcpu_loop`: what the guest left, the `EFER` the processor saved, whether
the virtual interrupt was taken, what the host answers to the exit and the interrupt windows
of the exit. -/
structure Round where
  guest : GuestState
  efer : BitVec 64
  takeVirq : Bool := false
  host : Host
  windows : List (List Nat) := []

/-- The vCPU at the #VMEXIT. -/
def SvmVcpu.vmexit (v : SvmVcpu) (r : Round) : SvmVcpu :=
  let v := v.setGuest r.guest
  { v with vmcb := { v.vmcb with efer := r.efer, vIrq := v.vmcb.vIrq && !r.takeVirq } }

/-- The vCPU at a VMRUN, and as the `handle_exit` before it found the vCPU (`none` at the first
VMRUN). -/
structure VmrunSys where
  vcpu : SvmVcpu
  exited : Option SvmVcpu

namespace VmrunSys

open SvmVcpu

/-- The step of one round, `none` when the processor cleared `SVME` or `handle_exit` did not
return. -/
def step (s : VmrunSys) (r : Round) : Option VmrunSys :=
  if svme s.vcpu.vmcb.efer && !svme r.efer then none
  else match (s.vcpu.vmexit r).handleExit r.host r.windows with
  | .ok (v, _) => some { vcpu := v, exited := some (s.vcpu.vmexit r) }
  | .error _ => none

/-- The first VMRUN: `svm_vcpu_virtualize` and `svm_vcpu_setup_guest_state` (hence `setup_vmcb`)
returned, over any page allocator, and `svm_vcpu_set_npt` followed. -/
def Init (s : VmrunSys) : Prop :=
  s.exited = none ∧ ∃ (σ : Type) (ops : PageAllocatorOps σ) (v v₁ v₂ : SvmVcpu)
    (m m₁ m₂ m₃ : Machine σ) (nCr3 hostStart : Nat),
    virtualize ops v m = .ok (v₁, m₁) ∧ setupGuestState ops v₁ m₁ = .ok (v₂, m₂) ∧
    s.vcpu = v₂.setNpt nCr3 hostStart m₃

/-- A step is a round whose exit returned. -/
theorem step_eq_some {s s' : VmrunSys} {r : Round} (h : s.step r = some s') :
    (svme s.vcpu.vmcb.efer = true → svme r.efer = true) ∧
    s'.exited = some (s.vcpu.vmexit r) ∧ ModeAfter (s.vcpu.vmexit r) s'.vcpu := by
  unfold step at h
  split at h
  · cases h
  rename_i hsvme
  split at h
  · rename_i v trace hexit
    cases h
    refine ⟨?_, rfl, handleExit_efer hexit⟩
    intro hset
    simpa [hset] using hsvme
  · cases h

theorem init_mode {s : VmrunSys} (h : Init s) :
    s.vcpu.vmcb.efer = 1#64 <<< 12 ∧ s.vcpu.vmcb.tlbControl = 0 := by
  obtain ⟨-, σ, ops, v, v₁, v₂, m, m₁, m₂, m₃, nCr3, hostStart, hvirt, hguest, hvcpu⟩ := h
  -- `svm_vcpu_virtualize` clears the VMCB, and nothing before the first VMRUN writes
  -- `tlb_control`.
  have hclear : v₁.vmcb = {} := by
    unfold virtualize at hvirt
    obtain ⟨⟨hsave, m'⟩, -, hvirt⟩ := Run.bind_eq_ok.mp hvirt
    obtain ⟨-, hvirt⟩ := Run.ite_error_eq_ok.mp hvirt
    obtain ⟨⟨vmcb, m''⟩, -, hvirt⟩ := Run.bind_eq_ok.mp hvirt
    obtain ⟨-, hvirt⟩ := Run.ite_error_eq_ok.mp hvirt
    cases hvirt
    rfl
  obtain ⟨⟨w, mw⟩, hsetup, hrsi⟩ := Run.bind_eq_ok.mp hguest
  -- `setup_vmcb` writes `EFER`; the permission maps only add their addresses.
  cases hrsi
  obtain ⟨⟨w₁, mw₁⟩, hmsr, hioio⟩ := Run.bind_eq_ok.mp hsetup
  obtain ⟨⟨msrpm, m'⟩, -, hmsr⟩ := Run.bind_eq_ok.mp hmsr
  cases hmsr
  obtain ⟨⟨iopm, m''⟩, -, hioio⟩ := Run.bind_eq_ok.mp hioio
  cases hioio
  rw [hvcpu]
  constructor
  · rfl
  · show v₁.vmcb.tlbControl = 0
    rw [hclear]

/-- `WRMSR` to `EFER` always returns. -/
theorem step_eferWrite {s : VmrunSys} {r : Round} {value : BitVec 64}
    (hkeep : svme s.vcpu.vmcb.efer = true → svme r.efer = true)
    (hwrite : (s.vcpu.vmexit r).eferWrite = some value) :
    ∃ s', s.step r = some s' ∧ s'.exited = some (s.vcpu.vmexit r) ∧
      s'.vcpu.vmcb.efer = value ∧
      s'.vcpu.vmcb.tlbControl = if lme value || nxe value then 0x03 else 0 := by
  obtain ⟨v, trace, hv⟩ := handleExit_eferWrite r.host r.windows hwrite
  -- The exit is the write, so `ModeAfter` says what it leaves.
  have hmode := handleExit_efer hv
  rw [ModeAfter, hwrite] at hmode
  refine ⟨⟨v, some (s.vcpu.vmexit r)⟩, ?_, rfl, hmode⟩
  unfold step
  rw [if_neg (by simpa using hkeep), hv]

/-- `svm_vcpu_virtualize` returns when both of its allocations succeed. -/
theorem virtualize_of_alloc {σ : Type} {ops : PageAllocatorOps σ} {v : SvmVcpu} {m : Machine σ}
    {hsave vmcb : Nat} {pa₁ pa₂ : σ} (hfirst : ops.alloc PAGE_SIZE m.pa = .ok (hsave, pa₁))
    (hne₁ : hsave ≠ 0) (hsecond : ops.allocAlignedPages 1 PAGE_SIZE pa₁ = .ok (vmcb, pa₂))
    (hne₂ : vmcb ≠ 0) : ∃ p, virtualize ops v m = .ok p := by
  have hrun₁ : m.alloc ops PAGE_SIZE = .ok (hsave, { m with pa := pa₁ }) :=
    Run.bind_eq_ok.mpr ⟨_, hfirst, rfl⟩
  have hrun₂ : ∀ msr, Machine.allocAlignedPages ops 1 PAGE_SIZE { m with pa := pa₁, msr := msr }
      = .ok (vmcb, { m with pa := pa₂, msr := msr }) :=
    fun _ => Run.bind_eq_ok.mpr ⟨_, hsecond, rfl⟩
  exact ⟨_, Run.bind_eq_ok.mpr ⟨_, hrun₁,
    (if_neg hne₁).trans (Run.bind_eq_ok.mpr ⟨_, hrun₂ _, if_neg hne₂⟩)⟩⟩

/-- The setup returns: the bump allocator has the memory for it. -/
theorem exists_init : ∃ s, Init s := by
  let m : Machine Nat := ⟨fun _ => 0#8, 1, 0, fun _ => 0#64, true, [], []⟩
  have hsave : (bumpOps true).alloc PAGE_SIZE 1 = .ok (phys2virt true 0x1000, 2) := by rfl
  have hvmcb : (bumpOps true).allocAlignedPages 1 PAGE_SIZE 2 = .ok (phys2virt true 0x2000, 3) := by
    rfl
  have hvirt : ∃ p, virtualize (bumpOps true) (svmVcpuNew 1#16) m = .ok p :=
    virtualize_of_alloc hsave (by decide) hvmcb (by decide)
  obtain ⟨⟨v₁, m₁⟩, hvirt⟩ := hvirt
  have hguest : ∃ p, setupGuestState (bumpOps true) v₁ m₁ = .ok p := ⟨_, rfl⟩
  obtain ⟨⟨v₂, m₂⟩, hguest⟩ := hguest
  exact ⟨⟨v₂.setNpt 0 0 m, none⟩, rfl, Nat, bumpOps true, svmVcpuNew 1#16, v₁, v₂, m, m₁, m₂, m, 0,
    0, hvirt, hguest, rfl⟩

/-! ### `SVME` -/

/-- A guest that writes `EFER` in this round writes `SVME` set. -/
def KeepsSvme (s : VmrunSys) (r : Round) : Prop :=
  ∀ value, (s.vcpu.vmexit r).eferWrite = some value → svme value = true

theorem svme_step_iff {s s' : VmrunSys} {r : Round} (hs : svme s.vcpu.vmcb.efer = true)
    (h : s.step r = some s') : svme s'.vcpu.vmcb.efer = true ↔ KeepsSvme s r := by
  obtain ⟨hkeep, -, hmode⟩ := step_eq_some h
  unfold ModeAfter at hmode
  unfold KeepsSvme
  split at hmode
  · -- The exit wrote `EFER`: its value is the new one.
    rename_i value hwrite
    rw [hmode.1]
    constructor
    · intro hsvme value' hvalue'
      rw [hwrite] at hvalue'
      cases hvalue'
      exact hsvme
    · intro hall
      exact hall value hwrite
  · -- No write, and the processor did not clear the bit.
    rename_i hwrite
    rw [hmode.1]
    constructor
    · intro _ value' hvalue'
      rw [hwrite] at hvalue'
      cases hvalue'
    · intro _
      exact hkeep hs

/-- Along every run whose writes to `EFER` have `SVME` set, `SVME` is set at every VMRUN, and a
further round keeps it exactly when it is of that kind too. -/
theorem svme_of_run {s : VmrunSys} (h : Reachable Init step KeepsSvme s) :
    svme s.vcpu.vmcb.efer = true ∧
      ∀ r s', s.step r = some s' → (svme s'.vcpu.vmcb.efer = true ↔ KeepsSvme s r) := by
  have hset : svme s.vcpu.vmcb.efer = true := by
    induction h with
    | start hinit =>
        rw [(init_mode hinit).1]
        decide
    | next _ hkeep hstep ih => exact (svme_step_iff ih hstep).mpr hkeep
  exact ⟨hset, fun r s' hstep => svme_step_iff hset hstep⟩

/-- The round of a guest that writes the 32-bit `value` to an `EFER` of `efer`. -/
def wrmsrRound (efer value : BitVec 64) : Round where
  guest :=
    { regs := { rcx := 0xC0000080 }, rax := value
      exitcode := SVM_EXIT_CODE_MSR, exitinfo1 := 1 }
  efer := efer
  host := ⟨fun _ => 0, fun _ => 0, fun _ => 0, fun _ _ => ⟨0, 0, 0, 0⟩⟩

theorem eferWrite_wrmsrRound (s : VmrunSys) (efer value : BitVec 64) :
    (s.vcpu.vmexit (wrmsrRound efer value)).eferWrite = some (concat64 0#64 value) :=
  if_pos ⟨rfl, rfl, rfl⟩

/-- The guest enables long mode and leaves `SVME` set. -/
theorem svme_of_run_longMode :
    ∃ s, Reachable Init step KeepsSvme s ∧ s.vcpu.vmcb.efer = 0x1100#64 ∧
      svme s.vcpu.vmcb.efer = true := by
  obtain ⟨s, hinit⟩ := exists_init
  have hwrite := eferWrite_wrmsrRound s 0x1000#64 0x1100#64
  obtain ⟨s', hstep, -, hefer, -⟩ := step_eferWrite (fun _ => rfl) hwrite
  have hkeep : KeepsSvme s (wrmsrRound 0x1000#64 0x1100#64) := by
    intro value hvalue
    rw [hwrite] at hvalue
    cases hvalue
    decide
  have hs' : Reachable Init step KeepsSvme s' := .next (.start hinit) hkeep hstep
  exact ⟨s', hs', hefer, (svme_of_run hs').1⟩

/-- The guest writes 0 to `EFER` in the first round. -/
theorem not_svme_of_run :
    ¬ ∀ s, Reachable Init step (fun _ _ => True) s → svme s.vcpu.vmcb.efer = true := by
  intro hall
  obtain ⟨s, hinit⟩ := exists_init
  have hwrite := eferWrite_wrmsrRound s 0x1000#64 0#64
  obtain ⟨s', hstep, -, hefer, -⟩ := step_eferWrite (fun _ => rfl) hwrite
  have hset := hall s' (.next (.start hinit) trivial hstep)
  rw [hefer] at hset
  exact absurd hset (by decide)

/-! ### The TLB -/

/-- The first VMRUN asks for no flush. A later one asks for a flush when the exit before it
changed `LME` or `NXE`, and does not when that exit was no write to `EFER`. -/
def Flushed (s : VmrunSys) : Prop :=
  match s.exited with
  | none => s.vcpu.vmcb.tlbControl = 0
  | some v =>
      ((lme s.vcpu.vmcb.efer ≠ lme v.vmcb.efer ∨ nxe s.vcpu.vmcb.efer ≠ nxe v.vmcb.efer) →
        s.vcpu.vmcb.tlbControl ≠ 0) ∧
      (v.eferWrite = none → s.vcpu.vmcb.tlbControl = 0)

/-- The guest does not switch off the last of `LME` and `NXE` in this round. -/
def KeepsMode (s : VmrunSys) (r : Round) : Prop :=
  ∀ value, (s.vcpu.vmexit r).eferWrite = some value →
    (lme r.efer || nxe r.efer) = true → (lme value || nxe value) = true

theorem flushed_step_iff {s s' : VmrunSys} {r : Round} (h : s.step r = some s') :
    s'.Flushed ↔ KeepsMode s r := by
  obtain ⟨-, hexited, hmode⟩ := step_eq_some h
  have hefer : (s.vcpu.vmexit r).vmcb.efer = r.efer := rfl
  unfold Flushed KeepsMode
  simp only [hexited, hefer]
  unfold ModeAfter at hmode
  split at hmode
  · rename_i value hwrite
    obtain ⟨hvalue, htlb⟩ := hmode
    simp only [hwrite, hvalue, htlb, Option.some.injEq, forall_eq', reduceCtorEq, false_implies,
      and_true]
    -- Four bits decide: the old and the new value of `LME` and of `NXE`.
    generalize lme value = l', nxe value = n', lme r.efer = l, nxe r.efer = n
    revert l n l' n'
    decide
  · rename_i hwrite
    obtain ⟨hsame, htlb⟩ := hmode
    rw [hefer] at hsame
    simp [hwrite, hsame, htlb]

/-- Along every run in which the guest never switches off the last of `LME` and `NXE`, every
VMRUN flushes as it has to, and a further round does so exactly when it is of that kind too. -/
theorem flush_of_run {s : VmrunSys} (h : Reachable Init step KeepsMode s) :
    s.Flushed ∧ ∀ r s', s.step r = some s' → (s'.Flushed ↔ KeepsMode s r) := by
  refine ⟨?_, fun r s' hstep => flushed_step_iff hstep⟩
  cases h with
  | start hinit =>
      unfold Flushed
      rw [hinit.1]
      exact (init_mode hinit).2
  | next _ hkeep hstep => exact (flushed_step_iff hstep).mpr hkeep

/-- The guest enables long mode, and the next VMRUN flushes. -/
theorem flush_of_run_longMode :
    ∃ s, Reachable Init step KeepsMode s ∧ s.vcpu.vmcb.efer = 0x1100#64 ∧
      s.vcpu.vmcb.tlbControl = 0x03 ∧ s.Flushed := by
  obtain ⟨s, hinit⟩ := exists_init
  have hwrite := eferWrite_wrmsrRound s 0x1000#64 0x1100#64
  obtain ⟨s', hstep, -, hefer, htlb⟩ := step_eferWrite (fun _ => rfl) hwrite
  have hkeep : KeepsMode s (wrmsrRound 0x1000#64 0x1100#64) := by
    intro value hvalue _
    rw [hwrite] at hvalue
    cases hvalue
    decide
  have hs' : Reachable Init step KeepsMode s' := .next (.start hinit) hkeep hstep
  exact ⟨s', hs', hefer, htlb, (flush_of_run hs').1⟩

/-- The guest enables long mode in the first round and disables it in the second. -/
theorem not_flush_of_run :
    ¬ ∀ s, Reachable Init step (fun _ _ => True) s → s.Flushed := by
  intro hall
  obtain ⟨s, hinit⟩ := exists_init
  have hon := eferWrite_wrmsrRound s 0x1000#64 0x1100#64
  obtain ⟨s₁, hstep₁, -, hefer₁, -⟩ := step_eferWrite (fun _ => rfl) hon
  have hoff := eferWrite_wrmsrRound s₁ 0x1100#64 0x1000#64
  obtain ⟨s₂, hstep₂, -, -, -⟩ := step_eferWrite (fun _ => rfl) hoff
  have hflushed := hall s₂ (.next (.next (.start hinit) trivial hstep₁) trivial hstep₂)
  exact absurd ((flushed_step_iff hstep₂).mp hflushed _ hoff rfl) (by decide)

end VmrunSys

end YmirC
