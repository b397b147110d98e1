import YmirC.Proofs.PageAllocator.Progress
import YmirC.Proofs.SvmNpt
import YmirC.Proofs.Vm.Load

/-!
# `YmirC.Proofs.Vm.Isolation`: what the guest can reach

After `vm_init` and `setup_guest_memory` the nested page table maps the guest-physical addresses
below 100MiB to the block that was obtained for the guest memory, and no others. The block is
disjoint from the tables themselves, from the pages the processor uses on the hypervisor's
behalf (VMCB, host-save area, permission maps) and from every block that was live before.

The proof follows the allocations: each live block is disjoint from the next one, and the tables
of the nested page table are the last to be obtained. `setup_isolated` holds over every page
allocator with the contract of `PageAllocatorIf`, and `guestMemory_isolated` is the case of the
bitmap allocator in any state it can reach.
-/

set_option autoImplicit false

namespace YmirC

open ByteMemory Paging

variable {σ : Type} {ops : PageAllocatorOps σ} {Live : σ → List Extent → Prop}
  {L : List Extent} {m m' : Machine σ}

/-- The host-physical bytes of the guest memory. -/
def Vm.guestBytes (vm : Vm) (m : Machine σ) : Extent := ⟨m.phys vm.guestMem, GUEST_MEMORY_SIZE⟩

/-- The root of the nested page table. -/
def Vm.nCr3 (vm : Vm) : Nat := vm.svmvcpu.vmcb.nCr3.toNat

/-- The guest reaches its memory and nothing else, and its memory is apart from the tables of
the nested page table, the VMCB, the host-save area, the two permission maps and the frames of
the blocks `L`. -/
structure Isolated (vm : Vm) (m : Machine σ) (L : List Extent) : Prop where
  reaches : ∀ h, (∃ g < 2 ^ 48, walk m.mem 4 vm.nCr3 g = some h) ↔ h ∈ vm.guestBytes m
  linear : ∀ g < GUEST_MEMORY_SIZE, walk m.mem 4 vm.nCr3 g = some (m.phys vm.guestMem + g)
  tables : ∀ l t, TableAt m.mem 4 vm.nCr3 l t → (vm.guestBytes m).Disjoint ⟨t, PAGE_SIZE⟩
  vmcb : (vm.guestBytes m).Disjoint ⟨vm.svmvcpu.vmcbPhys.toNat, PAGE_SIZE⟩
  hsave : (vm.guestBytes m).Disjoint ⟨(m.msr MSR_VM_HSAVE_PA).toNat, PAGE_SIZE⟩
  msrpm : (vm.guestBytes m).Disjoint ⟨vm.svmvcpu.vmcb.msrpmBasePa.toNat, 2 * PAGE_SIZE⟩
  iopm : (vm.guestBytes m).Disjoint ⟨vm.svmvcpu.vmcb.iopmBasePa.toNat, 3 * PAGE_SIZE⟩
  live : ∀ b ∈ L, ∀ f ∈ b, (vm.guestBytes m).Disjoint ⟨f * PAGE_SIZE, PAGE_SIZE⟩

/-- The physical address `virt2phys` gives `NULL` after the reconstruction. -/
def NULL_PHYS : BitVec 64 := BitVec.ofNat 64 (virt2phys true 0)

/-- A pointer into the direct map has another physical address than `NULL`. -/
theorem phys_ne_null {phys : Nat} (hlt : phys < DIRECT_MAP_SIZE) :
    BitVec.ofNat 64 phys ≠ NULL_PHYS := by
  intro heq
  have hnull : DIRECT_MAP_SIZE ≤ NULL_PHYS.toNat ∧ DIRECT_MAP_SIZE ≤ 2 ^ 64 := by decide
  have hnat := congrArg BitVec.toNat heq
  rw [BitVec.toNat_ofNat, Nat.mod_eq_of_lt (by omega)] at hnat
  omega

/-! ### Blocks of frames -/

/-- Blocks of frames that are disjoint are disjoint in bytes. -/
theorem bytes_disjoint_of_frames {f k f' k' : Nat} (h : Extent.Disjoint ⟨f, k⟩ ⟨f', k'⟩) :
    Extent.Disjoint ⟨f * PAGE_SIZE, k * PAGE_SIZE⟩ ⟨f' * PAGE_SIZE, k' * PAGE_SIZE⟩ := by
  intro x hx hx'
  simp only [Extent.mem_mk, PAGE_SIZE] at hx hx'
  apply h (x / 4096)
  · rw [Extent.mem_mk]
    omega
  · rw [Extent.mem_mk]
    omega

/-- A block the allocator granted in front of the live blocks `L`. -/
structure Granted (Live : σ → List Extent → Prop) (L : List Extent) (k ptr f : Nat)
    (m : Machine σ) : Prop where
  direct : f + k ≤ DIRECT_MAP_FRAMES
  ptr_eq : ptr = phys2virt true (f * PAGE_SIZE)
  apart : ∀ b ∈ L, b.Disjoint ⟨f, k⟩
  live : Live m.pa (⟨f, k⟩ :: L)

/-- The physical address of a granted block. -/
theorem Granted.phys {k ptr f : Nat} (h : Granted Live L k ptr f m) (hk : 1 ≤ k)
    (hmode : m'.mappingReconstructed = true) : m'.phys ptr = f * PAGE_SIZE := by
  have hdirect := h.direct
  rw [h.ptr_eq, ← hmode]
  exact m'.phys_phys2virt (by omega)

/-- The physical address of a granted block as a 64-bit field. -/
theorem Granted.toNat_phys {k ptr f : Nat} (h : Granted Live L k ptr f m) (hk : 1 ≤ k)
    (hmode : m'.mappingReconstructed = true) :
    (BitVec.ofNat 64 (m'.phys ptr)).toNat = f * PAGE_SIZE := by
  have hdirect := h.direct
  have hlt : f * PAGE_SIZE < 2 ^ 64 :=
    Nat.lt_trans (PageAllocatorOps.frame_lt_direct (by omega)) (by decide)
  rw [h.phys hk hmode, BitVec.toNat_ofNat, Nat.mod_eq_of_lt hlt]

open PageAllocatorOps in
/-- An answer that is not `NULL` is a granted block. -/
theorem granted_of_answer {k ptr : Nat} (hans : Answer true Live L k ptr m.pa) (hne : ptr ≠ 0) :
    ∃ f, Granted Live L k ptr f m := by
  rcases hans with ⟨hnull, -⟩ | ⟨-, f, -, hdirect, hptr, hdisj, hlive⟩
  · exact absurd hnull hne
  · exact ⟨f, hdirect, hptr, hdisj, hlive⟩

/-- `alloc` on a machine. -/
theorem machine_alloc_spec (hlaw : ops.Lawful true Live) {n ptr : Nat}
    (hrun : m.alloc ops n = .ok (ptr, m')) (hlive : Live m.pa L) (hn : 1 ≤ n)
    (hmax : n ≤ 2 ^ 64 - PAGE_SIZE) :
    (∃ pa, m' = { m with pa := pa }) ∧
      (ptr ≠ 0 → ∃ f, Granted Live L (framesFor n) ptr f m') := by
  obtain ⟨p, pa, halloc, hans⟩ := hlaw.alloc hlive hn hmax
  rw [Machine.alloc, halloc, Run.bind_ok] at hrun
  obtain ⟨rfl, rfl⟩ := Prod.mk.inj (Except.ok.inj hrun)
  exact ⟨⟨pa, rfl⟩, granted_of_answer hans⟩

/-- `alloc_aligned_pages` on a machine. -/
theorem machine_allocAlignedPages_spec (hlaw : ops.Lawful true Live) {k a ptr : Nat}
    (hrun : m.allocAlignedPages ops k a = .ok (ptr, m')) (hlive : Live m.pa L) (hk : 1 ≤ k)
    (hpos : 0 < a) (hsize : a < 2 ^ 64) (hal : a % PAGE_SIZE = 0) :
    (∃ pa, m' = { m with pa := pa }) ∧ (ptr ≠ 0 → ∃ f, Granted Live L k ptr f m') ∧
      (ptr ≠ 0 → virt2phys true ptr % a = 0) := by
  obtain ⟨p, pa, halloc, hans, haligned⟩ := hlaw.allocAlignedPages hlive hk hpos hsize hal
  rw [Machine.allocAlignedPages, halloc, Run.bind_ok] at hrun
  obtain ⟨rfl, rfl⟩ := Prod.mk.inj (Except.ok.inj hrun)
  exact ⟨⟨pa, rfl⟩, granted_of_answer hans, haligned⟩

/-! ### The vCPU -/

/-- From `m` to `m'` memory was written and nothing else. -/
def OnlyWrites (m m' : Machine σ) : Prop :=
  ∃ mem writes, m' = { m with mem := mem, writes := writes }

theorem OnlyWrites.trans {m'' : Machine σ} (h : OnlyWrites m m') (h' : OnlyWrites m' m'') :
    OnlyWrites m m'' := by
  obtain ⟨mem, writes, rfl⟩ := h
  obtain ⟨mem', writes', rfl⟩ := h'
  exact ⟨mem', writes', rfl⟩

theorem onlyWrites_write (m : Machine σ) (ptr n : Nat) (mem : Mem) :
    OnlyWrites m (m.write ptr n mem) := ⟨mem, _, rfl⟩

/-- The loop over the ports that are passed through. -/
theorem onlyWrites_unmask (iopm : Nat) :
    ∀ (ports : List Nat) (m : Machine σ),
      OnlyWrites m (ports.foldl (fun m port => SvmVcpu.unmaskIopmBit iopm port m) m) := by
  intro ports
  induction ports with
  | nil => exact fun m => ⟨m.mem, m.writes, rfl⟩
  | cons port rest ih =>
      intro m
      exact (onlyWrites_write m _ _ _).trans (ih _)

/-- The state of the vCPU setup: the frames of the host-save area and of the VMCB. -/
structure Virtualized (Live : σ → List Extent → Prop) (L : List Extent) (fh fv : Nat)
    (vcpu : SvmVcpu) (m : Machine σ) : Prop where
  mode : m.mappingReconstructed = true
  live : Live m.pa (⟨fv, 1⟩ :: ⟨fh, 1⟩ :: L)
  hsave : (m.msr MSR_VM_HSAVE_PA).toNat = fh * PAGE_SIZE
  vmcb : vcpu.vmcbPhys.toNat = fv * PAGE_SIZE

/-- `svm_vcpu_virtualize` obtains the host-save area and the VMCB. -/
theorem virtualize_spec (hlaw : ops.Lawful true Live) (hmode : m.mappingReconstructed = true)
    (hlive : Live m.pa L) {vcpu vcpu' : SvmVcpu}
    (hrun : SvmVcpu.virtualize ops vcpu m = .ok (vcpu', m')) :
    ∃ fh fv, Virtualized Live L fh fv vcpu' m' := by
  obtain ⟨⟨hsave, m1⟩, halloc, hrest⟩ := Run.bind_eq_ok.mp hrun
  obtain ⟨⟨pa1, rfl⟩, hgrant⟩ := machine_alloc_spec hlaw halloc hlive (by decide) (by decide)
  -- A `NULL` result panics, so both pointers are blocks from here on.
  obtain ⟨hne, hrest⟩ := Run.ite_error_eq_ok.mp hrest
  obtain ⟨fh, hh⟩ := hgrant hne
  obtain ⟨⟨vmcb, m2⟩, halloc2, hrest⟩ := Run.bind_eq_ok.mp hrest
  obtain ⟨⟨pa2, rfl⟩, hgrant2, -⟩ := machine_allocAlignedPages_spec hlaw halloc2 hh.live
    (by decide) (by decide) (by decide) (by decide)
  obtain ⟨hne2, hrest⟩ := Run.ite_error_eq_ok.mp hrest
  obtain ⟨fv, hv⟩ := hgrant2 hne2
  obtain ⟨rfl, rfl⟩ := Prod.mk.inj (Except.ok.inj hrest)
  refine ⟨fh, fv, hmode, hv.live, ?_, ?_⟩
  · -- Writing EFER leaves the other MSR alone.
    have hmsr : MSR_VM_HSAVE_PA ≠ MSR_EFER := by decide
    simp only [Machine.writeMsr, Machine.memset, Machine.write, if_neg hmsr, if_true]
    exact hh.toNat_phys (by decide) hmode
  · exact hv.toNat_phys (Nat.le_refl 1) hmode

/-- The state of the vCPU setup with the frames of the two permission maps. -/
structure VcpuReady (Live : σ → List Extent → Prop) (L : List Extent) (fh fv fm fi : Nat)
    (vcpu : SvmVcpu) (m : Machine σ) : Prop where
  mode : m.mappingReconstructed = true
  live : Live m.pa (⟨fi, 3⟩ :: ⟨fm, 2⟩ :: ⟨fv, 1⟩ :: ⟨fh, 1⟩ :: L)
  hsave : (m.msr MSR_VM_HSAVE_PA).toNat = fh * PAGE_SIZE
  vmcb : vcpu.vmcbPhys.toNat = fv * PAGE_SIZE
  msrpm : vcpu.vmcb.msrpmBasePa.toNat = fm * PAGE_SIZE
  iopm : vcpu.vmcb.iopmBasePa.toNat = fi * PAGE_SIZE

/-- A pointer whose physical address is not that of `NULL` is not `NULL`. -/
theorem ne_null_of_phys {ptr : Nat} (hmode : m.mappingReconstructed = true)
    (h : BitVec.ofNat 64 (m.phys ptr) ≠ NULL_PHYS) : ptr ≠ 0 := by
  rintro rfl
  apply h
  rw [Machine.phys, hmode, NULL_PHYS]

/-- `setup_vmcb_msr`, when the map was obtained. -/
theorem setupVmcbMsr_spec (hlaw : ops.Lawful true Live) (hmode : m.mappingReconstructed = true)
    (hlive : Live m.pa L) {vcpu vcpu' : SvmVcpu}
    (hrun : SvmVcpu.setupVmcbMsr ops vcpu m = .ok (vcpu', m'))
    (hmsr : vcpu'.vmcb.msrpmBasePa ≠ NULL_PHYS) :
    vcpu'.vmcbPhys = vcpu.vmcbPhys ∧ (∃ m1 pa, OnlyWrites m1 m' ∧ m1 = { m with pa := pa }) ∧
      ∃ f, Live m'.pa (⟨f, 2⟩ :: L) ∧ vcpu'.vmcb.msrpmBasePa.toNat = f * PAGE_SIZE := by
  obtain ⟨⟨msrpm, m1⟩, halloc, hret⟩ := Run.bind_eq_ok.mp hrun
  obtain ⟨⟨pa, rfl⟩, hgrant, -⟩ := machine_allocAlignedPages_spec hlaw halloc hlive
    (by decide) (by decide) (by decide) (by decide)
  obtain ⟨rfl, rfl⟩ := Prod.mk.inj (Except.ok.inj hret)
  obtain ⟨f, hf⟩ := hgrant (ne_null_of_phys hmode hmsr)
  exact ⟨rfl, ⟨_, pa, onlyWrites_write _ _ _ _, rfl⟩, f, hf.live,
    hf.toNat_phys (by decide) hmode⟩

/-- `setup_vmcb_ioio`, when the map was obtained. -/
theorem setupVmcbIoio_spec (hlaw : ops.Lawful true Live) (hmode : m.mappingReconstructed = true)
    (hlive : Live m.pa L) {vcpu vcpu' : SvmVcpu}
    (hrun : SvmVcpu.setupVmcbIoio ops vcpu m = .ok (vcpu', m'))
    (hiopm : vcpu'.vmcb.iopmBasePa ≠ NULL_PHYS) :
    vcpu'.vmcbPhys = vcpu.vmcbPhys ∧ vcpu'.vmcb.msrpmBasePa = vcpu.vmcb.msrpmBasePa ∧
      (∃ m1 pa, OnlyWrites m1 m' ∧ m1 = { m with pa := pa }) ∧
      ∃ f, Live m'.pa (⟨f, 3⟩ :: L) ∧ vcpu'.vmcb.iopmBasePa.toNat = f * PAGE_SIZE := by
  obtain ⟨⟨iopm, m1⟩, halloc, hret⟩ := Run.bind_eq_ok.mp hrun
  obtain ⟨⟨pa, rfl⟩, hgrant, -⟩ := machine_allocAlignedPages_spec hlaw halloc hlive
    (by decide) (by decide) (by decide) (by decide)
  obtain ⟨rfl, rfl⟩ := Prod.mk.inj (Except.ok.inj hret)
  -- The fill and the unmasking write memory only, so the live blocks are those of the call.
  have honly := (onlyWrites_write { m with pa := pa } iopm (PAGE_SIZE * 3) _).trans
    (onlyWrites_unmask iopm SvmVcpu.passthroughPorts
      (Machine.memset { m with pa := pa } iopm 0xFF#8 (PAGE_SIZE * 3)))
  have hkeep := honly
  obtain ⟨mem, writes, heq⟩ := hkeep
  have hmode' : (SvmVcpu.passthroughPorts.foldl (fun m port => SvmVcpu.unmaskIopmBit iopm port m)
      (Machine.memset { m with pa := pa } iopm 0xFF#8 (PAGE_SIZE * 3))).mappingReconstructed
      = true := by
    rw [heq]
    exact hmode
  obtain ⟨f, hf⟩ := hgrant (ne_null_of_phys hmode' hiopm)
  refine ⟨rfl, rfl, ⟨{ m with pa := pa }, pa, honly, rfl⟩, f, ?_,
    hf.toNat_phys (by decide) hmode'⟩
  simp only [heq]
  exact hf.live

/-- `vm_init` obtains the host-save area, the VMCB and the permission maps. -/
theorem vmInit_spec (hlaw : ops.Lawful true Live) (hmode : m.mappingReconstructed = true)
    (hlive : Live m.pa L) {vm vm' : Vm}
    (hrun : vmInit ops vm m = .ok (vm', m'))
    (hmsr : vm'.svmvcpu.vmcb.msrpmBasePa ≠ NULL_PHYS)
    (hiopm : vm'.svmvcpu.vmcb.iopmBasePa ≠ NULL_PHYS) :
    ∃ fh fv fm fi, VcpuReady Live L fh fv fm fi vm'.svmvcpu m' := by
  obtain ⟨⟨vcpu1, m1⟩, hvirt, hrest⟩ := Run.bind_eq_ok.mp hrun
  -- The host-save area and the VMCB first, then the permission maps beside them.
  obtain ⟨fh, fv, hv⟩ := virtualize_spec hlaw hmode hlive hvirt
  obtain ⟨⟨vcpu2, m2⟩, hstate, hret⟩ := Run.bind_eq_ok.mp hrest
  obtain ⟨rfl, rfl⟩ := Prod.mk.inj (Except.ok.inj hret)
  obtain ⟨⟨vcpu3, m3⟩, hvmcb, hret2⟩ := Run.bind_eq_ok.mp hstate
  obtain ⟨rfl, rfl⟩ := Prod.mk.inj (Except.ok.inj hret2)
  obtain ⟨⟨vcpu4, m4⟩, hsetMsr, hsetIoio⟩ := Run.bind_eq_ok.mp hvmcb
  -- The first map is in the VMCB the second step starts from.
  have hmsr4 : vcpu4.vmcb.msrpmBasePa ≠ NULL_PHYS := by
    obtain ⟨⟨iopm, m5⟩, -, hret5⟩ := Run.bind_eq_ok.mp hsetIoio
    obtain ⟨rfl, -⟩ := Prod.mk.inj (Except.ok.inj hret5)
    exact hmsr
  obtain ⟨hphys4, ⟨_, pa4, ⟨mem4, writes4, rfl⟩, rfl⟩, fm, hlive4, hfm⟩ :=
    setupVmcbMsr_spec hlaw hv.mode hv.live hsetMsr hmsr4
  obtain ⟨hphys3, hmsrpm3, ⟨_, pa3, ⟨mem3, writes3, rfl⟩, rfl⟩, fi, hlive3, hfi⟩ :=
    setupVmcbIoio_spec hlaw (m := { m1 with pa := pa4, mem := mem4, writes := writes4 })
      hv.mode hlive4 hsetIoio hiopm
  refine ⟨fh, fv, fm, fi, hv.mode, hlive3, hv.hsave, ?_, ?_, hfi⟩
  · show vcpu3.vmcbPhys.toNat = _
    rw [hphys3, hphys4]
    exact hv.vmcb
  · show vcpu3.vmcb.msrpmBasePa.toNat = _
    rw [hmsrpm3]
    exact hfm

/-! ### The guest memory -/

/-- `load_kernel` writes memory only. -/
theorem onlyWrites_loadKernel {guestMem kernelSize initrdSize : Nat}
    {kernel initrd : Nat → BitVec 8}
    (hrun : loadKernel guestMem kernel kernelSize initrd initrdSize m = .ok m') :
    OnlyWrites m m' := by
  obtain ⟨-, -, rfl⟩ := loadKernel_eq_ok.mp hrun
  exact ((((onlyWrites_write _ _ _ _).trans (onlyWrites_write _ _ _ _)).trans
    (onlyWrites_write _ _ _ _)).trans (onlyWrites_write _ _ _ _)).trans (onlyWrites_write _ _ _ _)

/-- The ranges `setup_guest_memory` gives `init_npt`. -/
theorem guestRanges {f : Nat} (hal : f * PAGE_SIZE % PAGE_SIZE_2MB = 0)
    (hdirect : f + GUEST_MEMORY_SIZE / PAGE_SIZE ≤ DIRECT_MAP_FRAMES) :
    SvmNpt.Ranges 0 (f * PAGE_SIZE) GUEST_MEMORY_SIZE := by
  refine ⟨by decide, hal, by decide, ?_⟩
  simp only [GUEST_MEMORY_SIZE, PAGE_SIZE, DIRECT_MAP_FRAMES, DIRECT_MAP_SIZE] at *
  omega

/-- What `setup_guest_memory` adds to a machine on which the blocks `L` are live: the guest
memory in the frames from `f` on, and the nested page table over it. -/
structure GuestMapped (L : List Extent) (f : Nat) (vm vm' : Vm) (m m' : Machine σ) :
    Prop where
  apart : ∀ b ∈ L, b.Disjoint ⟨f, GUEST_MEMORY_SIZE / PAGE_SIZE⟩
  base : m'.phys vm'.guestMem = f * PAGE_SIZE
  msr : m'.msr = m.msr
  vcpu : ∃ nCr3, vm'.svmvcpu = vm.svmvcpu.setNpt nCr3 vm'.guestMem m'
  walk : ∀ g < 2 ^ 48, walk m'.mem 4 vm'.nCr3 g
    = if g < GUEST_MEMORY_SIZE then some (f * PAGE_SIZE + g) else none
  tables : ∀ l t, TableAt m'.mem 4 vm'.nCr3 l t →
    ∃ k, t = k * PAGE_SIZE ∧ k ∉ (⟨f, GUEST_MEMORY_SIZE / PAGE_SIZE⟩ : Extent)

/-- What `init_npt` does when the history of tables is forgotten. -/
theorem initNpt_forget {guestStart hostStart size nCr3 : Nat}
    (hrun : SvmNpt.initNpt ops guestStart hostStart size m = .ok (nCr3, m')) :
    ∃ m1, SvmNpt.initNpt ops guestStart hostStart size { m with tables := [] } = .ok (nCr3, m1) ∧
      m' = m1.withOlder m.tables := by
  have hold := SvmNpt.withOlder_initNpt ops m.tables guestStart hostStart size
    { m with tables := [] }
  have hsame : Machine.withOlder m.tables { m with tables := [] } = m := rfl
  rw [hsame, hrun] at hold
  -- `init_npt` returned with the older tables, so it returns without them.
  cases hnew : SvmNpt.initNpt ops guestStart hostStart size { m with tables := [] } with
  | error e =>
      rw [hnew] at hold
      cases hold
  | ok x =>
      rw [hnew] at hold
      obtain ⟨rfl, rfl⟩ := Prod.mk.inj (Except.ok.inj hold)
      exact ⟨x.2, rfl, rfl⟩

/-- The block of the guest memory, and the ranges `init_npt` maps it with. -/
theorem guestMem_spec (hlaw : ops.Lawful true Live) (hmode : m.mappingReconstructed = true)
    (hlive : Live m.pa L) {guestMem : Nat} (hne : guestMem ≠ 0)
    (hrun : m.allocAlignedPages ops (GUEST_MEMORY_SIZE / PAGE_SIZE) PAGE_SIZE_2MB
      = .ok (guestMem, m')) :
    ∃ pa f, m' = { m with pa := pa } ∧
      Granted Live L (GUEST_MEMORY_SIZE / PAGE_SIZE) guestMem f m' ∧
      SvmNpt.Ranges 0 (f * PAGE_SIZE) GUEST_MEMORY_SIZE := by
  obtain ⟨⟨pa, rfl⟩, hgrant, haligned⟩ := machine_allocAlignedPages_spec hlaw hrun hlive
    (by decide) (by decide) (by decide) (by decide)
  obtain ⟨f, hf⟩ := hgrant hne
  refine ⟨pa, f, rfl, hf, guestRanges ?_ hf.direct⟩
  -- The block is aligned to 2MiB because the call asked for that.
  have hphys : m.phys guestMem = f * PAGE_SIZE := hf.phys (by decide) hmode
  rw [← hphys, Machine.phys, hmode]
  exact haligned hne

theorem setupGuestMemory_spec (hlaw : ops.Lawful true Live)
    (hmode : m.mappingReconstructed = true) (hlive : Live m.pa L)
    {vm vm' : Vm} {kernel initrd : Nat → BitVec 8} {kernelSize initrdSize : Nat}
    (hrun : setupGuestMemory ops vm kernel kernelSize initrd initrdSize m = .ok (vm', m')) :
    ∃ f, GuestMapped L f vm vm' m m' := by
  obtain ⟨⟨guestMem, m1⟩, halloc, hrest⟩ := Run.bind_eq_ok.mp hrun
  obtain ⟨hne, hrest⟩ := Run.ite_error_eq_ok.mp hrest
  obtain ⟨pa1, f, rfl, hf, hranges⟩ := guestMem_spec hlaw hmode hlive hne halloc
  obtain ⟨m2, hload, hrest⟩ := Run.bind_eq_ok.mp hrest
  obtain ⟨mem2, writes2, rfl⟩ := onlyWrites_loadKernel hload
  obtain ⟨⟨nCr3, m3'⟩, hnpt', hret⟩ := Run.bind_eq_ok.mp hrest
  obtain ⟨rfl, rfl⟩ := Prod.mk.inj (Except.ok.inj hret)
  -- The tables obtained before are out of sight.
  obtain ⟨m3, hnpt, rfl⟩ := initNpt_forget
    (m := { m with pa := pa1, mem := mem2, writes := writes2 }) hnpt'
  have hphys : ∀ b : Machine σ, b.mappingReconstructed = true → b.phys guestMem = f * PAGE_SIZE :=
    fun b hb => hf.phys (by decide) hb
  have hsound := sound_of_live
    (m := { m with pa := pa1, mem := mem2, writes := writes2, tables := [] }) hmode rfl hf.live
  rw [hphys { m with pa := pa1, mem := mem2, writes := writes2 } hmode] at hnpt
  obtain ⟨hs3, hg3, hlt, hwalk, htables3⟩ := SvmNpt.initNpt_spec hlaw hranges hsound hnpt
  have hroot : (BitVec.ofNat 64 nCr3).toNat = nCr3 := by
    rw [BitVec.toNat_ofNat, Nat.mod_eq_of_lt (Nat.lt_trans hlt (by decide))]
  have hwhole : GUEST_MEMORY_SIZE / PAGE_SIZE_2MB * PAGE_SIZE_2MB = GUEST_MEMORY_SIZE := by decide
  -- What is left are the walks from `n_cr3` and the tables they visit.
  refine ⟨f, hf.apart, hphys m3 hs3.mode, hg3.msr, ⟨nCr3, rfl⟩, fun g hg => ?_,
    fun l t ht => ?_⟩
  · show Paging.walk m3.mem 4 (BitVec.ofNat 64 nCr3).toNat g = _
    rw [hroot, hwalk g hg, hwhole]
    simp only [Nat.zero_le, true_and, Nat.zero_add, Nat.sub_zero]
  · have ht' : TableAt m3.mem 4 (BitVec.ofNat 64 nCr3).toNat l t := ht
    rw [hroot] at ht'
    obtain ⟨k, hk, rfl⟩ := htables3 l t ht'
    exact ⟨k, rfl, hs3.apart k hk _ List.mem_cons_self⟩

/-- **Guest memory isolation** over any page allocator that meets its contract. -/
theorem setup_isolated (hlaw : ops.Lawful true Live) (hmode : m.mappingReconstructed = true)
    (hlive : Live m.pa L) {vm vm1 vm2 : Vm} {m1 m2 : Machine σ}
    (hinit : vmInit ops vm m = .ok (vm1, m1))
    (hmsr : vm1.svmvcpu.vmcb.msrpmBasePa ≠ NULL_PHYS)
    (hiopm : vm1.svmvcpu.vmcb.iopmBasePa ≠ NULL_PHYS)
    {kernel initrd : Nat → BitVec 8} {kernelSize initrdSize : Nat}
    (hsetup : setupGuestMemory ops vm1 kernel kernelSize initrd initrdSize m1 = .ok (vm2, m2)) :
    Isolated vm2 m2 L := by
  obtain ⟨fh, fv, fm, fi, hready⟩ := vmInit_spec hlaw hmode hlive hinit hmsr hiopm
  obtain ⟨f, hguest⟩ := setupGuestMemory_spec hlaw hready.mode hready.live hsetup
  obtain ⟨nCr3, hvcpu⟩ := hguest.vcpu
  have hbytes : vm2.guestBytes m2
      = ⟨f * PAGE_SIZE, GUEST_MEMORY_SIZE / PAGE_SIZE * PAGE_SIZE⟩ := by
    rw [Vm.guestBytes, hguest.base]
    rfl
  have hapart : ∀ {g k : Nat}, ⟨g, k⟩ ∈ (⟨fi, 3⟩ :: ⟨fm, 2⟩ :: ⟨fv, 1⟩ :: ⟨fh, 1⟩ :: L) →
      (vm2.guestBytes m2).Disjoint ⟨g * PAGE_SIZE, k * PAGE_SIZE⟩ := by
    intro g k hin
    rw [hbytes]
    exact bytes_disjoint_of_frames (hguest.apart _ hin).symm
  -- One page is a block of one frame.
  have hpage : ∀ {g : Nat}, Extent.Disjoint ⟨f, GUEST_MEMORY_SIZE / PAGE_SIZE⟩ ⟨g, 1⟩ →
      (vm2.guestBytes m2).Disjoint ⟨g * PAGE_SIZE, PAGE_SIZE⟩ := by
    intro g hdisj
    rw [hbytes]
    have := bytes_disjoint_of_frames hdisj
    rwa [Nat.one_mul] at this
  have hpage' : ∀ {g : Nat}, ⟨g, 1⟩ ∈ (⟨fi, 3⟩ :: ⟨fm, 2⟩ :: ⟨fv, 1⟩ :: ⟨fh, 1⟩ :: L) →
      (vm2.guestBytes m2).Disjoint ⟨g * PAGE_SIZE, PAGE_SIZE⟩ :=
    fun hin => hpage (hguest.apart _ hin).symm
  refine ⟨fun h => ?_, fun g hg => ?_, fun l t ht => ?_, ?_, ?_, ?_, ?_, fun b hb g hgb => ?_⟩
  · -- The walk reaches exactly the bytes of the guest memory.
    have hsize : GUEST_MEMORY_SIZE < 2 ^ 48 := by decide
    rw [Vm.guestBytes, hguest.base, Extent.mem_mk]
    constructor
    · rintro ⟨g, hg, hw⟩
      rw [hguest.walk g hg] at hw
      split at hw
      · cases hw
        omega
      · cases hw
    · rintro ⟨hlo, hhi⟩
      refine ⟨h - f * PAGE_SIZE, by omega, ?_⟩
      rw [hguest.walk _ (by omega), if_pos (by omega), Nat.add_sub_cancel' hlo]
  · rw [hguest.walk g (by simp only [GUEST_MEMORY_SIZE] at hg; omega), if_pos hg, hguest.base]
  · -- The tables are in frames of their own.
    obtain ⟨k, rfl, hk⟩ := hguest.tables l t ht
    apply hpage
    intro x hx hx'
    rw [Extent.mem_mk] at hx'
    have : x = k := by omega
    exact hk (this ▸ hx)
  · -- The blocks of `vm_init` were live when the guest memory was obtained.
    rw [hvcpu]
    show (vm2.guestBytes m2).Disjoint ⟨vm1.svmvcpu.vmcbPhys.toNat, PAGE_SIZE⟩
    rw [hready.vmcb]
    exact hpage' (by simp)
  · rw [hguest.msr, hready.hsave]
    exact hpage' (by simp)
  · rw [hvcpu]
    show (vm2.guestBytes m2).Disjoint ⟨vm1.svmvcpu.vmcb.msrpmBasePa.toNat, 2 * PAGE_SIZE⟩
    rw [hready.msrpm]
    exact hapart (by simp)
  · rw [hvcpu]
    show (vm2.guestBytes m2).Disjoint ⟨vm1.svmvcpu.vmcb.iopmBasePa.toNat, 3 * PAGE_SIZE⟩
    rw [hready.iopm]
    exact hapart (by simp)
  · apply hpage
    intro x hx hx'
    rw [Extent.mem_mk] at hx'
    -- So were the blocks `L`.
    have hxg : x = g := by omega
    have hin : b ∈ (⟨fi, 3⟩ :: ⟨fm, 2⟩ :: ⟨fv, 1⟩ :: ⟨fh, 1⟩ :: L : List Extent) := by simp [hb]
    exact hguest.apart b hin x (hxg ▸ hgb) hx

/-! ### On the bitmap allocator -/

section Bitmap
open PageAllocator PageAllocatorOps

variable {map : List EfiMemoryDescriptor} {pa₀ : PageAllocator} {m : Machine PageAllocator}

/-- **Guest memory isolation.** `page_allocator_init` left `pa₀`. A run of calls before the
reconstruction of the mapping reached `s`, and a run of calls after it, in which the blocks of
`s` stay where they are, reached `s'`. When `vm_init` and `setup_guest_memory` then return, and
`vm_init` obtained the two permission maps, which it does not check, the guest reaches its
memory and nothing else, and no block that was live meets it. -/
theorem guestMemory_isolated (map : List EfiMemoryDescriptor) (hmap : SortedMap map)
    {pa₀ : PageAllocator} (hinit : pageAllocatorInit map = .ok pa₀) {s s' : PaSys}
    (hs : PaSys.Run false pa₀ s) (hs' : PaSys.Run true s.pa s') {m : Machine PageAllocator}
    (hpa : m.pa = s'.pa) (hmode : m.mappingReconstructed = true)
    {vm vm1 vm2 : Vm} {m1 m2 : Machine PageAllocator}
    (hvm : vmInit (paOps true) vm m = .ok (vm1, m1))
    (hmsr : vm1.svmvcpu.vmcb.msrpmBasePa ≠ NULL_PHYS)
    (hiopm : vm1.svmvcpu.vmcb.iopmBasePa ≠ NULL_PHYS)
    {kernel initrd : Nat → BitVec 8} {kernelSize initrdSize : Nat}
    (hsetup : setupGuestMemory (paOps true) vm1 kernel kernelSize initrd initrdSize m1
      = .ok (vm2, m2)) :
    Isolated vm2 m2 (s'.live.map (blockFrames true) ++ s.live.map (blockFrames false)) := by
  have hok := initOk_of_pageAllocatorInit hmap hinit
  have hlaw := paOps_lawful true hok.consistent
  have hbefore := PaSys.inv_of_run (paOps_lawful false hok.consistent) (owns_init pa₀) hs
  -- In the second run the blocks of the first one are a frame.
  have hafter := PaSys.inv_of_run (hlaw.frame (s.live.map (blockFrames false))) hbefore.live hs'
  exact setup_isolated hlaw hmode (hpa ▸ hafter.live) hvm hmsr hiopm hsetup

/-! ### When the setup returns -/

/-- `alloc_aligned_pages` of pages on a machine. -/
theorem machine_allocPages_returns (hinit : InitOk map pa₀) (hclear : pa₀.Clear)
    (hmode : m.mappingReconstructed = true) {e k : Nat} (h : Below pa₀ e m.pa) (he : 1 ≤ e)
    (hk : 1 ≤ k) (hroom : e + k < pa₀.frameEnd) :
    ∃ ptr pa, m.allocAlignedPages (paOps true) k PAGE_SIZE = .ok (ptr, { m with pa := pa }) ∧
      ptr ≠ 0 ∧ m.phys ptr < DIRECT_MAP_SIZE ∧ Below pa₀ (e + k) pa := by
  obtain ⟨ptr, pa, hrun, hne, hlt, hbelow⟩ := h.allocPages true hinit hclear he hk hroom
  refine ⟨ptr, pa, Run.bind_eq_ok.mpr ⟨_, hrun, rfl⟩, hne, ?_, hbelow⟩
  rw [Machine.phys, hmode]
  exact hlt

/-- `svm_vcpu_virtualize` returns when there are two frames. -/
theorem virtualize_returns (hinit : InitOk map pa₀) (hclear : pa₀.Clear)
    (hmode : m.mappingReconstructed = true) {e : Nat} (h : Below pa₀ e m.pa) (he : 1 ≤ e)
    (hroom : e + 2 < pa₀.frameEnd) (vcpu : SvmVcpu) :
    ∃ vcpu' m', SvmVcpu.virtualize (paOps true) vcpu m = .ok (vcpu', m') ∧
      m'.mappingReconstructed = true ∧ Below pa₀ (e + 2) m'.pa := by
  have hone : framesFor PAGE_SIZE = 1 := by decide
  obtain ⟨hsave, pa1, halloc, hne, hbelow⟩ := h.alloc true hinit hclear he (n := PAGE_SIZE)
    (by decide) (by decide) (by omega)
  rw [hone] at hbelow
  have hrun1 : m.alloc (paOps true) PAGE_SIZE = .ok (hsave, { m with pa := pa1 }) :=
    Run.bind_eq_ok.mpr ⟨_, halloc, rfl⟩
  obtain ⟨vmcb, pa2, hrun2, hne2, -, hbelow2⟩ := machine_allocPages_returns hinit hclear
    (m := Machine.writeMsr { m with pa := pa1 } MSR_VM_HSAVE_PA
      (BitVec.ofNat 64 (Machine.phys { m with pa := pa1 } hsave)))
    hmode hbelow (by omega) (Nat.le_refl 1) (by omega)
  -- Both checks pass.
  have hrun : SvmVcpu.virtualize (paOps true) vcpu m = .ok (_, _) :=
    Run.bind_eq_ok.mpr ⟨_, hrun1,
      (if_neg hne).trans (Run.bind_eq_ok.mpr ⟨_, hrun2, if_neg hne2⟩)⟩
  exact ⟨_, _, hrun, hmode, hbelow2⟩

/-- `setup_vmcb_msr` obtains its map when there are two frames. -/
theorem setupVmcbMsr_returns (hinit : InitOk map pa₀) (hclear : pa₀.Clear)
    (hmode : m.mappingReconstructed = true) {e : Nat} (h : Below pa₀ e m.pa) (he : 1 ≤ e)
    (hroom : e + 2 < pa₀.frameEnd) (vcpu : SvmVcpu) :
    ∃ vcpu' m', SvmVcpu.setupVmcbMsr (paOps true) vcpu m = .ok (vcpu', m') ∧
      m'.mappingReconstructed = true ∧ Below pa₀ (e + 2) m'.pa ∧
      vcpu'.vmcb.msrpmBasePa ≠ NULL_PHYS := by
  obtain ⟨msrpm, pa, hrun, -, hlt, hbelow⟩ := machine_allocPages_returns hinit hclear hmode h he
    (by decide) hroom
  exact ⟨_, _, Run.bind_eq_ok.mpr ⟨_, hrun, rfl⟩, hmode, hbelow, phys_ne_null hlt⟩

/-- `setup_vmcb_ioio` obtains its map when there are three frames. -/
theorem setupVmcbIoio_returns (hinit : InitOk map pa₀) (hclear : pa₀.Clear)
    (hmode : m.mappingReconstructed = true) {e : Nat} (h : Below pa₀ e m.pa) (he : 1 ≤ e)
    (hroom : e + 3 < pa₀.frameEnd) (vcpu : SvmVcpu) :
    ∃ vcpu' m', SvmVcpu.setupVmcbIoio (paOps true) vcpu m = .ok (vcpu', m') ∧
      m'.mappingReconstructed = true ∧ Below pa₀ (e + 3) m'.pa ∧
      vcpu'.vmcb.msrpmBasePa = vcpu.vmcb.msrpmBasePa ∧ vcpu'.vmcb.iopmBasePa ≠ NULL_PHYS := by
  obtain ⟨iopm, pa, hrun, -, hlt, hbelow⟩ := machine_allocPages_returns hinit hclear hmode h he
    (by decide) hroom
  refine ⟨_, _, Run.bind_eq_ok.mpr ⟨_, hrun, rfl⟩, ?_⟩
  -- Unmasking the ports writes memory only.
  obtain ⟨mem, writes, hports⟩ := onlyWrites_unmask iopm SvmVcpu.passthroughPorts
    (Machine.memset { m with pa := pa } iopm 0xFF#8 (PAGE_SIZE * 3))
  simp only [hports]
  exact ⟨hmode, hbelow, trivial, phys_ne_null hlt⟩

/-- `vm_init` returns when there are seven frames, and it obtains the two permission maps. -/
theorem vmInit_returns (hinit : InitOk map pa₀) (hclear : pa₀.Clear)
    (hmode : m.mappingReconstructed = true) {e : Nat} (h : Below pa₀ e m.pa) (he : 1 ≤ e)
    (hroom : e + 7 < pa₀.frameEnd) (vm : Vm) :
    ∃ vm' m', vmInit (paOps true) vm m = .ok (vm', m') ∧ m'.mappingReconstructed = true ∧
      Below pa₀ (e + 7) m'.pa ∧ vm'.svmvcpu.vmcb.msrpmBasePa ≠ NULL_PHYS ∧
      vm'.svmvcpu.vmcb.iopmBasePa ≠ NULL_PHYS := by
  -- Seven frames: one and one, then two and three for the maps.
  obtain ⟨vcpu1, m1, hvirt, hmode1, hbelow1⟩ := virtualize_returns hinit hclear hmode h he
    (by omega) vm.svmvcpu
  obtain ⟨vcpu2, m2, hsetMsr, hmode2, hbelow2, hmsr⟩ := setupVmcbMsr_returns hinit hclear hmode1
    hbelow1 (by omega) (by omega)
    { vcpu1 with vmcb := SvmVcpu.setupVmcbFields vcpu1 }
  obtain ⟨vcpu3, m3, hsetIoio, hmode3, hbelow3, hkeep, hiopm⟩ := setupVmcbIoio_returns hinit
    hclear hmode2 hbelow2 (by omega) (by omega) vcpu2
  have hvmcb : SvmVcpu.setupVmcb (paOps true) vcpu1 m1 = .ok (vcpu3, m3) :=
    Run.bind_eq_ok.mpr ⟨_, hsetMsr, hsetIoio⟩
  have hstate : SvmVcpu.setupGuestState (paOps true) vcpu1 m1 = .ok (_, m3) :=
    Run.bind_eq_ok.mpr ⟨_, hvmcb, rfl⟩
  exact ⟨_, m3, Run.bind_eq_ok.mpr ⟨_, hvirt, Run.bind_eq_ok.mpr ⟨_, hstate, rfl⟩⟩, hmode3,
    hbelow3, hkeep ▸ hmsr, hiopm⟩

/-- `setup_guest_memory` returns when `load_kernel` accepts the images and there is room for the
guest memory from the aligned frame `c` on, and behind it for the tables. -/
theorem setupGuestMemory_returns (hinit : InitOk map pa₀) (hclear : pa₀.Clear)
    (hmode : m.mappingReconstructed = true) {e c : Nat} (h : Below pa₀ e m.pa) (hc : 1 ≤ c)
    (hec : e ≤ c) (hmod : c % (PAGE_SIZE_2MB / PAGE_SIZE) = 0)
    (hroom : c + GUEST_MEMORY_SIZE / PAGE_SIZE + (1 + GUEST_MEMORY_SIZE / PAGE_SIZE_2MB * 2)
      < pa₀.frameEnd) (vm : Vm) (kernel : Nat → BitVec 8) (kernelSize : Nat)
    (initrd : Nat → BitVec 8) (initrdSize : Nat) (hacc : Accepted kernel kernelSize initrdSize)
    (hcode : u64 (LINUX_LAYOUT_KERNEL_BASE + codeSize kernel kernelSize) ≤ GUEST_MEMORY_SIZE) :
    ∃ x, setupGuestMemory (paOps true) vm kernel kernelSize initrd initrdSize m = .ok x := by
  obtain ⟨guestMem, pa1, halloc, hne, -, hbelow⟩ := h.allocAlignedPages true hinit hclear
    (k := GUEST_MEMORY_SIZE / PAGE_SIZE) (a := PAGE_SIZE_2MB) (by decide) (by decide) (by decide)
    (by decide) hc hec hmod (by omega)
  have hrun1 : m.allocAlignedPages (paOps true) (GUEST_MEMORY_SIZE / PAGE_SIZE) PAGE_SIZE_2MB
      = .ok (guestMem, { m with pa := pa1 }) := Run.bind_eq_ok.mpr ⟨_, halloc, rfl⟩
  have hlaw := paOps_lawful true hinit.consistent
  obtain ⟨L, howns, -⟩ := h
  obtain ⟨_, f, -, hf, hranges⟩ := guestMem_spec hlaw hmode howns hne hrun1
  -- The images pass the checks, and `load_kernel` allocates nothing.
  have hload : loadKernel guestMem kernel kernelSize initrd initrdSize { m with pa := pa1 }
      = .ok _ := loadKernel_eq_ok.mpr ⟨hacc, hcode, rfl⟩
  obtain ⟨mem2, writes2, hloaded⟩ := onlyWrites_loadKernel hload
  rw [hloaded] at hload
  have hsound := sound_of_live
    (m := { m with pa := pa1, mem := mem2, writes := writes2, tables := [] }) hmode rfl hf.live
  obtain ⟨x, hnpt⟩ := SvmNpt.initNpt_returns (paOps_stocked true hinit hclear) hlaw hranges hsound
    ⟨_, Nat.le_trans hc (Nat.le_add_right c _), hbelow, hroom⟩
  -- The run without the older tables is the run with them.
  have hnpt' : SvmNpt.initNpt (paOps true) 0 (f * PAGE_SIZE) GUEST_MEMORY_SIZE
      { m with pa := pa1, mem := mem2, writes := writes2 } = .ok _ :=
    (SvmNpt.withOlder_initNpt (paOps true) m.tables 0 (f * PAGE_SIZE) GUEST_MEMORY_SIZE
      { m with pa := pa1, mem := mem2, writes := writes2, tables := [] }).trans
      (congrArg (Except.map _) hnpt)
  have hphys : Machine.phys { m with pa := pa1, mem := mem2, writes := writes2 } guestMem
      = f * PAGE_SIZE := hf.phys (by decide) hmode
  rw [← hphys] at hnpt'
  exact ⟨_, Run.bind_eq_ok.mpr ⟨_, hrun1, (if_neg hne).trans (Run.bind_eq_ok.mpr ⟨_, hload,
    Run.bind_eq_ok.mpr ⟨_, hnpt', rfl⟩⟩)⟩⟩

/-- A call of `alloc` for one page, in a memory with room. -/
theorem run_allocPage {r : Bool} {pa₁ : PageAllocator} (hinit : InitOk map pa₀)
    (hclear : pa₀.Clear) {e : Nat} (he : 1 ≤ e) (hroom : e + 1 ≤ pa₀.frameEnd) {s : PaSys}
    (hs : PaSys.Run r pa₁ s) (h : Below pa₀ e s.pa) :
    ∃ s', PaSys.Run r pa₁ s' ∧ Below pa₀ (e + 1) s'.pa ∧
      s'.live.length = s.live.length + 1 := by
  have hone : framesFor PAGE_SIZE = 1 := by decide
  obtain ⟨ptr, pa, hrun, hne, hbelow⟩ := h.alloc r hinit hclear he (n := PAGE_SIZE) (by decide)
    (by decide) (by omega)
  rw [hone] at hbelow
  have hstep : s.step r (.alloc PAGE_SIZE) = some ⟨pa, ⟨ptr, PAGE_SIZE⟩ :: s.live⟩ := by
    rw [PaSys.step, hrun]
    simp [PaSys.grant, hne, Except.toOption]
  have hpermitted : s.Permitted (.alloc PAGE_SIZE) := by
    constructor <;> decide
  exact ⟨_, .next hs hpermitted hstep, hbelow, rfl⟩

/-- A machine with 128MiB of usable memory. -/
def bootMap : List EfiMemoryDescriptor := [⟨.conventionalMemory, 0x0, 0x8000⟩]

theorem bootMap_sorted : SortedMap bootMap where
  sorted := List.pairwise_singleton _ _
  disjoint := List.pairwise_singleton _ _
  wellFormed := by
    intro d hd
    rw [List.mem_singleton.mp hd]
    exact ⟨by decide, by decide, by decide⟩

/-- The allocator after `page_allocator_init` on that memory. -/
def bootPa : PageAllocator := (pageAllocatorInit bootMap).toOption.getD {}

theorem bootPa_init : pageAllocatorInit bootMap = .ok bootPa := rfl

theorem bootPa_frameEnd : bootPa.frameEnd = 0x8000 := rfl

theorem bootPa_clear : bootPa.Clear := by
  intro f hf
  have hok := initOk_of_pageAllocatorInit bootMap_sorted bootPa_init
  rw [hok.unused_iff f hf]
  refine ⟨_, List.mem_singleton_self _, by decide, ?_⟩
  rw [bootPa_frameEnd] at hf
  rw [Extent.mem_def]
  exact ⟨Nat.zero_le f, by simpa [EfiMemoryDescriptor.frames, phys2frame] using hf⟩

/-- The machine before `vm_init`, with an allocator state. -/
def bootMachine (pa : PageAllocator) : Machine PageAllocator where
  mem _ := 0#8
  pa := pa
  cr3 := 0
  msr _ := 0#64
  mappingReconstructed := true
  tables := []
  writes := []

/-- One page is allocated before the reconstruction and one after it, and then the guest is set
up with a kernel image of one page and no initrd. -/
theorem guestMemory_isolated_bootMachine :
    ∃ s s' vm1 m1 vm2 m2, PaSys.Run false bootPa s ∧ PaSys.Run true s.pa s' ∧
      s.live.length = 1 ∧ s'.live.length = 1 ∧
      vmInit (paOps true) { svmvcpu := svmVcpuNew 0#16 } (bootMachine s'.pa) = .ok (vm1, m1) ∧
      setupGuestMemory (paOps true) vm1 (headerImage 1#8) 4096 (fun _ => 0#8) 0 m1
        = .ok (vm2, m2) ∧
      Isolated vm2 m2 (s'.live.map (blockFrames true) ++ s.live.map (blockFrames false)) := by
  have hok := initOk_of_pageAllocatorInit bootMap_sorted bootPa_init
  have hend := bootPa_frameEnd
  have hstart : Below bootPa 1 bootPa := ⟨[], owns_init bootPa, fun b hb => by cases hb⟩
  -- Each step leaves the live blocks below a known frame, which is how the next one finds room.
  obtain ⟨s, hs, hbelow, hlen⟩ := run_allocPage hok bootPa_clear (Nat.le_refl 1) (by omega)
    (s := ⟨bootPa, []⟩) (r := false) (.start rfl) hstart
  obtain ⟨s', hs', hbelow', hlen'⟩ := run_allocPage hok bootPa_clear (by omega) (by omega)
    (s := ⟨s.pa, []⟩) (r := true) (.start rfl) hbelow
  obtain ⟨vm1, m1, hvm, hmode, hbelow1, hmsr, hiopm⟩ := vmInit_returns hok bootPa_clear
    (m := bootMachine s'.pa) rfl hbelow' (by omega) (by omega) { svmvcpu := svmVcpuNew 0#16 }
  obtain ⟨⟨vm2, m2⟩, hsetup⟩ := setupGuestMemory_returns hok bootPa_clear hmode hbelow1
    (c := 512) (by decide) (by omega) (by decide) (by rw [hend]; decide) vm1 (headerImage 1#8)
    4096 (fun _ => 0#8) 0 ⟨by decide, by decide, by decide⟩ (by decide)
  exact ⟨s, s', vm1, m1, vm2, m2, hs, hs', hlen, hlen', hvm, hsetup,
    guestMemory_isolated bootMap bootMap_sorted bootPa_init hs hs' rfl rfl hvm hmsr hiopm hsetup⟩

end Bitmap

end YmirC
