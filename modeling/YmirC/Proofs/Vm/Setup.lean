import YmirC.Arch.X86.VmSetup
import YmirC.Proofs.Vm.Isolation

/-!
# `YmirC.Proofs.Vm.Setup`: the setup of the virtual machine when memory runs out

Every allocation of `vm_init` and `setup_guest_memory` can fail. Most of them are followed by a
test and a panic. The two permission maps are not: `setup_vmcb_msr` and `setup_vmcb_ioio` fill the
map behind the pointer they get and store its physical address, `NULL` or not.

What a panic leaves behind matters here, so the setup is the program `vmSetupM` of `VmSetup`.
The first part proves that its erasure is the setup of `Vm`, so that the results of `Isolation`
about returns apply. The second part follows the writes: a pointer into the direct map comes
from the allocator, or from the hierarchy `init_npt` builds. `setup_nullSafe_iff` puts the two
together: the setup uses no `NULL` exactly when the calls for the permission maps do not fail.
-/

set_option autoImplicit false

namespace YmirC

open Outcome

variable {σ : Type} (ops : PageAllocatorOps σ)

/-! ### The programs are the functions -/

/-- A loop whose body is a function of its round is the loop over the function. -/
theorem erase_forRange {body : Nat → EStateM Halt σ Unit} {f : Nat → σ → Run σ}
    (h : ∀ i s, erase (body i) s = (f i s).map fun s' => ((), s')) (s : σ) :
    ∀ n, erase (forRange body n) s = (Run.forRange f n s).map fun s' => ((), s') := by
  intro n
  induction n with
  | zero => rfl
  | succ n ih =>
      rw [forRange, erase_bind, ih, Run.forRange]
      apply Run.map_bind
      exact h n

theorem erase_allocateTableM (m : Machine σ) :
    erase (allocateTableM ops) m = allocateTable ops m := by
  simp only [allocateTableM, Machine.allocAlignedPagesM, Machine.allocAlignedPages, erase_bind,
    erase_ofExcept, allocateTable]
  cases ops.allocAlignedPages 1 PAGE_SIZE m.pa with
  | error e => rfl
  | ok p =>
      simp only [Run.bind_ok, erase_ite, erase_throw, erase_bind, erase_modify, erase_pure]
      split
      · rfl
      · rfl

namespace SvmNpt

theorem erase_initializeTableReferenceEntryM (table i : Nat) (m : Machine σ) :
    erase (initializeTableReferenceEntryM ops table i) m
      = (initializeTableReferenceEntry ops table i m).map fun m' => ((), m') := by
  simp only [initializeTableReferenceEntryM, erase_bind, erase_allocateTableM,
    initializeTableReferenceEntry]
  cases allocateTable ops m with
  | error e => rfl
  | ok p => rfl

theorem erase_ensureTableM (table i : Nat) (m : Machine σ) :
    erase (ensureTableM ops table i) m
      = (ensureTable ops table i m).map fun m' => ((), m') := by
  simp only [ensureTableM, erase_bind, erase_get, Run.bind_ok, erase_ite, erase_pure, ensureTable]
  split
  · exact erase_initializeTableReferenceEntryM ops table i m
  · rfl

theorem erase_lv2EntryM (gpa lv4tbl : Nat) (m : Machine σ) :
    erase (lv2EntryM ops gpa lv4tbl) m = lv2Entry ops gpa lv4tbl m := by
  simp only [lv2EntryM, erase_bind, erase_get, erase_pure, Run.bind_ok, erase_ensureTableM,
    lv2Entry]
  cases ensureTable ops lv4tbl (entryIndex gpa lv4Shift) m with
  | error e => rfl
  | ok m1 =>
      simp only [Except.map, Run.bind_ok]
      cases ensureTable ops _ _ m1 with
      | error e => rfl
      | ok m2 => rfl

theorem erase_map2mM (gpa hpa lv4tbl : Nat) (m : Machine σ) :
    erase (map2mM ops gpa hpa lv4tbl) m
      = (map2m ops gpa hpa lv4tbl m).map fun m' => ((), m') := by
  simp only [map2mM, erase_bind, erase_lv2EntryM, erase_get, Run.bind_ok, erase_ite, erase_throw,
    erase_modify, map2m]
  cases lv2Entry ops gpa lv4tbl m with
  | error e => rfl
  | ok p =>
      simp only [Run.bind_ok]
      split
      · rfl
      · rfl

theorem erase_initNptM (guestStart hostStart size : Nat) (m : Machine σ) :
    erase (initNptM ops guestStart hostStart size) m = initNpt ops guestStart hostStart size m := by
  simp only [initNptM, erase_bind, erase_allocateTableM, erase_get, erase_pure, Run.bind_ok,
    initNpt]
  cases allocateTable ops m with
  | error e => rfl
  | ok p =>
      have hloop : erase (forRange (fun i => map2mM ops (u64 (guestStart + PAGE_SIZE_2MB * i))
          (u64 (hostStart + PAGE_SIZE_2MB * i)) p.1) (size / PAGE_SIZE_2MB)) p.2 = _ :=
        erase_forRange (fun i => erase_map2mM ops _ _ p.1) p.2 (size / PAGE_SIZE_2MB)
      simp only [Run.bind_ok, hloop]
      cases Run.forRange _ _ p.2 with
      | error e => rfl
      | ok m1 => rfl

end SvmNpt

section Load
variable (guestMem : Nat) (kernel : Nat → BitVec 8) (kernelSize : Nat) (initrd : Nat → BitVec 8)
  (initrdSize : Nat)

theorem erase_loadImageM (memory memorySize : Nat) (image : Nat → BitVec 8) (imageSize addr : Nat)
    (m : Machine σ) :
    erase (loadImageM memory memorySize image imageSize addr) m
      = (loadImage memory memorySize image imageSize addr m).map fun m' => ((), m') := by
  simp only [loadImageM, erase_ite, erase_throw, erase_modify, loadImage]
  split
  · rfl
  · rfl

theorem erase_loadKernelM (m : Machine σ) :
    erase (loadKernelM guestMem kernel kernelSize initrd initrdSize) m
      = (loadKernel guestMem kernel kernelSize initrd initrdSize m).map fun m' => ((), m') := by
  simp only [loadKernelM, erase_ite, erase_throw, erase_bind, erase_modify, Run.bind_ok,
    erase_loadImageM, loadKernel]
  split
  · rfl
  split
  · rfl
  split
  · rfl
  apply Run.map_bind
  intro m1
  apply Run.map_bind
  intro m2
  rfl

end Load

namespace SetupState

theorem erase_onMachine {α : Type} (x : EStateM Halt (Machine σ) α) (s : SetupState σ) :
    erase (onMachine x) s = (erase x s.machine).map fun p => (p.1, { s with machine := p.2 }) :=
  erase_zoom _ _ s

/-- The state after a function of the vCPU and the host. -/
def withVcpu (s : SetupState σ) (p : SvmVcpu × Machine σ) : Unit × SetupState σ :=
  ((), { vm := { s.vm with svmvcpu := p.1 }, machine := p.2 })

end SetupState

namespace SvmVcpu

open SetupState

theorem erase_virtualizeM (s : SetupState σ) :
    erase (virtualizeM ops) s = (virtualize ops s.vm.svmvcpu s.machine).map s.withVcpu := by
  simp only [virtualizeM, Machine.allocM, Machine.allocAlignedPagesM, erase_bind, erase_onMachine,
    erase_ofExcept, erase_modify, erase_ite, erase_throw, virtualize]
  cases s.machine.alloc ops PAGE_SIZE with
  | error e => rfl
  | ok p =>
      simp only [Except.map, Run.bind_ok]
      split
      · rfl
      cases Machine.allocAlignedPages ops 1 PAGE_SIZE _ with
      | error e => rfl
      | ok q =>
          simp only [Run.bind_ok]
          split
          · rfl
          · rfl

theorem erase_setupVmcbMsrM (s : SetupState σ) :
    erase (setupVmcbMsrM ops) s = (setupVmcbMsr ops s.vm.svmvcpu s.machine).map s.withVcpu := by
  simp only [setupVmcbMsrM, Machine.allocAlignedPagesM, erase_bind, erase_onMachine,
    erase_ofExcept, erase_modify, setupVmcbMsr]
  cases s.machine.allocAlignedPages ops 2 PAGE_SIZE with
  | error e => rfl
  | ok p => rfl

theorem erase_setupVmcbIoioM (s : SetupState σ) :
    erase (setupVmcbIoioM ops) s = (setupVmcbIoio ops s.vm.svmvcpu s.machine).map s.withVcpu := by
  simp only [setupVmcbIoioM, Machine.allocAlignedPagesM, erase_bind, erase_onMachine,
    erase_ofExcept, erase_modify, setupVmcbIoio]
  cases s.machine.allocAlignedPages ops 3 PAGE_SIZE with
  | error e => rfl
  | ok p => rfl

theorem erase_setupVmcbM (s : SetupState σ) :
    erase (setupVmcbM ops) s = (setupVmcb ops s.vm.svmvcpu s.machine).map s.withVcpu := by
  simp only [setupVmcbM, erase_bind, erase_modify, Run.bind_ok, erase_setupVmcbMsrM, setupVmcb,
    setVcpu]
  apply Run.map_bind
  intro p
  exact erase_setupVmcbIoioM ops _

theorem erase_setupGuestStateM (s : SetupState σ) :
    erase (setupGuestStateM ops) s
      = (setupGuestState ops s.vm.svmvcpu s.machine).map s.withVcpu := by
  simp only [setupGuestStateM, erase_bind, erase_setupVmcbM, setupGuestState]
  apply Run.map_bind
  intro p
  rfl

end SvmVcpu

section Vm
variable (kernel : Nat → BitVec 8) (kernelSize : Nat) (initrd : Nat → BitVec 8) (initrdSize : Nat)

theorem erase_vmInitM (s : SetupState σ) :
    erase (vmInitM ops) s = (vmInit ops s.vm s.machine).map fun p => ((), ⟨p.1, p.2⟩) := by
  simp only [vmInitM, erase_bind, SvmVcpu.erase_virtualizeM, vmInit]
  apply Run.map_bind
  intro p
  simp only [SetupState.withVcpu, SvmVcpu.erase_setupGuestStateM]
  cases SvmVcpu.setupGuestState ops p.1 p.2 with
  | error e => rfl
  | ok q => rfl

theorem erase_setupGuestMemoryM (s : SetupState σ) :
    erase (setupGuestMemoryM ops kernel kernelSize initrd initrdSize) s
      = (setupGuestMemory ops s.vm kernel kernelSize initrd initrdSize s.machine).map
          fun p => ((), ⟨p.1, p.2⟩) := by
  simp only [setupGuestMemoryM, Machine.allocAlignedPagesM, erase_bind, SetupState.erase_onMachine,
    erase_ofExcept, erase_modify, erase_ite, erase_throw, erase_get, Run.bind_ok,
    erase_loadKernelM, SvmNpt.erase_initNptM, setupGuestMemory]
  cases s.machine.allocAlignedPages ops (GUEST_MEMORY_SIZE / PAGE_SIZE) PAGE_SIZE_2MB with
  | error e => rfl
  | ok p =>
      simp only [Except.map, Run.bind_ok]
      split
      · rfl
      cases loadKernel p.1 kernel kernelSize initrd initrdSize p.2 with
      | error e => rfl
      | ok m1 =>
          simp only [Run.bind_ok]
          cases SvmNpt.initNpt ops 0 (m1.phys p.1) GUEST_MEMORY_SIZE m1 with
          | error e => rfl
          | ok q => rfl

end Vm

/-! ### Writes -/

section Writes
variable {ops} {Live : σ → List Extent → Prop} {L : List Extent} {m m' : Machine σ}

/-- Every write went to the direct map, where the blocks of the allocator are. The addresses
behind `NULL` are not in it. -/
def Machine.WritesDirect (m : Machine σ) : Prop := ∀ w ∈ m.writes, DIRECT_MAP_BASE ≤ w.start

/-- The code panicked, and until then every write went to the direct map. -/
def PanickedDirect (e : Halt) (m : Machine σ) : Prop := (∃ msg, e = .panic msg) ∧ m.WritesDirect

theorem base_le_phys2virt {f : Nat} (hf : f < DIRECT_MAP_FRAMES) :
    DIRECT_MAP_BASE ≤ phys2virt true (f * PAGE_SIZE) := by
  rw [phys2virt_true (PageAllocatorOps.frame_lt_direct hf)]
  exact Nat.le_add_left _ _

theorem Granted.base_le {k ptr f : Nat} (h : Granted Live L k ptr f m) (hk : 1 ≤ k) :
    DIRECT_MAP_BASE ≤ ptr := by
  have hdirect := h.direct
  rw [h.ptr_eq]
  exact base_le_phys2virt (by omega)

theorem Machine.WritesDirect.write (h : m.WritesDirect) {ptr : Nat} (hptr : DIRECT_MAP_BASE ≤ ptr)
    (n : Nat) (mem : ByteMemory.Mem) : (m.write ptr n mem).WritesDirect := by
  intro w hw
  rcases List.mem_cons.mp hw with rfl | hw
  · exact hptr
  · exact h w hw

theorem Machine.WritesDirect.setEntry (h : m.WritesDirect) {table : Nat}
    (htable : DIRECT_MAP_BASE ≤ table) (i : Nat) (v : BitVec 64) :
    (m.setEntry table i v).WritesDirect :=
  h.write (Nat.le_add_right_of_le htable) _ _

theorem Machine.WritesDirect.clearEntries (h : m.WritesDirect) {table : Nat}
    (htable : DIRECT_MAP_BASE ≤ table) : ∀ n, (m.clearEntries table n).WritesDirect := by
  intro n
  induction n with
  | zero => exact h
  | succ n ih => exact ih.setEntry htable n 0#64

/-- A function that only changes the state, when it returned. -/
theorem map_unit_eq_ok {α : Type} {x : Run α} {u : Unit} {a : α} :
    (x.map fun a => ((), a)) = .ok (u, a) ↔ x = .ok a := by
  simp [Run.map_eq_ok]

/-- `allocate_table` writes through the pointer it obtained, after it looked at it. -/
theorem ends_allocateTableM (hlaw : ops.Lawful true Live) (hlive : Live m.pa L)
    (h : m.WritesDirect) :
    Ends (allocateTableM ops) m (fun _ m' => m'.WritesDirect) PanickedDirect := by
  obtain ⟨p, pa, halloc, hans, -⟩ := hlaw.allocAlignedPages hlive (k := 1) (a := PAGE_SIZE)
    (by decide) (by decide) (by decide) (by decide)
  have hrun : m.allocAlignedPages ops 1 PAGE_SIZE = .ok (p, { m with pa := pa }) :=
    Run.bind_eq_ok.mpr ⟨_, halloc, rfl⟩
  rw [allocateTableM, Machine.allocAlignedPagesM, ends_bind_of_run (run_ofExcept hrun)]
  split
  · exact ⟨⟨_, rfl⟩, h⟩
  · rename_i hne
    obtain ⟨f, hf⟩ := granted_of_answer (m := { m with pa := pa }) hans hne
    rw [ends_modify_bind, ends_modify_bind, ends_pure]
    apply Machine.WritesDirect.clearEntries
    · exact h
    · exact hf.base_le (Nat.le_refl 1)

namespace SvmNpt

theorem ends_ensureTableM (hlaw : ops.Lawful true Live) (hs : Sound true Live L m)
    (h : m.WritesDirect) {table : Nat} (htable : DIRECT_MAP_BASE ≤ table) (i : Nat) :
    Ends (ensureTableM ops table i) m (fun _ m' => m'.WritesDirect) PanickedDirect := by
  rw [ensureTableM, ends_get_bind]
  split
  · refine Ends.bind (ends_allocateTableM hlaw hs.live h) ?_
    intro lowertbl m1 _ hm1
    rw [ends_modify]
    exact hm1.setEntry htable i _
  · exact h

variable {tbl page : List Nat → Option Nat} {m₀ : Machine σ}

/-- The tables on the way to the level-2 entry are behind pointers of the hierarchy. -/
theorem ends_lv2EntryM (hlaw : ops.Lawful true Live) (hs : Sound true Live L m)
    (hmapped : Mapped m₀ tbl page m) (h : m.WritesDirect) {f4 : Nat} (gpa : Nat)
    (hroot : tbl [] = some f4) :
    Ends (lv2EntryM ops gpa (phys2virt true (f4 * PAGE_SIZE))) m (fun _ m' => m'.WritesDirect)
      PanickedDirect := by
  refine Ends.bind (ends_ensureTableM hlaw hs h
    (base_le_phys2virt (hs.direct f4 (hmapped.tables hroot))) _) ?_
  intro _ m1 hrun1 hm1
  rw [erase_ensureTableM, map_unit_eq_ok] at hrun1
  obtain ⟨hs1, tbl1, g3, h1, hmono1, hg3⟩ := ensureTable_mapped hlaw hs hmapped hroot (by simp)
    (Paging.index_lt 4 gpa) hrun1
  have hroot1 := hmono1 _ _ hroot
  -- The entry refers to a table in a frame the allocator granted, so its pointer is in the direct
  -- map.
  have hentry4 : physOf (m1.entry (phys2virt true (f4 * PAGE_SIZE)) (entryIndex gpa lv4Shift))
      = g3 * PAGE_SIZE := by
    rw [m1.entry_eq, hs1.phys_phys2virt (h1.tables hroot1)]
    exact h1.physOf_entry hroot1 (Paging.index_lt 4 gpa) hg3
  rw [ends_get_bind]
  simp only [getEntryAddress, hentry4, hs1.mode]
  refine Ends.bind (ends_ensureTableM hlaw hs1 hm1
    (base_le_phys2virt (hs1.direct g3 (h1.tables hg3))) _) ?_
  intro _ m2 _ hm2
  rw [ends_get_bind, ends_pure]
  exact hm2

theorem ends_map2mM (hlaw : ops.Lawful true Live) (hs : Sound true Live L m)
    (hmapped : Mapped m₀ tbl page m) (h : m.WritesDirect) {f4 : Nat} (gpa hpa : Nat)
    (hroot : tbl [] = some f4) :
    Ends (map2mM ops gpa hpa (phys2virt true (f4 * PAGE_SIZE))) m (fun _ m' => m'.WritesDirect)
      PanickedDirect := by
  refine Ends.bind (ends_lv2EntryM hlaw hs hmapped h gpa hroot) ?_
  rintro ⟨lv2tbl, lv2index⟩ m1 hrun hm1
  rw [erase_lv2EntryM] at hrun
  obtain ⟨hs1, tbl1, f, -, h1, hf, htbl, -⟩ := lv2Entry_mapped hlaw hs hmapped hroot hrun
  -- The level-2 table is one of the hierarchy too.
  have hbase : DIRECT_MAP_BASE ≤ lv2tbl := by
    rw [htbl]
    exact base_le_phys2virt (hs1.direct f (h1.tables hf))
  rw [ends_get_bind]
  split
  · rw [ends_throw]
    exact ⟨⟨_, rfl⟩, hm1⟩
  · rw [ends_modify]
    exact hm1.setEntry hbase _ _

/-- `init_npt` writes to tables it obtained, and panics when it does not obtain one. -/
theorem ends_initNptM (hlaw : ops.Lawful true Live) (hs : Sound true Live L m)
    {guestStart hostStart size : Nat} (hr : Ranges guestStart hostStart size)
    (h : m.WritesDirect) :
    Ends (initNptM ops guestStart hostStart size) m (fun _ m' => m'.WritesDirect)
      PanickedDirect := by
  refine Ends.bind (ends_allocateTableM hlaw hs.live h) ?_
  intro ptr m1 hrun hm1
  rw [erase_allocateTableM] at hrun
  obtain ⟨f4, -, hptr, hstart⟩ := Loop.start guestStart hostStart hlaw hs hrun
  rw [hptr]
  -- The loop keeps the hierarchy, so each round starts from tables that were obtained.
  refine Ends.bind (ends_forRange (fun n b => b.WritesDirect ∧
    Loop true Live L m f4 guestStart hostStart n b) ⟨hm1, hstart⟩ (size / PAGE_SIZE_2MB) ?_) ?_
  · rintro n hn b ⟨hb, hloop⟩
    obtain ⟨hsb, tbl, page, hroot, hmapped, -⟩ := id hloop
    have hbody := ends_map2mM hlaw hsb hmapped hb (u64 (guestStart + PAGE_SIZE_2MB * n))
      (u64 (hostStart + PAGE_SIZE_2MB * n)) hroot
    have hret : Ends (map2mM ops (u64 (guestStart + PAGE_SIZE_2MB * n))
        (u64 (hostStart + PAGE_SIZE_2MB * n)) (phys2virt true (f4 * PAGE_SIZE))) b
        (fun _ b' => Loop true Live L m f4 guestStart hostStart (n + 1) b') (fun _ _ => True) := by
      apply ends_of_erase
      intro _ b' hb'
      rw [erase_map2mM, map_unit_eq_ok] at hb'
      exact hloop.step hlaw hr hn hb'
    exact (hbody.and hret).mono (fun _ _ hq => hq) (fun _ _ he => he.1)
  · intro _ m2 _ hm2
    rw [ends_get_bind, ends_pure]
    exact hm2.1

end SvmNpt

/-- `load_kernel` writes to the guest memory. -/
theorem ends_loadImageM {memory : Nat} (hmemory : DIRECT_MAP_BASE ≤ memory) (memorySize : Nat)
    (image : Nat → BitVec 8) (imageSize addr : Nat) (h : m.WritesDirect) :
    Ends (loadImageM memory memorySize image imageSize addr) m (fun _ m' => m'.WritesDirect)
      PanickedDirect := by
  unfold loadImageM
  split
  · rw [ends_throw]
    exact ⟨⟨_, rfl⟩, h⟩
  · rw [ends_modify]
    exact h.write (Nat.le_add_right_of_le hmemory) _ _

theorem ends_loadKernelM {guestMem : Nat} (hguest : DIRECT_MAP_BASE ≤ guestMem)
    (kernel : Nat → BitVec 8) (kernelSize : Nat) (initrd : Nat → BitVec 8) (initrdSize : Nat)
    (h : m.WritesDirect) :
    Ends (loadKernelM guestMem kernel kernelSize initrd initrdSize) m
      (fun _ m' => m'.WritesDirect) PanickedDirect := by
  unfold loadKernelM
  split
  · rw [ends_throw]
    exact ⟨⟨_, rfl⟩, h⟩
  -- The command line is written before the checks of the initrd, so it counts in their panics.
  have hcmdline : (loadCmdline guestMem (kernelBootParams kernel) m).WritesDirect :=
    (h.write (Nat.le_add_right_of_le hguest) _ _).write (Nat.le_add_right_of_le hguest) _ _
  simp only
  rw [ends_modify_bind]
  split
  · rw [ends_throw]
    exact ⟨⟨_, rfl⟩, hcmdline⟩
  split
  · rw [ends_throw]
    exact ⟨⟨_, rfl⟩, hcmdline⟩
  -- The initrd, the boot parameters and the code.
  refine Ends.bind (ends_loadImageM hguest _ _ _ _ hcmdline) ?_
  generalize loadedBootParams kernel initrdSize = bp
  intro _ m2 _ hm2
  refine Ends.bind (ends_loadImageM hguest _ _ _ _ hm2) ?_
  intro _ m3 _ hm3
  exact ends_loadImageM hguest _ _ _ _ hm3

end Writes

/-! ### What the setup leaves -/

/-- The virtual machine as `vm_new` returns it, on the host `m`. The two histories start with
the setup. -/
def SetupState.start (asid : BitVec 16) (m : Machine σ) : SetupState σ where
  vm := { svmvcpu := svmVcpuNew asid }
  machine := { m with tables := [], writes := [] }

/-- No `NULL` was used: every write went to the direct map, and no field of the VMCB is the
physical address of `NULL`. -/
structure NullSafe (s : SetupState σ) : Prop where
  writes : s.machine.WritesDirect
  msrpm : s.vm.svmvcpu.vmcb.msrpmBasePa ≠ NULL_PHYS
  iopm : s.vm.svmvcpu.vmcb.iopmBasePa ≠ NULL_PHYS
  nCr3 : s.vm.svmvcpu.vmcb.nCr3 ≠ NULL_PHYS

/-- The code panicked, and until then no `NULL` was used. -/
def PanickedSafe (e : Halt) (s : SetupState σ) : Prop := (∃ msg, e = .panic msg) ∧ NullSafe s

/-- The blocks of bytes the processor is given by their physical addresses, with the sizes it
expects: the root of the nested page table, the two permission maps, the VMCB and the host-save
area. -/
def SetupState.processorBlocks (s : SetupState σ) : List Extent :=
  [⟨s.vm.nCr3, PAGE_SIZE⟩, ⟨s.vm.svmvcpu.vmcb.iopmBasePa.toNat, 3 * PAGE_SIZE⟩,
    ⟨s.vm.svmvcpu.vmcb.msrpmBasePa.toNat, 2 * PAGE_SIZE⟩,
    ⟨s.vm.svmvcpu.vmcbPhys.toNat, PAGE_SIZE⟩, ⟨(s.machine.msr MSR_VM_HSAVE_PA).toNat, PAGE_SIZE⟩]

/-- The bytes of a block of frames. -/
def frameBytes (b : Extent) : Extent := ⟨b.start * PAGE_SIZE, b.len * PAGE_SIZE⟩

/-- The setup is complete: the processor was given live blocks, obtained beside the blocks `L`
that were live before, and no two of them meet. -/
structure Completed (Live : σ → List Extent → Prop) (L : List Extent) (s : SetupState σ) :
    Prop where
  live : ∃ M, Live s.machine.pa (M ++ L) ∧ ∀ b ∈ s.processorBlocks, ∃ f ∈ M, b = frameBytes f
  apart : s.processorBlocks.Pairwise Extent.Disjoint

/-- When the host-save area and the VMCB are obtained, so are the two permission maps. -/
def MapsObtained (ops : PageAllocatorOps σ) (pa : σ) : Prop :=
  ∀ hsave pa1 vmcb pa2, ops.alloc PAGE_SIZE pa = .ok (hsave, pa1) → hsave ≠ 0 →
    ops.allocAlignedPages 1 PAGE_SIZE pa1 = .ok (vmcb, pa2) → vmcb ≠ 0 →
    ∃ msrpm pa3 iopm pa4, ops.allocAlignedPages 2 PAGE_SIZE pa2 = .ok (msrpm, pa3) ∧ msrpm ≠ 0 ∧
      ops.allocAlignedPages 3 PAGE_SIZE pa3 = .ok (iopm, pa4) ∧ iopm ≠ 0

namespace SetupState

variable {α β : Type} {s : SetupState σ} {Q : β → SetupState σ → Prop}
  {E : Halt → SetupState σ → Prop}

/-- A call on the host that returns, and what follows it. -/
theorem ends_call_bind {x : EStateM Halt (Machine σ) α} {a : α} {m' : Machine σ}
    (hx : x.run s.machine = .ok a m') {k : α → EStateM Halt (SetupState σ) β} :
    Ends (onMachine x >>= k) s Q E ↔ Ends (k a) { s with machine := m' } Q E :=
  ends_bind_of_run (run_zoom hx)

/-- A write on the host, and what follows it. -/
theorem ends_write_bind (g : Machine σ → Machine σ) {k : PUnit → EStateM Halt (SetupState σ) β} :
    Ends (onMachine (modify g) >>= k) s Q E
      ↔ Ends (k ⟨⟩) { s with machine := g s.machine } Q E := Iff.rfl

/-- A program on the host leaves the virtual machine alone. -/
theorem ends_onMachine_vm (x : EStateM Halt (Machine σ) α) :
    Ends (onMachine x) s (fun _ s' => s'.vm = s.vm) (fun _ s' => s'.vm = s.vm) := by
  apply Ends.zoom
  exact ends_true.mono (fun _ _ _ => rfl) (fun _ _ _ => rfl)

end SetupState

theorem SetupState.erase_onMachine_eq_ok {α : Type} {x : EStateM Halt (Machine σ) α}
    {s s' : SetupState σ} {a : α} :
    erase (onMachine x) s = .ok (a, s') ↔
      ∃ m', erase x s.machine = .ok (a, m') ∧ s' = { s with machine := m' } := by
  rw [erase_onMachine, Run.map_eq_ok]
  constructor
  · rintro ⟨p, hx, heq⟩
    obtain ⟨rfl, rfl⟩ := Prod.mk.inj heq
    exact ⟨p.2, hx, rfl⟩
  · rintro ⟨m', hx, rfl⟩
    exact ⟨(a, m'), hx, rfl⟩

/-- It depends on the writes and on the vCPU only. -/
theorem NullSafe.congr {s s' : SetupState σ} (h : NullSafe s)
    (hwrites : s'.machine.writes = s.machine.writes) (hvcpu : s'.vm.svmvcpu = s.vm.svmvcpu) :
    NullSafe s' := by
  refine ⟨?_, hvcpu ▸ h.msrpm, hvcpu ▸ h.iopm, hvcpu ▸ h.nCr3⟩
  intro w hw
  rw [hwrites] at hw
  exact h.writes w hw

/-- A program on the host that writes to the direct map only uses no `NULL`. -/
theorem NullSafe.onMachine {α : Type} {x : EStateM Halt (Machine σ) α} {s : SetupState σ}
    (h : NullSafe s)
    (hx : Ends x s.machine (fun _ m' => m'.WritesDirect) PanickedDirect) :
    Ends (SetupState.onMachine x) s (fun _ s' => NullSafe s') PanickedSafe := by
  apply Ends.zoom
  apply hx.mono
  · exact fun _ m' hm' => ⟨hm', h.msrpm, h.iopm, h.nCr3⟩
  · exact fun e m' hm' => ⟨hm'.1, hm'.2, h.msrpm, h.iopm, h.nCr3⟩

section Init
variable {ops} {s s' : SetupState σ} {E : Halt → SetupState σ → Prop}

theorem Machine.run_allocM {m : Machine σ} {n p : Nat} {pa : σ}
    (h : ops.alloc n m.pa = .ok (p, pa)) :
    (Machine.allocM ops n).run m = .ok p { m with pa := pa } :=
  run_ofExcept (Run.bind_eq_ok.mpr ⟨_, h, rfl⟩)

theorem Machine.run_allocAlignedPagesM {m : Machine σ} {k a p : Nat} {pa : σ}
    (h : ops.allocAlignedPages k a m.pa = .ok (p, pa)) :
    (Machine.allocAlignedPagesM ops k a).run m = .ok p { m with pa := pa } :=
  run_ofExcept (Run.bind_eq_ok.mpr ⟨_, h, rfl⟩)

/-- Unmasking the ports writes behind `iopm`. -/
theorem Machine.WritesDirect.unmask {iopm : Nat} (hiopm : DIRECT_MAP_BASE ≤ iopm) :
    ∀ (ports : List Nat) {m : Machine σ}, m.WritesDirect →
      (ports.foldl (fun m port => SvmVcpu.unmaskIopmBit iopm port m) m).WritesDirect := by
  intro ports
  induction ports with
  | nil => exact fun h => h
  | cons port rest ih =>
      intro m h
      exact ih (h.write (Nat.le_add_right_of_le hiopm) _ _)

theorem unmask_mode (iopm : Nat) (ports : List Nat) (m : Machine σ) :
    (ports.foldl (fun m port => SvmVcpu.unmaskIopmBit iopm port m) m).mappingReconstructed
      = m.mappingReconstructed := by
  obtain ⟨mem, writes, heq⟩ := onlyWrites_unmask iopm ports m
  rw [heq]

theorem unmask_tables (iopm : Nat) (ports : List Nat) (m : Machine σ) :
    (ports.foldl (fun m port => SvmVcpu.unmaskIopmBit iopm port m) m).tables = m.tables := by
  obtain ⟨mem, writes, heq⟩ := onlyWrites_unmask iopm ports m
  rw [heq]

/-- What `vm_init` leaves in `s'` when the host-save area and the VMCB are obtained, and the
calls for the permission maps returned `msrpm` and `iopm`. -/
structure Initialised (s s' : SetupState σ) (vmcb msrpm iopm : Nat) : Prop where
  mode : s'.machine.mappingReconstructed = s.machine.mappingReconstructed
  tables : s'.machine.tables = s.machine.tables
  writes : s.machine.WritesDirect → DIRECT_MAP_BASE ≤ vmcb → DIRECT_MAP_BASE ≤ msrpm →
    DIRECT_MAP_BASE ≤ iopm → s'.machine.WritesDirect
  msrpm : s'.vm.svmvcpu.vmcb.msrpmBasePa = BitVec.ofNat 64 (s.machine.phys msrpm)
  iopm : s'.vm.svmvcpu.vmcb.iopmBasePa = BitVec.ofNat 64 (s.machine.phys iopm)
  nCr3 : s'.vm.svmvcpu.vmcb.nCr3 = 0#64

theorem ends_vmInitM {hsave vmcb msrpm iopm : Nat} {pa1 pa2 pa3 pa4 : σ}
    (h1 : ops.alloc PAGE_SIZE s.machine.pa = .ok (hsave, pa1)) (hne1 : hsave ≠ 0)
    (h2 : ops.allocAlignedPages 1 PAGE_SIZE pa1 = .ok (vmcb, pa2)) (hne2 : vmcb ≠ 0)
    (h3 : ops.allocAlignedPages 2 PAGE_SIZE pa2 = .ok (msrpm, pa3))
    (h4 : ops.allocAlignedPages 3 PAGE_SIZE pa3 = .ok (iopm, pa4)) :
    Ends (vmInitM ops) s (fun _ s' => Initialised s s' vmcb msrpm iopm) E := by
  -- One rewrite for each call and each write of the source, in their order.
  rw [vmInitM, SvmVcpu.virtualizeM, bind_assoc,
    SetupState.ends_call_bind (Machine.run_allocM h1)]
  simp only [if_neg hne1, bind_assoc]
  rw [SetupState.ends_write_bind]
  rw [SetupState.ends_call_bind (Machine.run_allocAlignedPagesM h2)]
  simp only [if_neg hne2, bind_assoc]
  rw [SetupState.ends_write_bind, ends_modify_bind, SetupState.ends_write_bind,
    SvmVcpu.setupGuestStateM, SvmVcpu.setupVmcbM, bind_assoc, ends_modify_bind, bind_assoc,
    SvmVcpu.setupVmcbMsrM, bind_assoc,
    SetupState.ends_call_bind (Machine.run_allocAlignedPagesM h3), bind_assoc,
    SetupState.ends_write_bind, ends_modify_bind, SvmVcpu.setupVmcbIoioM, bind_assoc,
    SetupState.ends_call_bind (Machine.run_allocAlignedPagesM h4)]
  simp only [bind_assoc]
  rw [SetupState.ends_write_bind, SetupState.ends_write_bind, ends_modify_bind, ends_modify]
  constructor
  · exact unmask_mode iopm SvmVcpu.passthroughPorts _
  · exact unmask_tables iopm SvmVcpu.passthroughPorts _
  · intro h hvmcb hmsrpm hiopm
    apply Machine.WritesDirect.unmask hiopm
    intro w hw
    -- The fills of the two maps and of the VMCB came before.
    have hw : w ∈ (⟨iopm, PAGE_SIZE * 3⟩ : Extent) :: ⟨msrpm, PAGE_SIZE * 2⟩ :: ⟨vmcb, PAGE_SIZE⟩ ::
      s.machine.writes := hw
    simp only [List.mem_cons] at hw
    rcases hw with rfl | rfl | rfl | hw
    · exact hiopm
    · exact hmsrpm
    · exact hvmcb
    · exact h w hw
  · rfl
  · simp only [SetupState.setVcpu, Machine.phys, unmask_mode]
    rfl
  · rfl

/-- A block `alloc_aligned_pages` granted. -/
theorem obtained_of_call {Live : σ → List Extent → Prop} {L : List Extent}
    (hlaw : ops.Lawful true Live) {pa pa' : σ} (hlive : Live pa L) {k p : Nat} (hk : 1 ≤ k)
    (h : ops.allocAlignedPages k PAGE_SIZE pa = .ok (p, pa')) (hne : p ≠ 0) :
    DIRECT_MAP_BASE ≤ p ∧ virt2phys true p < DIRECT_MAP_SIZE ∧ ∃ f, Live pa' (⟨f, k⟩ :: L) := by
  obtain ⟨ptr, s', hrun, hans, -⟩ := hlaw.allocAlignedPages hlive hk (a := PAGE_SIZE) (by decide)
    (by decide) (by decide)
  rw [h] at hrun
  obtain ⟨rfl, rfl⟩ := Prod.mk.inj (Except.ok.inj hrun)
  rcases hans with ⟨hnull, -⟩ | ⟨-, f, -, hdirect, hptr, -, hlive'⟩
  · exact absurd hnull hne
  · have hf : f < DIRECT_MAP_FRAMES := by omega
    refine ⟨hptr ▸ base_le_phys2virt hf, ?_, f, hlive'⟩
    rw [hptr, virt2phys_phys2virt true (PageAllocatorOps.frame_lt_direct hf)]
    exact PageAllocatorOps.frame_lt_direct hf

theorem nullSafe_start (asid : BitVec 16) (m : Machine σ) : NullSafe (SetupState.start asid m) where
  writes := by
    intro w hw
    cases hw
  msrpm := (by decide : 0#64 ≠ NULL_PHYS)
  iopm := (by decide : 0#64 ≠ NULL_PHYS)
  nCr3 := (by decide : 0#64 ≠ NULL_PHYS)

/-- `vm_init` uses no `NULL` when it obtains the two permission maps. -/
theorem ends_vmInitM_safe {Live : σ → List Extent → Prop} {L : List Extent} {m : Machine σ}
    (hlaw : ops.Lawful true Live) (hmode : m.mappingReconstructed = true) (hlive : Live m.pa L)
    (hmaps : MapsObtained ops m.pa) (asid : BitVec 16) :
    Ends (vmInitM ops) (SetupState.start asid m)
      (fun _ s' => NullSafe s' ∧ s'.machine.tables = []) PanickedSafe := by
  have hstart := nullSafe_start asid m
  obtain ⟨hsave, pa1, h1, hans1⟩ := hlaw.alloc hlive (n := PAGE_SIZE) (by decide) (by decide)
  by_cases hne1 : hsave = 0
  · -- The panic of the host-save area.
    rw [vmInitM, SvmVcpu.virtualizeM, bind_assoc,
      SetupState.ends_call_bind (Machine.run_allocM h1), if_pos hne1, ends_throw_bind]
    exact ⟨⟨_, rfl⟩, hstart.congr rfl rfl⟩
  obtain ⟨fh, hh⟩ := granted_of_answer (m := { m with pa := pa1 }) hans1 hne1
  obtain ⟨vmcb, pa2, h2, -, -⟩ := hlaw.allocAlignedPages hh.live (k := 1) (a := PAGE_SIZE)
    (by decide) (by decide) (by decide) (by decide)
  by_cases hne2 : vmcb = 0
  · -- The panic of the VMCB.
    rw [vmInitM, SvmVcpu.virtualizeM, bind_assoc,
      SetupState.ends_call_bind (Machine.run_allocM h1)]
    simp only [if_neg hne1, bind_assoc]
    rw [SetupState.ends_write_bind,
      SetupState.ends_call_bind (Machine.run_allocAlignedPagesM h2), if_pos hne2, ends_throw_bind]
    exact ⟨⟨_, rfl⟩, hstart.congr rfl rfl⟩
  obtain ⟨msrpm, pa3, iopm, pa4, h3, hne3, h4, hne4⟩ := hmaps hsave pa1 vmcb pa2 h1 hne1 h2 hne2
  obtain ⟨hbase2, -, fv, hlive2⟩ := obtained_of_call hlaw hh.live (by decide) h2 hne2
  obtain ⟨hbase3, hphys3, fm, hlive3⟩ := obtained_of_call hlaw hlive2 (by decide) h3 hne3
  obtain ⟨hbase4, hphys4, -⟩ := obtained_of_call hlaw hlive3 (by decide) h4 hne4
  have hrun := ends_vmInitM (s := SetupState.start asid m) (E := PanickedSafe) h1 hne1 h2 hne2 h3 h4
  -- All four calls succeeded: the writes go behind their results, and the addresses are not those
  -- of `NULL`.
  apply hrun.mono
  · intro _ s' h
    have hphys : ∀ p, (SetupState.start asid m).machine.phys p = virt2phys true p := by
      intro p
      rw [← hmode]
      rfl
    refine ⟨⟨h.writes hstart.writes hbase2 hbase3 hbase4, ?_, ?_, ?_⟩, h.tables⟩
    · rw [h.msrpm, hphys]
      exact phys_ne_null hphys3
    · rw [h.iopm, hphys]
      exact phys_ne_null hphys4
    · rw [h.nCr3]
      decide
  · exact fun _ _ he => he

/-- `vm_init` stores the physical address of `NULL` when it does not obtain a permission map. -/
theorem ends_vmInitM_null {Live : σ → List Extent → Prop} {L : List Extent} {m : Machine σ}
    (hlaw : ops.Lawful true Live) (hmode : m.mappingReconstructed = true) (hlive : Live m.pa L)
    (hmaps : ¬ MapsObtained ops m.pa) (asid : BitVec 16) {E : Halt → SetupState σ → Prop} :
    Ends (vmInitM ops) (SetupState.start asid m) (fun _ s' =>
      s'.vm.svmvcpu.vmcb.msrpmBasePa = NULL_PHYS ∨
        s'.vm.svmvcpu.vmcb.iopmBasePa = NULL_PHYS) E := by
  unfold MapsObtained at hmaps
  push Not at hmaps
  obtain ⟨hsave, pa1, vmcb, pa2, h1, hne1, h2, hne2, hmaps⟩ := hmaps
  obtain ⟨p, pa, h1', hans1⟩ := hlaw.alloc hlive (n := PAGE_SIZE) (by decide) (by decide)
  rw [h1] at h1'
  obtain ⟨rfl, rfl⟩ := Prod.mk.inj (Except.ok.inj h1')
  obtain ⟨fh, hh⟩ := granted_of_answer (m := { m with pa := pa1 }) hans1 hne1
  obtain ⟨-, -, fv, hlive2⟩ := obtained_of_call hlaw hh.live (by decide) h2 hne2
  obtain ⟨msrpm, pa3, h3, hans3, -⟩ := hlaw.allocAlignedPages hlive2 (k := 2) (a := PAGE_SIZE)
    (by decide) (by decide) (by decide) (by decide)
  -- The MSR permission map may be missing, and the next call is made all the same.
  obtain ⟨L3, hlive3⟩ : ∃ L3, Live pa3 L3 := by
    rcases hans3 with ⟨-, hlive3⟩ | ⟨-, f, -, -, -, -, hlive3⟩
    · exact ⟨_, hlive3⟩
    · exact ⟨_, hlive3⟩
  obtain ⟨iopm, pa4, h4, -, -⟩ := hlaw.allocAlignedPages hlive3 (k := 3) (a := PAGE_SIZE)
    (by decide) (by decide) (by decide) (by decide)
  -- A map that is missing is `NULL`, and its physical address is stored.
  have hnull : ∀ p, p = 0 → BitVec.ofNat 64 ((SetupState.start asid m).machine.phys p)
      = NULL_PHYS := by
    intro p hp
    rw [hp, NULL_PHYS, ← hmode]
    rfl
  apply (ends_vmInitM (s := SetupState.start asid m) (E := E) h1 hne1 h2 hne2 h3 h4).mono
  · intro _ s' h
    by_cases hmsrpm : msrpm = 0
    · exact .inl (h.msrpm.trans (hnull msrpm hmsrpm))
    · exact .inr (h.iopm.trans (hnull iopm (hmaps msrpm pa3 iopm pa4 h3 hmsrpm h4)))
  · exact fun _ _ he => he

end Init

section Memory
variable {ops} {Live : σ → List Extent → Prop} {L : List Extent} {s : SetupState σ}
  (kernel : Nat → BitVec 8) (kernelSize : Nat) (initrd : Nat → BitVec 8) (initrdSize : Nat)

/-- The addresses of the two permission maps and of the VMCB are the same. -/
def SameMaps (vm vm' : Vm) : Prop :=
  vm'.svmvcpu.vmcb.msrpmBasePa = vm.svmvcpu.vmcb.msrpmBasePa ∧
    vm'.svmvcpu.vmcb.iopmBasePa = vm.svmvcpu.vmcb.iopmBasePa ∧
    vm'.svmvcpu.vmcbPhys = vm.svmvcpu.vmcbPhys

/-- `setup_guest_memory` leaves the permission maps of `vm_init` alone. -/
theorem ends_setupGuestMemoryM_maps :
    Ends (setupGuestMemoryM ops kernel kernelSize initrd initrdSize) s
      (fun _ s' => SameMaps s.vm s'.vm) (fun _ s' => SameMaps s.vm s'.vm) := by
  -- Programs on the host do not touch the vCPU.
  have hhost : ∀ {α : Type} (x : EStateM Halt (Machine σ) α) {s1 : SetupState σ},
      SameMaps s.vm s1.vm →
      Ends (SetupState.onMachine x) s1 (fun _ s' => SameMaps s.vm s'.vm)
        (fun _ s' => SameMaps s.vm s'.vm) := by
    intro α x s1 h
    apply (SetupState.ends_onMachine_vm x).mono
    · exact fun _ s' heq => heq ▸ h
    · exact fun _ s' heq => heq ▸ h
  refine Ends.bind (hhost _ ⟨rfl, rfl, rfl⟩) ?_
  intro guestMem s1 _ h1
  split
  · exact h1
  rw [ends_modify_bind]
  refine Ends.bind (hhost _ h1) ?_
  intro _ s2 _ h2
  rw [ends_get_bind]
  refine Ends.bind (hhost _ h2) ?_
  intro nCr3 s3 _ h3
  exact h3

/-- What `setup_guest_memory` adds: the guest memory in the frames from `f` on, and the tables
of the nested page table, whose root is in the frame `f4`. -/
structure GuestBlocks (Live : σ → List Extent → Prop) (L : List Extent) (s s' : SetupState σ)
    (f f4 : Nat) (T : List Nat) : Prop where
  msr : s'.machine.msr = s.machine.msr
  root : s'.vm.nCr3 = f4 * PAGE_SIZE
  table : f4 ∈ T
  live : Live s'.machine.pa
    (T.map (fun t => ⟨t, 1⟩) ++ ⟨f, GUEST_MEMORY_SIZE / PAGE_SIZE⟩ :: L)

/-- `setup_guest_memory` looks at every pointer it obtains. -/
theorem ends_setupGuestMemoryM_safe (hlaw : ops.Lawful true Live)
    (hmode : s.machine.mappingReconstructed = true) (hlive : Live s.machine.pa L)
    (htables : s.machine.tables = []) (hsafe : NullSafe s) :
    Ends (setupGuestMemoryM ops kernel kernelSize initrd initrdSize) s
      (fun _ s' => NullSafe s' ∧ ∃ f f4 T, GuestBlocks Live L s s' f f4 T) PanickedSafe := by
  obtain ⟨guestMem, pa1, halloc, -, -⟩ := hlaw.allocAlignedPages hlive
    (k := GUEST_MEMORY_SIZE / PAGE_SIZE) (a := PAGE_SIZE_2MB) (by decide) (by decide) (by decide)
    (by decide)
  rw [setupGuestMemoryM, SetupState.ends_call_bind (Machine.run_allocAlignedPagesM halloc)]
  split
  · exact ⟨⟨_, rfl⟩, hsafe.congr rfl rfl⟩
  rename_i hne
  -- The guest memory is a block of the direct map.
  have hrun : s.machine.allocAlignedPages ops (GUEST_MEMORY_SIZE / PAGE_SIZE) PAGE_SIZE_2MB
      = .ok (guestMem, { s.machine with pa := pa1 }) := Run.bind_eq_ok.mpr ⟨_, halloc, rfl⟩
  obtain ⟨pa, f, -, hf, hranges⟩ := guestMem_spec hlaw hmode hlive hne hrun
  have hbase := hf.base_le (by decide)
  have hsafe1 : NullSafe (⟨{ s.vm with guestMem := guestMem }, { s.machine with pa := pa1 }⟩ :
      SetupState σ) := hsafe.congr rfl rfl
  rw [ends_modify_bind]
  -- `load_kernel` writes there, and leaves the rest of the machine alone.
  refine Ends.bind (hsafe1.onMachine (ends_loadKernelM hbase kernel kernelSize initrd initrdSize
    hsafe1.writes)) ?_
  intro _ s2 hrun2 hsafe2
  obtain ⟨m2, hload, hs2⟩ := SetupState.erase_onMachine_eq_ok.mp hrun2
  rw [erase_loadKernelM, map_unit_eq_ok] at hload
  obtain ⟨mem2, writes2, hm2⟩ := onlyWrites_loadKernel hload
  have hmachine : s2.machine
      = { s.machine with pa := pa1, mem := mem2, writes := writes2 } := by
    rw [hs2, hm2]
  have hmode2 : s2.machine.mappingReconstructed = true := by
    rw [hmachine]
    exact hmode
  have hsound : Sound true Live (⟨f, GUEST_MEMORY_SIZE / PAGE_SIZE⟩ :: L) s2.machine := by
    rw [hmachine]
    exact sound_of_live hmode htables hf.live
  have hmsr : s2.machine.msr = s.machine.msr := by rw [hmachine]
  rw [ends_get_bind, hf.phys (by decide) hmode2]
  -- `init_npt` panics at a table it does not obtain.
  refine Ends.bind (hsafe2.onMachine (SvmNpt.ends_initNptM hlaw hsound hranges hsafe2.writes)) ?_
  intro nCr3 s3 hrun3 hsafe3
  obtain ⟨m3, hnpt, rfl⟩ := SetupState.erase_onMachine_eq_ok.mp hrun3
  rw [SvmNpt.erase_initNptM] at hnpt
  obtain ⟨hs3, hg3, hlt, -, htable⟩ := SvmNpt.initNpt_spec hlaw hranges hsound hnpt
  obtain ⟨f4, hf4, hroot⟩ := htable 4 nCr3 .root
  rw [ends_modify]
  refine ⟨⟨hsafe3.writes, hsafe3.msrpm, hsafe3.iopm, phys_ne_null hlt⟩, f, f4, m3.tables,
    hg3.msr.trans hmsr, ?_, hf4, hs3.live⟩
  show (BitVec.ofNat 64 nCr3).toNat = _
  rw [BitVec.toNat_ofNat, Nat.mod_eq_of_lt (Nat.lt_trans hlt (by decide)), hroot]

end Memory

/-! ### The setup -/

section Setup
variable {ops} {Live : σ → List Extent → Prop} {L : List Extent} {m : Machine σ}

/-- The bytes of disjoint blocks of frames are disjoint. -/
theorem pairwise_frameBytes {M : List Extent} (h : M.Pairwise Extent.Disjoint) :
    (M.map frameBytes).Pairwise Extent.Disjoint := by
  rw [List.pairwise_map]
  exact h.imp bytes_disjoint_of_frames

/-- The blocks of `vm_init` and the root of the nested page table are those of the processor. -/
theorem completed_of_blocks {s s' : SetupState σ} {fh fv fm fi f f4 : Nat} {T : List Nat}
    (hready : VcpuReady (fun pa M => Live pa (M ++ L) ∧ M.Pairwise Extent.Disjoint) [] fh fv fm fi
      s.vm.svmvcpu s.machine)
    (hblocks : GuestBlocks (fun pa M => Live pa (M ++ L) ∧ M.Pairwise Extent.Disjoint)
      [⟨fi, 3⟩, ⟨fm, 2⟩, ⟨fv, 1⟩, ⟨fh, 1⟩] s s' f f4 T)
    (hsame : SameMaps s.vm s'.vm) : Completed Live L s' := by
  have hprocessor : s'.processorBlocks
      = [⟨f4, 1⟩, ⟨fi, 3⟩, ⟨fm, 2⟩, ⟨fv, 1⟩, ⟨fh, 1⟩].map frameBytes := by
    simp only [SetupState.processorBlocks, hblocks.root, hblocks.msr, hsame.1, hsame.2.1,
      hsame.2.2, hready.hsave, hready.vmcb, hready.msrpm, hready.iopm, List.map_cons, List.map_nil,
      frameBytes, Nat.one_mul]
  -- The blocks are among the live ones, in the same order.
  have hroot : [(⟨f4, 1⟩ : Extent)].Sublist (T.map fun t => ⟨t, 1⟩) :=
    List.singleton_sublist.mpr (List.mem_map.mpr ⟨f4, hblocks.table, rfl⟩)
  have hsub := hroot.append (List.sublist_cons_self
    (⟨f, GUEST_MEMORY_SIZE / PAGE_SIZE⟩ : Extent) [⟨fi, 3⟩, ⟨fm, 2⟩, ⟨fv, 1⟩, ⟨fh, 1⟩])
  constructor
  · refine ⟨_, hblocks.live.1, ?_⟩
    intro b hb
    rw [hprocessor] at hb
    obtain ⟨g, hg, rfl⟩ := List.mem_map.mp hb
    exact ⟨g, hsub.subset hg, rfl⟩
  · rw [hprocessor]
    exact pairwise_frameBytes (hblocks.live.2.sublist hsub)

/-- With the two permission maps the setup uses no `NULL`. -/
theorem setup_nullSafe (hlaw : ops.Lawful true Live) (hmode : m.mappingReconstructed = true)
    (hlive : Live m.pa L) (hmaps : MapsObtained ops m.pa) (asid : BitVec 16)
    (kernel : Nat → BitVec 8) (kernelSize : Nat) (initrd : Nat → BitVec 8) (initrdSize : Nat) :
    Ends (vmSetupM ops kernel kernelSize initrd initrdSize) (SetupState.start asid m)
      (fun _ s' => NullSafe s' ∧ Completed Live L s') PanickedSafe := by
  -- The blocks of the setup, beside the blocks `L`.
  have hlaw' := (hlaw.frame L).pairwise
  have hstart : Live m.pa ([] ++ L) ∧ ([] : List Extent).Pairwise Extent.Disjoint :=
    ⟨hlive, List.Pairwise.nil⟩
  refine Ends.bind (ends_vmInitM_safe hlaw hmode hlive hmaps asid) ?_
  rintro _ s1 hrun ⟨hsafe1, htables1⟩
  rw [erase_vmInitM] at hrun
  obtain ⟨⟨vm1, m1⟩, hinit, heq⟩ := Run.map_eq_ok.mp hrun
  obtain ⟨-, rfl⟩ := Prod.mk.inj heq
  obtain ⟨fh, fv, fm, fi, hready⟩ := vmInit_spec hlaw' (m := (SetupState.start asid m).machine)
    hmode hstart hinit hsafe1.msrpm hsafe1.iopm
  -- The blocks of `vm_init` are live and disjoint when `setup_guest_memory` starts.
  have hmemory := ends_setupGuestMemoryM_safe kernel kernelSize initrd initrdSize hlaw'
    (s := ⟨vm1, m1⟩) hready.mode hready.live htables1 hsafe1
  have hkeeps : Ends (setupGuestMemoryM ops kernel kernelSize initrd initrdSize) ⟨vm1, m1⟩ _ _ :=
    ends_setupGuestMemoryM_maps kernel kernelSize initrd initrdSize
  apply (hmemory.and hkeeps).mono
  · rintro _ s' ⟨⟨hsafe', f, f4, T, hblocks⟩, hsame⟩
    exact ⟨hsafe', completed_of_blocks hready hblocks hsame⟩
  · exact fun _ _ he => he.1

/-- Without one of them it stores the physical address of `NULL`. -/
theorem setup_null (hlaw : ops.Lawful true Live) (hmode : m.mappingReconstructed = true)
    (hlive : Live m.pa L) (hmaps : ¬ MapsObtained ops m.pa) (asid : BitVec 16)
    (kernel : Nat → BitVec 8) (kernelSize : Nat) (initrd : Nat → BitVec 8) (initrdSize : Nat) :
    Ends (vmSetupM ops kernel kernelSize initrd initrdSize) (SetupState.start asid m)
      (fun _ s' => ¬ NullSafe s') (fun _ s' => ¬ NullSafe s') := by
  refine Ends.bind (ends_vmInitM_null hlaw hmode hlive hmaps asid) ?_
  intro _ s1 _ hs1
  have hno : ∀ s' : SetupState σ, SameMaps s1.vm s'.vm → ¬ NullSafe s' := by
    rintro s' ⟨hmsrpm, hiopm, -⟩ hs'
    rcases hs1 with hnull | hnull
    · exact hs'.msrpm (hmsrpm.trans hnull)
    · exact hs'.iopm (hiopm.trans hnull)
  exact (ends_setupGuestMemoryM_maps kernel kernelSize initrd initrdSize).mono
    (fun _ s' => hno s') (fun _ s' => hno s')

/-- A setup that uses `NULL` does not meet the specification. -/
theorem not_ends_of_null {x : EStateM Halt (SetupState σ) Unit} {s : SetupState σ}
    (h : Ends x s (fun _ s' => ¬ NullSafe s') (fun _ s' => ¬ NullSafe s')) :
    ¬ Ends x s (fun _ s' => NullSafe s' ∧ Completed Live L s') PanickedSafe := by
  intro hsafe
  apply not_ends_false (x := x) (s := s)
  apply (hsafe.and h).mono
  · exact fun _ s' hs' => hs'.2 hs'.1.1
  · exact fun _ s' hs' => hs'.2 hs'.1.2

/-- **VM setup and failing allocations.** On every page allocator that meets its contract and
in every state of it, `vm_init` and `setup_guest_memory` together use no `NULL`, and end with a
panic or with five live blocks for the processor, exactly when the calls for the two permission
maps, which are not checked, do not fail. -/
theorem setup_nullSafe_iff (hlaw : ops.Lawful true Live) (hmode : m.mappingReconstructed = true)
    (hlive : Live m.pa L) (asid : BitVec 16) (kernel : Nat → BitVec 8) (kernelSize : Nat)
    (initrd : Nat → BitVec 8) (initrdSize : Nat) :
    Ends (vmSetupM ops kernel kernelSize initrd initrdSize) (SetupState.start asid m)
        (fun _ s' => NullSafe s' ∧ Completed Live L s') PanickedSafe
      ↔ MapsObtained ops m.pa := by
  constructor
  · intro hsafe
    by_contra hmaps
    exact not_ends_of_null (setup_null hlaw hmode hlive hmaps asid kernel kernelSize initrd
      initrdSize) hsafe
  · intro hmaps
    exact setup_nullSafe hlaw hmode hlive hmaps asid kernel kernelSize initrd initrdSize

end Setup

section Bitmap
open PageAllocator

/-- On the machine with 128MiB both permission maps are obtained. -/
theorem bootPa_mapsObtained : MapsObtained (paOps true) bootPa := by
  have hok := initOk_of_pageAllocatorInit bootMap_sorted bootPa_init
  have hend := bootPa_frameEnd
  have hstart : Below bootPa 1 bootPa := ⟨[], owns_init bootPa, fun b hb => by cases hb⟩
  have hone : framesFor PAGE_SIZE = 1 := by decide
  -- Seven frames from frame 1 on, of the 32768 there are.
  intro hsave pa1 vmcb pa2 h1 _ h2 _
  obtain ⟨p1, q1, h1', -, hbelow1⟩ := hstart.alloc true hok bootPa_clear (Nat.le_refl 1)
    (n := PAGE_SIZE) (by decide) (by decide) (by rw [hone]; omega)
  rw [h1] at h1'
  obtain ⟨rfl, rfl⟩ := Prod.mk.inj (Except.ok.inj h1')
  rw [hone] at hbelow1
  obtain ⟨p2, q2, h2', -, -, hbelow2⟩ := hbelow1.allocPages true hok bootPa_clear (by decide)
    (Nat.le_refl 1) (by omega)
  rw [h2] at h2'
  obtain ⟨rfl, rfl⟩ := Prod.mk.inj (Except.ok.inj h2')
  obtain ⟨msrpm, pa3, h3, hne3, -, hbelow3⟩ := hbelow2.allocPages true hok bootPa_clear (k := 2)
    (by decide) (by decide) (by omega)
  obtain ⟨iopm, pa4, h4, hne4, -, -⟩ := hbelow3.allocPages true hok bootPa_clear (k := 3)
    (by decide) (by decide) (by omega)
  exact ⟨msrpm, pa3, iopm, pa4, h3, hne3, h4, hne4⟩

/-- The setup of a kernel image of one page and no initrd on that machine. -/
theorem setup_nullSafe_iff_bootMachine :
    Ends (vmSetupM (paOps true) (headerImage 1#8) 4096 (fun _ => 0#8) 0)
      (SetupState.start 1#16 (bootMachine bootPa))
      (fun _ s' => NullSafe s' ∧ Completed (Owns bootPa) [] s') PanickedSafe := by
  have hok := initOk_of_pageAllocatorInit bootMap_sorted bootPa_init
  have hmode : (bootMachine bootPa).mappingReconstructed = true := rfl
  have hlive : Owns bootPa (bootMachine bootPa).pa [] := owns_init bootPa
  rw [setup_nullSafe_iff (paOps_lawful true hok.consistent) hmode hlive]
  exact bootPa_mapsObtained

/-- A machine with 16 pages of usable memory. -/
def tightMap : List EfiMemoryDescriptor := [⟨.conventionalMemory, 0x0, 16⟩]

theorem tightMap_sorted : SortedMap tightMap where
  sorted := List.pairwise_singleton _ _
  disjoint := List.pairwise_singleton _ _
  wellFormed := by
    intro d hd
    rw [List.mem_singleton.mp hd]
    exact ⟨by decide, by decide, by decide⟩

/-- The allocator after `page_allocator_init` on that memory. -/
def tightPa : PageAllocator := (pageAllocatorInit tightMap).toOption.getD {}

/-- The allocator when a block of 12 pages was allocated from it, which leaves three. -/
def tightPaUsed : PageAllocator :=
  (((paOps true).alloc (12 * PAGE_SIZE) tightPa).toOption.getD (0, {})).2

theorem tightPa_init : pageAllocatorInit tightMap = .ok tightPa := rfl

theorem tightPaUsed_alloc :
    (paOps true).alloc (12 * PAGE_SIZE) tightPa = .ok (phys2virt true PAGE_SIZE, tightPaUsed) := rfl

/-- The host-save area and the VMCB are obtained, and then the MSR permission map is not. -/
theorem tightPaUsed_calls : ∃ pa1 pa2,
    (paOps true).alloc PAGE_SIZE tightPaUsed = .ok (phys2virt true (13 * PAGE_SIZE), pa1) ∧
    (paOps true).allocAlignedPages 1 PAGE_SIZE pa1 = .ok (phys2virt true (14 * PAGE_SIZE), pa2) ∧
    (paOps true).allocAlignedPages 2 PAGE_SIZE pa2 = .ok (0, pa2) :=
  ⟨_, _, rfl, rfl, rfl⟩

theorem tightPaUsed_not_mapsObtained : ¬ MapsObtained (paOps true) tightPaUsed := by
  intro hmaps
  obtain ⟨pa1, pa2, h1, h2, h3⟩ := tightPaUsed_calls
  obtain ⟨msrpm, pa3, iopm, pa4, h3', hne3, -, -⟩ := hmaps _ pa1 _ pa2 h1
    (phys2virt_ne_zero true (by decide) (by decide)) h2
    (phys2virt_ne_zero true (by decide) (by decide))
  rw [h3] at h3'
  obtain ⟨rfl, -⟩ := Prod.mk.inj (Except.ok.inj h3')
  exact hne3 rfl

/-- With three frames left the setup uses `NULL`: the MSR permission map is not obtained. -/
theorem not_setup_nullSafe_tight : pageAllocatorInit tightMap = .ok tightPa ∧
    (paOps true).alloc (12 * PAGE_SIZE) tightPa = .ok (phys2virt true PAGE_SIZE, tightPaUsed) ∧
    ∃ L, Owns tightPa tightPaUsed L ∧
    ¬ Ends (vmSetupM (paOps true) (headerImage 1#8) 4096 (fun _ => 0#8) 0)
      (SetupState.start 1#16 (bootMachine tightPaUsed))
      (fun _ s' => NullSafe s' ∧ Completed (Owns tightPa) L s') PanickedSafe := by
  have hok := initOk_of_pageAllocatorInit tightMap_sorted tightPa_init
  have hlaw := paOps_lawful true hok.consistent
  obtain ⟨ptr, pa, hrun, hans⟩ := hlaw.alloc (owns_init tightPa) (n := 12 * PAGE_SIZE) (by decide)
    (by decide)
  -- The block of 12 pages is live.
  rw [tightPaUsed_alloc] at hrun
  obtain ⟨rfl, rfl⟩ := Prod.mk.inj (Except.ok.inj hrun)
  obtain ⟨f, hf⟩ := granted_of_answer (m := bootMachine tightPaUsed) hans
    (phys2virt_ne_zero true (by decide) (by decide))
  refine ⟨tightPa_init, tightPaUsed_alloc, _, hf.live, not_ends_of_null ?_⟩
  exact setup_null hlaw rfl hf.live tightPaUsed_not_mapsObtained 1#16 (headerImage 1#8) 4096
    (fun _ => 0#8) 0

end Bitmap

end YmirC
