import YmirC.Arch.X86.Vm
import YmirC.Lib.Outcome

/-!
# `YmirC.Arch.X86.VmSetup`: the setup of the virtual machine, with the state a panic leaves

The functions of `svm_vcpu.c`, `svm_npt.c` and `vm.c` that set up the virtual machine, once more,
as programs that keep their state when they panic: what was written to memory and to the VMCB
before the panic is still there. `SvmVcpuSetup`, `SvmNpt` and `Vm` have the same functions as
functions into `Run`, where a panic leaves nothing behind. `Proofs/Vm/Setup` proves that they
are the same. Each program has the name of its function with an `M` at the end.
-/

set_option autoImplicit false

namespace YmirC

open Outcome

variable {σ : Type}

/-- The virtual machine and the host it is set up on. -/
structure SetupState (σ : Type) where
  vm : Vm
  machine : Machine σ

/-- A program on the host alone. -/
def SetupState.onMachine {α : Type} (x : EStateM Halt (Machine σ) α) :
    EStateM Halt (SetupState σ) α :=
  zoom SetupState.machine (fun m s => { s with machine := m }) x

/-- The vCPU is written. -/
def SetupState.setVcpu (s : SetupState σ) (vcpu : SvmVcpu) : SetupState σ :=
  { s with vm := { s.vm with svmvcpu := vcpu } }

namespace Machine

/-- `pa_ops->alloc(n)`. -/
def allocM (ops : PageAllocatorOps σ) (n : Nat) : EStateM Halt (Machine σ) Nat :=
  ofExcept (Machine.alloc ops n)

/-- `pa_ops->alloc_aligned_pages(num_pages, align_size)`. -/
def allocAlignedPagesM (ops : PageAllocatorOps σ) (numPages alignSize : Nat) :
    EStateM Halt (Machine σ) Nat :=
  ofExcept (Machine.allocAlignedPages ops numPages alignSize)

end Machine

/-- `allocate_table`. -/
def allocateTableM (ops : PageAllocatorOps σ) : EStateM Halt (Machine σ) Nat := do
  let tableAddr ← Machine.allocAlignedPagesM ops 1 PAGE_SIZE
  if tableAddr = 0 then throw (.panic "Failed to allocate memory for the page table.")
  else do
    modify fun m => { m with tables := m.phys tableAddr / PAGE_SIZE :: m.tables }
    modify fun m => m.clearEntries tableAddr NUM_TABLE_ENTRIES
    pure tableAddr

namespace SvmNpt

/-- `initialize_table_reference_entry` of `svm_npt.c`. -/
def initializeTableReferenceEntryM (ops : PageAllocatorOps σ) (table i : Nat) :
    EStateM Halt (Machine σ) Unit := do
  let lowertbl ← allocateTableM ops
  modify fun m =>
    m.setEntry table i (initializeEntry 1#64 0#64 (m.entry table i) (m.phys lowertbl))

/-- The table below an entry is obtained unless the entry is present. -/
def ensureTableM (ops : PageAllocatorOps σ) (table i : Nat) : EStateM Halt (Machine σ) Unit := do
  let m ← get
  if !isset (m.entry table i) ENTRY_PRESENT then initializeTableReferenceEntryM ops table i
  else pure ()

/-- The first half of `map2m`. -/
def lv2EntryM (ops : PageAllocatorOps σ) (gpa lv4tbl : Nat) :
    EStateM Halt (Machine σ) (Nat × Nat) := do
  let lv4index := entryIndex gpa lv4Shift
  ensureTableM ops lv4tbl lv4index
  let m ← get
  let lv3ent := getEntryAddress m gpa (physOf (m.entry lv4tbl lv4index)) .level3
  ensureTableM ops lv3ent.1 lv3ent.2
  let m ← get
  pure (getEntryAddress m gpa (physOf (m.entry lv3ent.1 lv3ent.2)) .level2)

/-- `map2m`. -/
def map2mM (ops : PageAllocatorOps σ) (gpa hpa lv4tbl : Nat) : EStateM Halt (Machine σ) Unit := do
  let lv2ent ← lv2EntryM ops gpa lv4tbl
  let m ← get
  if isset (m.entry lv2ent.1 lv2ent.2) ENTRY_PRESENT then throw (.panic "Page already mapped.")
  else
    modify fun m => m.setEntry lv2ent.1 lv2ent.2
      (initializePageReferenceEntry (m.entry lv2ent.1 lv2ent.2) hpa)

/-- `init_npt`. -/
def initNptM (ops : PageAllocatorOps σ) (guestStart hostStart size : Nat) :
    EStateM Halt (Machine σ) Nat := do
  let lv4tbl ← allocateTableM ops
  forRange (fun i => map2mM ops (u64 (guestStart + PAGE_SIZE_2MB * i))
    (u64 (hostStart + PAGE_SIZE_2MB * i)) lv4tbl) (size / PAGE_SIZE_2MB)
  let m ← get
  pure (m.phys lv4tbl)

end SvmNpt

/-- `load_image`. -/
def loadImageM (memory memorySize : Nat) (image : Nat → BitVec 8) (imageSize addr : Nat) :
    EStateM Halt (Machine σ) Unit :=
  if memorySize < u64 (addr + imageSize) then throw (.panic "Guest memory size is insufficient.")
  else modify fun m => m.memcpyFrom (memory + addr) image imageSize

/-- `load_kernel`. -/
def loadKernelM (guestMem : Nat) (kernel : Nat → BitVec 8) (kernelSize : Nat)
    (initrd : Nat → BitVec 8) (initrdSize : Nat) : EStateM Halt (Machine σ) Unit :=
  if kernelSize ≥ GUEST_MEMORY_SIZE then throw (.panic "bzImage size exceeds guest memory size.")
  else do
    let bp := kernelBootParams kernel
    modify fun m => loadCmdline guestMem bp m
    if GUEST_MEMORY_SIZE - LINUX_LAYOUT_INITRD < initrdSize then
      throw (.panic "Initrd size exceeds guest memory limit.")
    else if bp.initrdAddrMax.toNat < u64 (LINUX_LAYOUT_INITRD + initrdSize) then
      throw (.panic "Initrd size exceeds maximum allowed address.")
    else do
      let bp := loadedBootParams kernel initrdSize
      loadImageM guestMem GUEST_MEMORY_SIZE initrd initrdSize LINUX_LAYOUT_INITRD
      loadImageM guestMem GUEST_MEMORY_SIZE bp.bytes SIZEOF_BOOT_PARAMS LINUX_LAYOUT_BOOTPARAM
      let codeOffset := bp.protectedCodeOffset
      let codeSize := sub64 kernelSize codeOffset
      loadImageM guestMem GUEST_MEMORY_SIZE (fun i => kernel (codeOffset + i)) codeSize
        LINUX_LAYOUT_KERNEL_BASE

namespace SvmVcpu

open SetupState

/-- `svm_vcpu_virtualize`. -/
def virtualizeM (ops : PageAllocatorOps σ) : EStateM Halt (SetupState σ) Unit := do
  let hsave ← onMachine (Machine.allocM ops PAGE_SIZE)
  if hsave = 0 then throw (.panic "Failed to allocate memory for saving host state.")
  else do
    onMachine (modify fun m => m.writeMsr MSR_VM_HSAVE_PA (BitVec.ofNat 64 (m.phys hsave)))
    let vmcb ← onMachine (Machine.allocAlignedPagesM ops 1 PAGE_SIZE)
    if vmcb = 0 then throw (.panic "Failed to allocate memory for VMCB.")
    else do
      onMachine (modify fun m => m.memset vmcb 0#8 PAGE_SIZE)
      modify fun s => s.setVcpu { s.vm.svmvcpu with
        vmcb := {}, vmcbPhys := BitVec.ofNat 64 (s.machine.phys vmcb) }
      onMachine (modify fun m => m.writeMsr MSR_EFER (m.msr MSR_EFER ||| 1#64 <<< 12))

/-- `setup_vmcb_msr`. -/
def setupVmcbMsrM (ops : PageAllocatorOps σ) : EStateM Halt (SetupState σ) Unit := do
  let msrpm ← onMachine (Machine.allocAlignedPagesM ops 2 PAGE_SIZE)
  onMachine (modify fun m => m.memset msrpm 0xFF#8 (PAGE_SIZE * 2))
  modify fun s => s.setVcpu { s.vm.svmvcpu with vmcb := { s.vm.svmvcpu.vmcb with
    msrpmBasePa := BitVec.ofNat 64 (s.machine.phys msrpm)
    interceptMsrProt := true } }

/-- `setup_vmcb_ioio`. -/
def setupVmcbIoioM (ops : PageAllocatorOps σ) : EStateM Halt (SetupState σ) Unit := do
  let iopm ← onMachine (Machine.allocAlignedPagesM ops 3 PAGE_SIZE)
  onMachine (modify fun m => m.memset iopm 0xFF#8 (PAGE_SIZE * 3))
  onMachine (modify fun m => passthroughPorts.foldl (fun m port => unmaskIopmBit iopm port m) m)
  modify fun s => s.setVcpu { s.vm.svmvcpu with vmcb := { s.vm.svmvcpu.vmcb with
    iopmBasePa := BitVec.ofNat 64 (s.machine.phys iopm)
    interceptIoioProt := true } }

/-- `setup_vmcb`. -/
def setupVmcbM (ops : PageAllocatorOps σ) : EStateM Halt (SetupState σ) Unit := do
  modify fun s => s.setVcpu { s.vm.svmvcpu with vmcb := setupVmcbFields s.vm.svmvcpu }
  setupVmcbMsrM ops
  setupVmcbIoioM ops

/-- `svm_vcpu_setup_guest_state`. -/
def setupGuestStateM (ops : PageAllocatorOps σ) : EStateM Halt (SetupState σ) Unit := do
  setupVmcbM ops
  modify fun s => s.setVcpu { s.vm.svmvcpu with guestRegs := { s.vm.svmvcpu.guestRegs with
    rsi := BitVec.ofNat 64 LINUX_LAYOUT_BOOTPARAM } }

end SvmVcpu

open SetupState

/-- `vm_init`. -/
def vmInitM (ops : PageAllocatorOps σ) : EStateM Halt (SetupState σ) Unit := do
  SvmVcpu.virtualizeM ops
  SvmVcpu.setupGuestStateM ops

/-- `setup_guest_memory`. -/
def setupGuestMemoryM (ops : PageAllocatorOps σ) (guestImage : Nat → BitVec 8)
    (guestImageSize : Nat) (initrd : Nat → BitVec 8) (initrdSize : Nat) :
    EStateM Halt (SetupState σ) Unit := do
  let guestMem ← onMachine
    (Machine.allocAlignedPagesM ops (GUEST_MEMORY_SIZE / PAGE_SIZE) PAGE_SIZE_2MB)
  if guestMem = 0 then throw (.panic "Failed to allocate guest memory.")
  else do
    modify fun s => { s with vm := { s.vm with guestMem := guestMem } }
    onMachine (loadKernelM guestMem guestImage guestImageSize initrd initrdSize)
    let s ← get
    let nCr3 ← onMachine (SvmNpt.initNptM ops 0 (s.machine.phys guestMem) GUEST_MEMORY_SIZE)
    modify fun s => s.setVcpu (s.vm.svmvcpu.setNpt nCr3 guestMem s.machine)

/-- `vm_init` and then `setup_guest_memory`, as `main.c` calls them. -/
def vmSetupM (ops : PageAllocatorOps σ) (guestImage : Nat → BitVec 8) (guestImageSize : Nat)
    (initrd : Nat → BitVec 8) (initrdSize : Nat) : EStateM Halt (SetupState σ) Unit := do
  vmInitM ops
  setupGuestMemoryM ops guestImage guestImageSize initrd initrdSize

end YmirC
