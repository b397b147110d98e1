import YmirC.Arch.X86.SvmNpt
import YmirC.Arch.X86.SvmVcpuSetup

/-!
# `YmirC.Arch.X86.Vm`: the virtual machine and its memory (`arch/x86/vm.c`)

`vm_init` sets up the vCPU. `setup_guest_memory` obtains the guest memory, loads the kernel with
its boot parameters, command line and initrd into it, and maps it with the nested page table.

The images are objects outside the modelled memory: functions from offsets to bytes, with their
sizes beside them. The boot parameters take 4096 bytes of the kernel image whatever its size,
as in the source.
-/

set_option autoImplicit false

namespace YmirC

variable {σ : Type}

def GUEST_MEMORY_SIZE : Nat := 100 * 1024 * 1024

def KERNEL_CMDLINE : String := "console=ttyS0 earlyprintk=serial nokaslr"

/-- `KERNEL_CMDLINE_LEN`. -/
def KERNEL_CMDLINE_LEN : Nat := KERNEL_CMDLINE.toList.length

/-- The bytes of the command line, as the C string literal has them. -/
def kernelCmdline (i : Nat) : BitVec 8 :=
  ((KERNEL_CMDLINE.toList.map fun c => BitVec.ofNat 8 c.toNat)[i]?).getD 0#8

/-- `Vm`, the fields the setup works on. -/
structure Vm where
  svmvcpu : SvmVcpu
  guestMem : Nat := 0

/-- `load_image`. -/
def loadImage (memory memorySize : Nat) (image : Nat → BitVec 8) (imageSize addr : Nat)
    (m : Machine σ) : Run (Machine σ) :=
  if memorySize < u64 (addr + imageSize) then
    .error (.panic "Guest memory size is insufficient.")
  else .ok (m.memcpyFrom (memory + addr) image imageSize)

open BootParams in
/-- The boot parameters `load_kernel` sets up before it looks at the initrd. -/
def kernelBootParams (kernel : Nat → BitVec 8) : BootParams :=
  let bp := fromBzimage kernel
  let bp := bp.set E820_ENTRIES 1 0#8
  let bp := bp.set TYPE_OF_LOADER 1 0xFF#8
  let bp := bp.set EXT_LOADER_VER 1 0#8
  -- `loaded_high`
  let bp := bp.setLoadflag 0
  -- `can_use_heap`
  let bp := bp.setLoadflag 7
  let bp := bp.set HEAP_END_PTR 2 (BitVec.ofNat 16 (LINUX_LAYOUT_BOOTPARAM - 0x200))
  -- `keep_segments`
  let bp := bp.setLoadflag 6
  let bp := bp.set CMD_LINE_PTR 4 (BitVec.ofNat 32 LINUX_LAYOUT_CMDLINE)
  let bp := bp.set VID_MODE 2 0xFFFF#16
  let bp := bp.addE820Entry 0#64 (BitVec.ofNat 64 LINUX_LAYOUT_KERNEL_BASE) .ram
  bp.addE820Entry (BitVec.ofNat 64 LINUX_LAYOUT_KERNEL_BASE)
    (BitVec.ofNat 64 (GUEST_MEMORY_SIZE - LINUX_LAYOUT_KERNEL_BASE)) .ram

open BootParams in
/-- The boot parameters `load_kernel` copies to the guest. -/
def loadedBootParams (kernel : Nat → BitVec 8) (initrdSize : Nat) : BootParams :=
  let bp := kernelBootParams kernel
  let bp := bp.set RAMDISK_IMAGE 4 (BitVec.ofNat 32 LINUX_LAYOUT_INITRD)
  bp.set RAMDISK_SIZE 4 (BitVec.ofNat 32 initrdSize)

/-- `cmdline_max_size`. -/
def cmdlineMaxSize (bp : BootParams) : Nat :=
  if bp.cmdlineSize.toNat < 256 then bp.cmdlineSize.toNat else 256

/-- `len`, the number of bytes of the command line that fit. -/
def cmdlineLen (bp : BootParams) : Nat :=
  if KERNEL_CMDLINE_LEN < cmdlineMaxSize bp then KERNEL_CMDLINE_LEN else cmdlineMaxSize bp

/-- The command line is cleared and copied. -/
def loadCmdline (guestMem : Nat) (bp : BootParams) (m : Machine σ) : Machine σ :=
  let cmdline := guestMem + LINUX_LAYOUT_CMDLINE
  (m.memset cmdline 0#8 (cmdlineMaxSize bp)).memcpyFrom cmdline kernelCmdline (cmdlineLen bp)

/-- `load_kernel`. -/
def loadKernel (guestMem : Nat) (kernel : Nat → BitVec 8) (kernelSize : Nat)
    (initrd : Nat → BitVec 8) (initrdSize : Nat) (m : Machine σ) : Run (Machine σ) :=
  if kernelSize ≥ GUEST_MEMORY_SIZE then
    .error (.panic "bzImage size exceeds guest memory size.")
  else
    let bp := kernelBootParams kernel
    let m := loadCmdline guestMem bp m
    if GUEST_MEMORY_SIZE - LINUX_LAYOUT_INITRD < initrdSize then
      .error (.panic "Initrd size exceeds guest memory limit.")
    else if bp.initrdAddrMax.toNat < u64 (LINUX_LAYOUT_INITRD + initrdSize) then
      .error (.panic "Initrd size exceeds maximum allowed address.")
    else do
      let bp := loadedBootParams kernel initrdSize
      let m ← loadImage guestMem GUEST_MEMORY_SIZE initrd initrdSize LINUX_LAYOUT_INITRD m
      let m ← loadImage guestMem GUEST_MEMORY_SIZE bp.bytes SIZEOF_BOOT_PARAMS
        LINUX_LAYOUT_BOOTPARAM m
      let codeOffset := bp.protectedCodeOffset
      let codeSize := sub64 kernelSize codeOffset
      loadImage guestMem GUEST_MEMORY_SIZE (fun i => kernel (codeOffset + i)) codeSize
        LINUX_LAYOUT_KERNEL_BASE m

/-- `vm_init`. -/
def vmInit (ops : PageAllocatorOps σ) (vm : Vm) (m : Machine σ) : Run (Vm × Machine σ) := do
  let (vcpu, m) ← SvmVcpu.virtualize ops vm.svmvcpu m
  let (vcpu, m) ← SvmVcpu.setupGuestState ops vcpu m
  .ok ({ vm with svmvcpu := vcpu }, m)

/-- `setup_guest_memory`. -/
def setupGuestMemory (ops : PageAllocatorOps σ) (vm : Vm) (guestImage : Nat → BitVec 8)
    (guestImageSize : Nat) (initrd : Nat → BitVec 8) (initrdSize : Nat) (m : Machine σ) :
    Run (Vm × Machine σ) := do
  let (guestMem, m) ← m.allocAlignedPages ops (GUEST_MEMORY_SIZE / PAGE_SIZE) PAGE_SIZE_2MB
  if guestMem = 0 then .error (.panic "Failed to allocate guest memory.")
  else
    let m ← loadKernel guestMem guestImage guestImageSize initrd initrdSize m
    let (nCr3, m) ← SvmNpt.initNpt ops 0 (m.phys guestMem) GUEST_MEMORY_SIZE m
    .ok ({ vm with guestMem := guestMem, svmvcpu := vm.svmvcpu.setNpt nCr3 guestMem m }, m)

end YmirC
