import YmirC.Arch.X86.PageTable
import YmirC.Arch.X86.SvmState
import YmirC.Linux

/-!
# `YmirC.Arch.X86.SvmVcpuSetup`: how the vCPU is set up

The other half of `svm_vcpu.c`: the host-save area, the VMCB and the two permission maps, all in
memory of the page allocator. The VMCB is a record of the vCPU (`SvmState`), and the page that
holds it is cleared in memory. `setup_vmcb_msr` and `setup_vmcb_ioio` do not look at the pointer
they obtain before they fill the map.
-/

set_option autoImplicit false

namespace YmirC

variable {σ : Type}

def MSR_EFER : BitVec 32 := 0xC0000080
def MSR_VM_HSAVE_PA : BitVec 32 := 0xC0010117

namespace Machine

/-- `write_msr`. -/
def writeMsr (m : Machine σ) (msr : BitVec 32) (value : BitVec 64) : Machine σ :=
  { m with msr := fun i => if i = msr then value else m.msr i }

/-- `pa_ops->alloc(n)`. -/
def alloc (ops : PageAllocatorOps σ) (n : Nat) (m : Machine σ) : Run (Nat × Machine σ) := do
  let (ptr, pa) ← ops.alloc n m.pa
  .ok (ptr, { m with pa := pa })

/-- `pa_ops->alloc_aligned_pages(num_pages, align_size)`. -/
def allocAlignedPages (ops : PageAllocatorOps σ) (numPages alignSize : Nat) (m : Machine σ) :
    Run (Nat × Machine σ) := do
  let (ptr, pa) ← ops.allocAlignedPages numPages alignSize m.pa
  .ok (ptr, { m with pa := pa })

end Machine

namespace SvmVcpu

def SEGMENT_ACCESSED_MASK : BitVec 64 := 0x1#64 <<< 0
def SEGMENT_RW_MASK : BitVec 64 := 0x1#64 <<< 1
def SEGMENT_DC_MASK : BitVec 64 := 0x1#64 <<< 2
def SEGMENT_EXECUTABLE_MASK : BitVec 64 := 0x1#64 <<< 3
def SEGMENT_DESC_TYPE_MASK : BitVec 64 := 0x1#64 <<< 4
def SEGMENT_DPL_MASK : BitVec 64 := 0x3#64 <<< 5
def SEGMENT_PRESENT_MASK : BitVec 64 := 0x1#64 <<< 7
def SEGMENT_AVL_MASK : BitVec 64 := 0x1#64 <<< 8
def SEGMENT_LONG_MASK : BitVec 64 := 0x1#64 <<< 9
def SEGMENT_DB_MASK : BitVec 64 := 0x1#64 <<< 10
def SEGMENT_GRANULARITY_MASK : BitVec 64 := 0x1#64 <<< 11
def SEGMENT_RESERVED_MASK : BitVec 64 := 0xF#64 <<< 12

/-- The attributes of the code segment (`executable` is 1) and of the data segments. -/
def segmentAttrib (executable : BitVec 64) : BitVec 64 :=
  let attrib := setMaskedBits 0#64 1#64 SEGMENT_ACCESSED_MASK
  let attrib := setMaskedBits attrib 1#64 SEGMENT_RW_MASK
  let attrib := setMaskedBits attrib 0#64 SEGMENT_DC_MASK
  let attrib := setMaskedBits attrib executable SEGMENT_EXECUTABLE_MASK
  let attrib := setMaskedBits attrib 1#64 SEGMENT_DESC_TYPE_MASK
  let attrib := setMaskedBits attrib 0#64 SEGMENT_DPL_MASK
  let attrib := setMaskedBits attrib 1#64 SEGMENT_PRESENT_MASK
  let attrib := setMaskedBits attrib 0#64 SEGMENT_AVL_MASK
  let attrib := setMaskedBits attrib 0#64 SEGMENT_LONG_MASK
  let attrib := setMaskedBits attrib 1#64 SEGMENT_DB_MASK
  let attrib := setMaskedBits attrib 1#64 SEGMENT_GRANULARITY_MASK
  setMaskedBits attrib 0#64 SEGMENT_RESERVED_MASK

/-- The attributes and the limit of a segment are written. -/
def setSegment (seg : VmcbSeg) (executable : BitVec 64) : VmcbSeg :=
  { seg with attr := (segmentAttrib executable).setWidth 16, limit := 0xFFFFFFFF#32 }

/-- `setup_vmcb_seg`. -/
def setupVmcbSeg (vmcb : Vmcb) : Vmcb :=
  { vmcb with
      cs := setSegment vmcb.cs 1#64
      ds := setSegment vmcb.ds 0#64
      es := setSegment vmcb.es 0#64
      fs := setSegment vmcb.fs 0#64
      gs := setSegment vmcb.gs 0#64
      ss := setSegment vmcb.ss 0#64 }

/-- `setup_vmcb_msr`. -/
def setupVmcbMsr (ops : PageAllocatorOps σ) (vcpu : SvmVcpu) (m : Machine σ) :
    Run (SvmVcpu × Machine σ) := do
  let (msrpm, m) ← m.allocAlignedPages ops 2 PAGE_SIZE
  let m := m.memset msrpm 0xFF#8 (PAGE_SIZE * 2)
  .ok ({ vcpu with vmcb := { vcpu.vmcb with
    msrpmBasePa := BitVec.ofNat 64 (m.phys msrpm)
    interceptMsrProt := true } }, m)

/-- `unmask_iopm_bit`. -/
def unmaskIopmBit (iopm targetBit : Nat) (m : Machine σ) : Machine σ :=
  let index := targetBit / 8
  let pos := targetBit % 8
  let addr := m.phys iopm + index
  m.write (iopm + index) 1 (fun a => if a = addr then m.mem a &&& ~~~tobit8 pos else m.mem a)

/-- The bits `setup_vmcb_ioio` unmasks, in order: the ports of the PIT and of the 8250. -/
def passthroughPorts : List Nat := List.range' 0x40 8 ++ [0x03F8, 0x03FD, 0x03FE]

/-- `setup_vmcb_ioio`. -/
def setupVmcbIoio (ops : PageAllocatorOps σ) (vcpu : SvmVcpu) (m : Machine σ) :
    Run (SvmVcpu × Machine σ) := do
  let (iopm, m) ← m.allocAlignedPages ops 3 PAGE_SIZE
  let m := m.memset iopm 0xFF#8 (PAGE_SIZE * 3)
  let m := passthroughPorts.foldl (fun m port => unmaskIopmBit iopm port m) m
  .ok ({ vcpu with vmcb := { vcpu.vmcb with
    iopmBasePa := BitVec.ofNat 64 (m.phys iopm)
    interceptIoioProt := true } }, m)

/-- `svm_vcpu_virtualize`. -/
def virtualize (ops : PageAllocatorOps σ) (vcpu : SvmVcpu) (m : Machine σ) :
    Run (SvmVcpu × Machine σ) := do
  let (hsave, m) ← m.alloc ops PAGE_SIZE
  if hsave = 0 then .error (.panic "Failed to allocate memory for saving host state.")
  else
    let m := m.writeMsr MSR_VM_HSAVE_PA (BitVec.ofNat 64 (m.phys hsave))
    let (vmcb, m) ← m.allocAlignedPages ops 1 PAGE_SIZE
    if vmcb = 0 then .error (.panic "Failed to allocate memory for VMCB.")
    else
      let m := m.memset vmcb 0#8 PAGE_SIZE
      .ok ({ vcpu with vmcb := {}, vmcbPhys := BitVec.ofNat 64 (m.phys vmcb) },
        m.writeMsr MSR_EFER (m.msr MSR_EFER ||| 1#64 <<< 12))

/-- The fields `setup_vmcb` writes before the permission maps. `EFER` has `SVME` set, and `CR0`
has `PE`, `NE` and `ET` set. -/
def setupVmcbFields (vcpu : SvmVcpu) : Vmcb :=
  { setupVmcbSeg { vcpu.vmcb with
      interceptIntr := true
      vIgnTpr := true
      vIntrMasking := true
      interceptCpuid := true
      interceptHlt := true
      interceptVmrun := true
      interceptVmmcall := true
      guestAsid := vcpu.asid.setWidth 32
      npEnable := true } with
    efer := 1#64 <<< 12
    cr0 := 1#64 <<< 0 ||| 1#64 <<< 5 ||| 1#64 <<< 4
    rip := BitVec.ofNat 64 LINUX_LAYOUT_KERNEL_BASE }

/-- `setup_vmcb`. -/
def setupVmcb (ops : PageAllocatorOps σ) (vcpu : SvmVcpu) (m : Machine σ) :
    Run (SvmVcpu × Machine σ) := do
  let (vcpu, m) ← setupVmcbMsr ops { vcpu with vmcb := setupVmcbFields vcpu } m
  setupVmcbIoio ops vcpu m

/-- `svm_vcpu_setup_guest_state`. -/
def setupGuestState (ops : PageAllocatorOps σ) (vcpu : SvmVcpu) (m : Machine σ) :
    Run (SvmVcpu × Machine σ) := do
  let (vcpu, m) ← setupVmcb ops vcpu m
  .ok ({ vcpu with guestRegs := { vcpu.guestRegs with
    rsi := BitVec.ofNat 64 LINUX_LAYOUT_BOOTPARAM } }, m)

/-- `svm_vcpu_set_npt`. -/
def setNpt (vcpu : SvmVcpu) (nCr3 hostStart : Nat) (m : Machine σ) : SvmVcpu :=
  { vcpu with
      vmcb := { vcpu.vmcb with nCr3 := BitVec.ofNat 64 nCr3 }
      guestBase := BitVec.ofNat 64 (m.phys hostStart) }

end SvmVcpu

end YmirC
