import YmirC.Lib.ByteMemory

/-!
# `YmirC.Linux`: the boot protocol (`ymirc/linux.h`)

`BootParams` is the packed struct of 4096 bytes, with each field at its offset. Only the fields
the loader reads or writes have a name here. `SetupHeader` is the header inside it, which
`setupheader_from_bzimage` reads on its own.
-/

set_option autoImplicit false

namespace YmirC

open ByteMemory

def LINUX_LAYOUT_BOOTPARAM : Nat := 0x00010000
def LINUX_LAYOUT_CMDLINE : Nat := 0x00020000
def LINUX_LAYOUT_KERNEL_BASE : Nat := 0x00100000
def LINUX_LAYOUT_INITRD : Nat := 0x06000000

def SETUP_HEADER_OFFSET : Nat := 0x1F1

/-- `sizeof(BootParams)`. -/
def SIZEOF_BOOT_PARAMS : Nat := 0x1000

/-- `E820Type`. -/
inductive E820Type where
  | ram
  | reserved
  | acpi
  | nvs
  | unusable
  deriving DecidableEq, Repr

/-- The value of the enumerator. -/
def E820Type.value : E820Type → BitVec 32
  | .ram => 1#32
  | .reserved => 2#32
  | .acpi => 3#32
  | .nvs => 4#32
  | .unusable => 5#32

/-- `BootParams`. -/
structure BootParams where
  bytes : Mem

namespace BootParams

/-- A field of `n` bytes is assigned. -/
def set (bp : BootParams) (offset n : Nat) (value : BitVec (8 * n)) : BootParams :=
  ⟨storeBytes bp.bytes offset n value⟩

def E820_ENTRIES : Nat := 0x1E8
def E820_MAP : Nat := 0x2D0
def SETUP_SECTS : Nat := SETUP_HEADER_OFFSET
def VID_MODE : Nat := SETUP_HEADER_OFFSET + 0x09
def TYPE_OF_LOADER : Nat := SETUP_HEADER_OFFSET + 0x1F
def LOADFLAGS : Nat := SETUP_HEADER_OFFSET + 0x20
def RAMDISK_IMAGE : Nat := SETUP_HEADER_OFFSET + 0x27
def RAMDISK_SIZE : Nat := SETUP_HEADER_OFFSET + 0x2B
def HEAP_END_PTR : Nat := SETUP_HEADER_OFFSET + 0x33
def EXT_LOADER_VER : Nat := SETUP_HEADER_OFFSET + 0x35
def CMD_LINE_PTR : Nat := SETUP_HEADER_OFFSET + 0x37
def INITRD_ADDR_MAX : Nat := SETUP_HEADER_OFFSET + 0x3B
def CMDLINE_SIZE : Nat := SETUP_HEADER_OFFSET + 0x47

/-- `hdr.setup_sects`. -/
def setupSects (bp : BootParams) : BitVec 8 := bp.bytes SETUP_SECTS

/-- `hdr.initrd_addr_max`. -/
def initrdAddrMax (bp : BootParams) : BitVec 32 := loadBytes bp.bytes INITRD_ADDR_MAX 4

/-- `hdr.cmdline_size`. -/
def cmdlineSize (bp : BootParams) : BitVec 32 := loadBytes bp.bytes CMDLINE_SIZE 4

/-- The flag with the given bit of `hdr.loadflags` is set to 1. -/
def setLoadflag (bp : BootParams) (bit : Nat) : BootParams :=
  bp.set LOADFLAGS 1 (bp.bytes LOADFLAGS ||| 1#8 <<< bit)

/-- `bootparams_from_bzimage`, on a cleared `BootParams`. -/
def fromBzimage (bytes : Nat → BitVec 8) : BootParams :=
  ⟨writeBytes (fun _ => 0#8) 0 bytes SIZEOF_BOOT_PARAMS⟩

/-- `bootparams_add_e820_entry`. -/
def addE820Entry (bp : BootParams) (addr size : BitVec 64) (type : E820Type) : BootParams :=
  let entry := E820_MAP + 0x14 * (bp.bytes E820_ENTRIES).toNat
  let bp := bp.set entry 8 addr
  let bp := bp.set (entry + 8) 8 size
  let bp := bp.set (entry + 16) 4 type.value
  bp.set E820_ENTRIES 1 (bp.bytes E820_ENTRIES + 1#8)

/-- `protected_code_offset`. -/
def protectedCodeOffset (bp : BootParams) : Nat := (bp.setupSects.toNat + 1) * 512

end BootParams

/-- `SetupHeader`, by the offset of its bytes. -/
structure SetupHeader where
  bytes : Mem

/-- `sizeof(SetupHeader)`. -/
def SIZEOF_SETUP_HEADER : Nat := 0x7B

namespace SetupHeader

/-- `setup_sects`. -/
def setupSects (hdr : SetupHeader) : BitVec 8 := hdr.bytes 0

/-- `setupheader_from_bzimage`, on a cleared `SetupHeader`. -/
def fromBzimage (bytes : Nat → BitVec 8) : SetupHeader :=
  let hdr : SetupHeader :=
    ⟨writeBytes (fun _ => 0#8) 0 (fun i => bytes (SETUP_HEADER_OFFSET + i)) SIZEOF_SETUP_HEADER⟩
  if hdr.setupSects = 0#8 then ⟨fun i => if i = 0 then 4#8 else hdr.bytes i⟩ else hdr

/-- `protected_code_offset`. -/
def protectedCodeOffset (hdr : SetupHeader) : Nat := (hdr.setupSects.toNat + 1) * 512

end SetupHeader

/-- The member `hdr`. -/
def BootParams.hdr (bp : BootParams) : SetupHeader := ⟨fun i => bp.bytes (SETUP_HEADER_OFFSET + i)⟩

end YmirC
