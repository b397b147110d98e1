import YmirC.Surtrc.Segment

/-!
# `YmirC.Surtrc.EfiMain`: from the firmware to the kernel (`surtrc/boot.c`, `surtrc/def.h`)

`efiMain` is `efi_main` up to the call of `kernel_entry`, with the argument of that call. The
firmware is a parameter, one function on its state for every call the loader makes. Handles are
the pointers they are.

Like the segments, the other buffers are read and written through the page tables. The log lines
are left out except for those between the memory map and the end of the boot services, because
the console is a boot service, too, and may change the memory map.
-/

set_option autoImplicit false

namespace YmirC.Surtrc

open ByteMemory Paging

variable {φ : Type}

def MAGIC : Nat := 0xDEADBEEFCAFEBABE

/-- `MemoryMap`. -/
structure MemoryMap where
  bufferSize : Nat
  descriptors : List EfiMemoryDescriptor
  mapSize : Nat
  mapKey : Nat
  descriptorSize : Nat
  descriptorVersion : Nat
  deriving DecidableEq, Repr

/-- `GuestInfo`. -/
structure GuestInfo where
  guestImage : Nat
  guestSize : Nat
  initrdAddr : Nat
  initrdSize : Nat
  deriving DecidableEq, Repr

/-- `BootInfo`. -/
structure BootInfo where
  magic : Nat
  map : MemoryMap
  guestInfo : GuestInfo
  deriving DecidableEq, Repr

/-- The protocols the loader opens. -/
inductive EfiProtocol where
  | loadedImage
  | simpleFileSystem
  deriving DecidableEq, Repr

/-- `EFI_ERROR`: the status has the highest bit. -/
def EFI_ERROR (status : Nat) : Bool := 2 ^ 63 ≤ status

def EFI_INVALID_PARAMETER : Nat := 2 ^ 63 + 2
def EFI_OUT_OF_RESOURCES : Nat := 2 ^ 63 + 9

/-- The functions of the firmware. Each returns the new state, or the error status. -/
structure Firmware (φ : Type) extends BootServices φ where
  clearScreen : φ → Except Nat φ
  openProtocol : (handle : Nat) → EfiProtocol → φ → Except Nat (Nat × φ)
  /-- `DeviceHandle` of a loaded image. -/
  deviceHandle : (loadedImage : Nat) → φ → Nat
  openVolume : (fileSystem : Nat) → φ → Except Nat (Nat × φ)
  /-- `Open`, for reading. -/
  openFile : (dir : Nat) → (name : String) → φ → Except Nat (Nat × φ)
  setPosition : (file position : Nat) → φ → Except Nat φ
  read : (file size : Nat) → φ → Except Nat (List (BitVec 8) × φ)
  /-- `FileSize` of `LibFileInfo`, which is null when there is no memory for it. -/
  libFileSize : (file : Nat) → φ → Option (Nat × φ)
  close : (file : Nat) → φ → Except Nat φ
  /-- The result is null when there is no memory. -/
  allocatePool : (size : Nat) → φ → Option (Nat × φ)
  freePool : (buffer : Nat) → φ → φ
  /-- Into a buffer of the given size. -/
  getMemoryMap : (size : Nat) → φ → Except Nat (MemoryMap × φ)
  /-- A log line. -/
  output : φ → φ
  /-- The status, and the state in either case. -/
  exitBootServices : (imageHandle mapKey : Nat) → φ → Nat × φ

/-- Why `efi_main` did not call the kernel. -/
inductive EfiStop where
  /-- It returned an error status. -/
  | status (value : Nat)
  /-- `exit(1)`, after the given `LOG_ERROR`. -/
  | exit (log : String)
  /-- A page fault at this address. -/
  | pageFault (virt : Nat)
  /-- `LibFileInfo` returned null. -/
  | noFileInfo
  deriving DecidableEq, Repr

abbrev Efi (α : Type) : Type := Except EfiStop α

/-- What a function of the page tables stopped with. -/
def ofLoad {α : Type} : Load α → Efi α
  | .ok a => .ok a
  | .error (.exit log) => .error (.exit log)
  | .error (.status value) => .error (.status value)

/-- What a function that loads a segment stopped with. -/
def ofLoading {α : Type} : Loading α → Efi α
  | .ok a => .ok a
  | .error (.status value) => .error (.status value)
  | .error (.pageFault virt) => .error (.pageFault virt)

namespace Loader

/-- `TRY_EFI`, around a call with a result. -/
def tryCall {α : Type} (m : Loader φ) : Except Nat (α × φ) → Efi (α × Loader φ)
  | .ok (a, fw) => .ok (a, { m with fw := fw })
  | .error status => .error (.status status)

/-- `TRY_EFI`. -/
def tryDo (m : Loader φ) : Except Nat φ → Efi (Loader φ)
  | .ok fw => .ok { m with fw := fw }
  | .error status => .error (.status status)

/-- `AllocatePool`, and the error `efi_main` returns for a null pointer. -/
def tryPool (m : Loader φ) : Option (Nat × φ) → Efi (Nat × Loader φ)
  | some (buffer, fw) => .ok (buffer, { m with fw := fw })
  | none => .error (.status EFI_OUT_OF_RESOURCES)

/-- The byte at a virtual address. -/
def byte (m : Loader φ) (virt : Nat) : Efi (BitVec 8) :=
  match translateAddr m.mem m.cr3 virt with
  | some p => .ok (m.mem p)
  | none => .error (.pageFault virt)

/-- A number of this many bytes. -/
def number (m : Loader φ) (virt : Nat) : (bytes : Nat) → Efi Nat
  | 0 => .ok 0
  | bytes + 1 => do
      let low ← m.byte virt
      let high ← m.number (virt + 1) bytes
      .ok (low.toNat + 256 * high)

end Loader

section Files
variable (fw : Firmware φ)

/-- `EFI_FILE_HANDLE`. -/
def Firmware.handle (file : Nat) : FileHandle φ where
  setPosition := fw.setPosition file
  read := fw.read file

/-- `open_volume`. -/
def openVolume (imageHandle : Nat) (m : Loader φ) : Efi (Nat × Loader φ) := do
  let (loadedImage, m) ← m.tryCall (fw.openProtocol imageHandle .loadedImage m.fw)
  let (fileSystem, m) ←
    m.tryCall (fw.openProtocol (fw.deviceHandle loadedImage m.fw) .simpleFileSystem m.fw)
  m.tryCall (fw.openVolume fileSystem m.fw)

/-- `open_file`. -/
def openFile (dir : Nat) (name : String) (m : Loader φ) : Efi (Nat × Loader φ) :=
  m.tryCall (fw.openFile dir name m.fw)

/-- `read_file`. The file is part of the state of the firmware. -/
def readInto (file buffer size : Nat) (m : Loader φ) : Efi (Nat × Loader φ) := do
  let (count, m, s) ← ofLoading (readFile (fw.handle file) buffer size m m.fw)
  .ok (count, { m with fw := s })

/-- `file_size`. -/
def fileSize (file : Nat) (m : Loader φ) : Efi (Nat × Loader φ) :=
  match fw.libFileSize file m.fw with
  | some (size, s) => .ok (size, { m with fw := s })
  | none => .error .noFileInfo

/-- The pages of a file, in the arithmetic of `UINT64`. -/
def pagesOf (size : Nat) : Nat := u64 (size + (EFI_PAGE_SIZE - 1)) / EFI_PAGE_SIZE

/-- `efi_main`, from `open_file` to `read_file` of the guest image, and of the initrd. The results
are the handle, the address and the number of bytes that were read. -/
def loadFile (dir : Nat) (name : String) (m : Loader φ) : Efi (Nat × Nat × Nat × Loader φ) := do
  let (file, m) ← openFile fw dir name m
  let (size, m) ← fileSize fw file m
  let (start, m) ← m.tryCall (fw.allocatePages .anyPages .loaderData (pagesOf size) 0 m.fw)
  let (size, m) ← readInto fw file start size m
  .ok (file, start, size, m)

end Files

/-! ### The ELF header -/

def SIZEOF_EHDR : Nat := 64
def SIZEOF_PHDR : Nat := 56

/-- `Elf64_Ehdr`, the fields the loader reads. -/
structure Elf64Ehdr where
  eEntry : Nat
  ePhoff : Nat
  ePhentsize : Nat
  ePhnum : Nat
  deriving DecidableEq, Repr

/-- The header at an address. -/
def readEhdr (buffer : Nat) (m : Loader φ) : Efi Elf64Ehdr := do
  let eEntry ← m.number (buffer + 24) 8
  let ePhoff ← m.number (buffer + 32) 8
  let ePhentsize ← m.number (buffer + 54) 2
  let ePhnum ← m.number (buffer + 56) 2
  .ok { eEntry, ePhoff, ePhentsize, ePhnum }

/-- The program header at an address. -/
def readPhdr (buffer : Nat) (m : Loader φ) : Efi SegmentPhdr := do
  let pType ← m.number buffer 4
  let pFlags ← m.number (buffer + 4) 4
  let pOffset ← m.number (buffer + 8) 8
  let pVaddr ← m.number (buffer + 16) 8
  let pPaddr ← m.number (buffer + 24) 8
  let pFilesz ← m.number (buffer + 32) 8
  let pMemsz ← m.number (buffer + 40) 8
  .ok
    { pType := BitVec.ofNat 32 pType
      pVaddr := BitVec.ofNat 64 pVaddr
      pPaddr := BitVec.ofNat 64 pPaddr
      pMemsz := BitVec.ofNat 64 pMemsz
      pFlags := BitVec.ofNat 32 pFlags
      pOffset := BitVec.ofNat 64 pOffset
      pFilesz := BitVec.ofNat 64 pFilesz }

/-- `phdr[0]` to `phdr[n - 1]`. -/
def readPhdrs (m : Loader φ) : (buffer n : Nat) → Efi (List SegmentPhdr)
  | _, 0 => .ok []
  | buffer, n + 1 => do
      let ph ← readPhdr buffer m
      let phdr ← readPhdrs m (buffer + SIZEOF_PHDR) n
      .ok (ph :: phdr)

/-- `e_phnum * e_phentsize`, an `int`. -/
def phsize (header : Elf64Ehdr) : Nat :=
  toUINTN (BitVec.ofNat 32 (header.ePhnum * header.ePhentsize)).toInt

section Main
variable (fw : Firmware φ)

/-- `efi_main`, from `set_lv4table_writable` to `load_segment`. The result has the buffer of the
program headers. -/
def loadKernelFile (kernel headerBuffer : Nat) (m : Loader φ) : Efi (Nat × Loader φ) := do
  let m ← ofLoad (setLv4tableWritable fw.toBootServices m)
  let header ← readEhdr headerBuffer m
  let m ← m.tryDo (fw.setPosition kernel header.ePhoff m.fw)
  let (phBuffer, m) ← m.tryPool (fw.allocatePool (phsize header) m.fw)
  let (_, m) ← readInto fw kernel phBuffer (phsize header) m
  let phdr ← readPhdrs m phBuffer header.ePhnum
  let m ← ofLoad (mapKernel fw.toBootServices (phdr.map SegmentPhdr.toElf64Phdr) m)
  let phdr ← readPhdrs m phBuffer header.ePhnum
  let (m, s) ← ofLoading (loadSegment (fw.handle kernel) phdr (m, m.fw))
  .ok (phBuffer, { m with fw := s })

/-- `map_buffer_size`. -/
def MAP_BUFFER_SIZE : Nat := EFI_PAGE_SIZE * 4

/-- `GetMemoryMap`. -/
def getMemoryMap (m : Loader φ) : Efi (MemoryMap × Loader φ) :=
  m.tryCall ((fw.getMemoryMap MAP_BUFFER_SIZE m.fw).map fun (map, s) =>
    ({ map with bufferSize := MAP_BUFFER_SIZE }, s))

/-- The log lines behind the memory map: one, one for each descriptor, and one more. -/
def logMemoryMap : (lines : Nat) → Loader φ → Loader φ
  | 0, m => m
  | lines + 1, m => logMemoryMap lines { m with fw := fw.output m.fw }

/-- `efi_main`, from the first `GetMemoryMap` on. A call of `ExitBootServices` with a key that is
too old is made once more with a new map. -/
def leaveBootServices (imageHandle : Nat) (m : Loader φ) : Efi (MemoryMap × Loader φ) := do
  let (map, m) ← getMemoryMap fw m
  let m := logMemoryMap fw (map.mapSize / map.descriptorSize + 2) m
  let (status, s) := fw.exitBootServices imageHandle map.mapKey m.fw
  let m := { m with fw := s }
  if status = EFI_INVALID_PARAMETER then
    let (map, m) ← getMemoryMap fw m
    let (status, s) := fw.exitBootServices imageHandle map.mapKey m.fw
    if EFI_ERROR status then .error (.status status) else .ok (map, { m with fw := s })
  else .ok (map, m)

/-- `efi_main`: the entry point of the kernel and its argument. -/
def efiMain (imageHandle : Nat) (m : Loader φ) : Efi (Nat × BootInfo × Loader φ) := do
  let m ← m.tryDo (fw.clearScreen m.fw)
  let (rootDir, m) ← openVolume fw imageHandle m
  let (kernel, m) ← openFile fw rootDir "ymirc.elf" m
  let (headerBuffer, m) ← m.tryPool (fw.allocatePool SIZEOF_EHDR m.fw)
  let (_, m) ← readInto fw kernel headerBuffer SIZEOF_EHDR m
  let header ← readEhdr headerBuffer m
  let (phBuffer, m) ← loadKernelFile fw kernel headerBuffer m
  let (guest, guestStart, guestSize, m) ← loadFile fw rootDir "bzImage" m
  let (_, initrdStart, initrdSize, m) ← loadFile fw rootDir "rootfs.cpio.gz" m
  let m := { m with fw := fw.freePool headerBuffer m.fw }
  let m := { m with fw := fw.freePool phBuffer m.fw }
  let m ← m.tryDo (fw.close kernel m.fw)
  let m ← m.tryDo (fw.close rootDir m.fw)
  let m ← m.tryDo (fw.close guest m.fw)
  let (map, m) ← leaveBootServices fw imageHandle m
  let guestInfo := { guestImage := guestStart, guestSize, initrdAddr := initrdStart, initrdSize }
  .ok (header.eEntry, { magic := MAGIC, map, guestInfo }, m)

end Main

end YmirC.Surtrc
