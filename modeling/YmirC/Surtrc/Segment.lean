import YmirC.Lib.PageRights
import YmirC.Surtrc.Boot

/-!
# `YmirC.Surtrc.Segment`: how the boot loader loads the kernel (`surtrc/boot.c`)

`load_segment` reads every segment to the virtual address its header gives, clears the rest of it
and then takes the rights away that the segment does not need, page by page (`change_map_4k` of
`surtrc/arch/x86/page.c`). The segments are written through the page tables, with `CR0.WP` set, so
each of these writes needs a page that is writable then. The entries of the tables are reached at
their physical addresses, as everywhere in the loader. `invlpg` makes a change of an entry visible
at once, and a translation is always the one of the tables in memory.

The file handle is a parameter, a pair of functions on a state of the file.
-/

set_option autoImplicit false

namespace YmirC.Surtrc

open ByteMemory Paging

variable {φ ψ : Type}

/-- `PageAttribute`. -/
inductive PageAttribute where
  | readOnly
  | readWrite
  | executable
  deriving DecidableEq, Repr

def ENTRY_XD : Nat := 63

/-- The `switch` of `change_map_4k`, on the value of the entry. -/
def changeAttribute (value : BitVec 64) : PageAttribute → BitVec 64
  | .readOnly => (value &&& ~~~BIT ENTRY_RW) ||| BIT ENTRY_XD
  | .readWrite => (value ||| BIT ENTRY_RW) ||| BIT ENTRY_XD
  | .executable => (value &&& ~~~BIT ENTRY_RW) &&& ~~~BIT ENTRY_XD

/-- `change_map_4k`. -/
def changeMap4k (virt : Nat) (attr : PageAttribute) (m : Loader φ) : Loader φ :=
  let lv4ent := getEntryAddress virt m.cr3 .level4
  let lv3ent := getEntryAddress virt (physOf (m.value lv4ent)) .level3
  let lv2ent := getEntryAddress virt (physOf (m.value lv3ent)) .level2
  let lv1ent := getEntryAddress virt (physOf (m.value lv2ent)) .level1
  m.setValue lv1ent (changeAttribute (m.value lv1ent) attr)

/-- Why `load_segment` did not get through. -/
inductive SegmentStop where
  /-- It returned the error status of a call of the firmware. -/
  | status (value : Nat)
  /-- A write to this address raised a page fault. -/
  | pageFault (virt : Nat)
  deriving DecidableEq, Repr

/-- The result of a function that loads a segment. -/
abbrev Loading (α : Type) : Type := Except SegmentStop α

/-- `EFI_FILE_HANDLE`, the two functions the loader calls, on a file with state `ψ`. `Read` stores
its bytes in the buffer and leaves their number in its size argument. -/
structure FileHandle (ψ : Type) where
  setPosition : (position : Nat) → ψ → Except Nat ψ
  read : (size : Nat) → ψ → Except Nat (List (BitVec 8) × ψ)

/-- `Elf64_Phdr`, with the fields `load_segment` reads. -/
structure SegmentPhdr extends Elf64Phdr where
  pFlags : BitVec 32
  pOffset : BitVec 64
  pFilesz : BitVec 64
  deriving DecidableEq, Repr

def PF_X : BitVec 32 := 1

def PF_W : BitVec 32 := 2

def EFI_PAGE_MASK : BitVec 64 := 0xFFF

/-- `read_p_flags`. -/
def readPFlags (flags : BitVec 32) : PageAttribute :=
  if flags &&& PF_X ≠ 0#32 then .executable
  else if flags &&& PF_W ≠ 0#32 then .readWrite
  else .readOnly

/-- `TRY_EFI` around a call of the file handle. -/
def tryEfi {α : Type} : Except Nat α → Loading α
  | .ok a => .ok a
  | .error status => .error (.status status)

/-- The bytes a function of the firmware stores through a pointer. -/
def Loader.store (m : Loader φ) (virt : Nat) (bytes : List (BitVec 8)) : Loading (Loader φ) :=
  match storeAll m.cr3 m.mem virt bytes with
  | .ok mem => .ok { m with mem := mem }
  | .error va => .error (.pageFault va)

/-- `read_file`, with the value it leaves in `*size`. -/
def readFile (kernel : FileHandle ψ) (buffer size : Nat) (m : Loader φ) (file : ψ) :
    Loading (Nat × Loader φ × ψ) := do
  let (bytes, file) ← tryEfi (kernel.read size file)
  let m ← m.store buffer bytes
  .ok (bytes.length, m, file)

/-- `ZeroMem`. -/
def zeroMem (buffer size : Nat) (m : Loader φ) : Loading (Loader φ) :=
  m.store buffer (List.replicate size 0#8)

/-- `SetPosition` and `read_file`, unless the segment has no bytes in the file. -/
def readSegment (kernel : FileHandle ψ) (ph : SegmentPhdr) (m : Loader φ) (file : ψ) :
    Loading (Nat × Loader φ × ψ) :=
  let fileSize := ph.pFilesz.toNat
  if fileSize > 0 then do
    let file ← tryEfi (kernel.setPosition ph.pOffset.toNat file)
    readFile kernel ph.pVaddr.toNat fileSize m file
  else .ok (fileSize, m, file)

/-- `zero_count`, an `int`. -/
def zeroCount (memSize fileSize : Nat) : Int := (BitVec.ofNat 32 (sub64 memSize fileSize)).toInt

/-- The bytes of a segment behind the `fileSize` ones that were read are cleared. -/
def zeroSegment (ph : SegmentPhdr) (fileSize : Nat) (m : Loader φ) : Loading (Loader φ) :=
  let count := zeroCount ph.pMemsz.toNat fileSize
  if count > 0 then zeroMem (u64 (ph.pVaddr.toNat + fileSize)) (toUINTN count) m else .ok m

/-- `page_start`. -/
def SegmentPhdr.pageStart (ph : SegmentPhdr) : Nat := (ph.pVaddr &&& ~~~EFI_PAGE_MASK).toNat

/-- `page_end`. -/
def SegmentPhdr.pageEnd (ph : SegmentPhdr) : Nat :=
  ((ph.pVaddr + ph.pMemsz + (BitVec.ofNat 64 EFI_PAGE_SIZE - 1)) &&& ~~~EFI_PAGE_MASK).toNat

/-- The loop over the pages of a segment. -/
def changePages (pageStart : Nat) (attr : PageAttribute) : Nat → Loader φ → Loader φ
  | 0, m => m
  | i + 1, m =>
      changeMap4k (u64 (pageStart + EFI_PAGE_SIZE * i)) attr (changePages pageStart attr i m)

/-- The body of the loop of `load_segment`, for a segment that is loaded. -/
def loadOne (kernel : FileHandle ψ) (ph : SegmentPhdr) (s : Loader φ × ψ) :
    Loading (Loader φ × ψ) := do
  let (fileSize, m, file) ← readSegment kernel ph s.1 s.2
  let m ← zeroSegment ph fileSize m
  let size := sub64 ph.pageEnd ph.pageStart / EFI_PAGE_SIZE
  .ok (changePages ph.pageStart (readPFlags ph.pFlags) size m, file)

/-- `load_segment`. -/
def loadSegment (kernel : FileHandle ψ) : List SegmentPhdr → Loader φ × ψ → Loading (Loader φ × ψ)
  | [], s => .ok s
  | ph :: phdr, s =>
      if ph.pType ≠ PT_LOAD ∨ ph.pMemsz = 0#64 then loadSegment kernel phdr s
      else loadOne kernel ph s >>= loadSegment kernel phdr

end YmirC.Surtrc
