import YmirC.Bits
import YmirC.Mem
import YmirC.PageAllocatorIf

/-!
# `YmirC.PageAllocator`: the bitmap page allocator

`page_allocator.c`. The bitmap is a function from line numbers to 64-bit lines, and the table
of regions reserved by the firmware a list whose length is `reserved_region_count`.

The two searches share their inner `for` loop (`scan`) and differ in how they go on after a
used frame. `search` is the outer `while (1)` with that step as a parameter. It takes gas, and
`Halt.loop` when the gas is used up means that the source loop does not end:
`start_frame` grows in every round unless `align_frame` is 0, and then no variable changes.
-/

set_option autoImplicit false

namespace YmirC

def MAX_PHYSICAL_SIZE : Nat := 128 * 1024 * 1024 * 1024
def FRAME_COUNT : Nat := MAX_PHYSICAL_SIZE / PAGE_SIZE
def BITS_PER_MAPLINE : Nat := 64
def MAX_UEFI_RESERVED_RESIONS : Nat := 1024

/-- `UefiReservedRegion`. -/
structure UefiReservedRegion where
  frame : Nat
  numFrames : Nat
  deriving DecidableEq, Repr

/-- `FrameStatus`. -/
inductive FrameStatus where
  | used
  | unused
  deriving DecidableEq, Repr

/-- The static variables of `page_allocator.c`, as they are before `page_allocator_init`.
`frame_begin` is never written and is a constant. -/
structure PageAllocator where
  bitmap : Nat → BitVec 64 := fun _ => 0#64
  frameEnd : Nat := 0
  reservedRegions : List UefiReservedRegion := []

/-- The memory types of UEFI. `other` are the values its specification leaves to vendors. -/
inductive EfiMemoryType where
  | reservedMemoryType
  | loaderCode
  | loaderData
  | bootServicesCode
  | bootServicesData
  | runtimeServicesCode
  | runtimeServicesData
  | conventionalMemory
  | unusableMemory
  | acpiReclaimMemory
  | acpiMemoryNvs
  | memoryMappedIo
  | memoryMappedIoPortSpace
  | palCode
  | other (value : BitVec 32)
  deriving DecidableEq, Repr

/-- `EFI_MEMORY_DESCRIPTOR`, the fields the allocator reads. -/
structure EfiMemoryDescriptor where
  type : EfiMemoryType
  physicalStart : Nat
  numberOfPages : Nat
  deriving DecidableEq, Repr

/-- `frame_begin`. Frame 0 is reserved. -/
def frameBegin : Nat := 1

/-- `phys2frame`. -/
def phys2frame (phys : Nat) : Nat := phys / PAGE_SIZE

/-- `frame2phys`. -/
def frame2phys (frame : Nat) : Nat := u64 (frame * PAGE_SIZE)

/-- `is_usable_memory`. -/
def isUsableMemory (desc : EfiMemoryDescriptor) : Bool :=
  desc.type = .conventionalMemory || desc.type = .bootServicesCode

namespace PageAllocator

/-- `add_reserved_region`. -/
def addReservedRegion (pa : PageAllocator) (frame numFrames : Nat) : Run PageAllocator :=
  if pa.reservedRegions.length ≥ MAX_UEFI_RESERVED_RESIONS then
    .error (.panic "The count of memory region reserved by UEFI exceeds the limit.")
  else .ok { pa with reservedRegions := pa.reservedRegions ++ [⟨frame, numFrames⟩] }

/-- `overlaps_reserved`. -/
def overlapsReserved (pa : PageAllocator) (frame numFrames : Nat) : Bool :=
  pa.reservedRegions.any fun r =>
    decide (frame < u64 (r.frame + r.numFrames)) && decide (u64 (frame + numFrames) > r.frame)

/-- `frame_status_at`. -/
def frameStatusAt (pa : PageAllocator) (frame : Nat) : FrameStatus :=
  let lineIndex := frame / BITS_PER_MAPLINE
  let bitIndex := frame % BITS_PER_MAPLINE
  if pa.bitmap lineIndex &&& tobit bitIndex ≠ 0#64 then .used else .unused

/-- `set_frame_status`. -/
def setFrameStatus (pa : PageAllocator) (frame : Nat) (status : FrameStatus) : PageAllocator :=
  let lineIndex := frame / BITS_PER_MAPLINE
  let bitIndex := frame % BITS_PER_MAPLINE
  { pa with bitmap := fun line =>
      if line = lineIndex then
        if status = .used then pa.bitmap line ||| tobit bitIndex
        else pa.bitmap line &&& ~~~tobit bitIndex
      else pa.bitmap line }

/-- The loop of `mark_allocated` and `mark_not_used`. -/
def mark (status : FrameStatus) (pa : PageAllocator) (frame : Nat) : Nat → PageAllocator
  | 0 => pa
  | i + 1 => (mark status pa frame i).setFrameStatus (u64 (frame + i)) status

/-- `mark_allocated`. -/
def markAllocated (pa : PageAllocator) (frame numFrames : Nat) : PageAllocator :=
  mark .used pa frame numFrames

/-- `mark_not_used`. -/
def markNotUsed (pa : PageAllocator) (frame numFrames : Nat) : PageAllocator :=
  mark .unused pa frame numFrames

/-- `mark_uefi_reserved`. -/
def markUefiReserved (pa : PageAllocator) (frame numFrames : Nat) : Run PageAllocator :=
  (pa.markAllocated frame numFrames).addReservedRegion frame numFrames

/-- The hole between the last region and one that starts below `MAX_PHYSICAL_SIZE` is marked
as allocated. -/
def markHole (pa : PageAllocator) (physEnd physicalStart : Nat) : Run PageAllocator :=
  if physEnd < physicalStart then
    pa.markUefiReserved (phys2frame physEnd) (sub64 physicalStart physEnd / PAGE_SIZE)
  else .ok pa

/-- The loop of `page_allocator_init`, with `phys_end` and `avail_end`. It returns the final
`avail_end`. -/
def initLoop : List EfiMemoryDescriptor → (physEnd availEnd : Nat) → PageAllocator →
    Run (Nat × PageAllocator)
  | [], _, availEnd, pa => .ok (availEnd, pa)
  | desc :: rest, physEnd, availEnd, pa =>
      if physEnd < desc.physicalStart ∧ desc.physicalStart ≥ MAX_PHYSICAL_SIZE then do
        let pa ← pa.markUefiReserved (phys2frame physEnd)
          (sub64 MAX_PHYSICAL_SIZE physEnd / PAGE_SIZE)
        pure (availEnd, pa)
      else do
        let pa ← pa.markHole physEnd desc.physicalStart
        let physEnd := u64 (desc.physicalStart + u64 (desc.numberOfPages * PAGE_SIZE))
        if physEnd ≥ MAX_PHYSICAL_SIZE then do
          let pa ← pa.markUefiReserved (phys2frame desc.physicalStart)
            (sub64 MAX_PHYSICAL_SIZE desc.physicalStart / PAGE_SIZE)
          pure (availEnd, pa)
        else if isUsableMemory desc then
          initLoop rest physEnd physEnd
            (pa.markNotUsed (phys2frame desc.physicalStart) desc.numberOfPages)
        else do
          let pa ← pa.markUefiReserved (phys2frame desc.physicalStart) desc.numberOfPages
          initLoop rest physEnd availEnd pa

/-- The inner loop's answer: it ran into `frame_end`, it broke at a used frame after `i`
unused ones, or all frames are unused. -/
inductive Scan where
  | outOfFrames
  | usedAt (i : Nat)
  | allUnused
  deriving DecidableEq, Repr

/-- The inner `for` loop of both searches, with `remaining` rounds to go. -/
def scan (pa : PageAllocator) (startFrame i : Nat) : (remaining : Nat) → Scan
  | 0 => .allUnused
  | remaining + 1 =>
      if u64 (startFrame + i) ≥ pa.frameEnd then .outOfFrames
      else if pa.frameStatusAt (u64 (startFrame + i)) = .used then .usedAt i
      else scan pa startFrame (i + 1) remaining

/-- The outer `while (1)` of both searches. `next start i` is where it goes on when frame
`start + i` is used, `none` when it gives up. -/
def search (pa : PageAllocator) (numFrames : Nat) (next : Nat → Nat → Option Nat) :
    (gas startFrame : Nat) → Run (Option Nat)
  | 0, _ => .error .loop
  | gas + 1, startFrame =>
      match pa.scan startFrame 0 numFrames with
      | .outOfFrames => .ok none
      | .allUnused => .ok (some startFrame)
      | .usedAt i =>
          match next startFrame i with
          | none => .ok none
          | some startFrame' => search pa numFrames next gas startFrame'

/-- The end of both searches: the frames found are marked and their address returned. -/
def take (reconstructed : Bool) (pa : PageAllocator) (numFrames : Nat) :
    Option Nat → Nat × PageAllocator
  | none => (0, pa)
  | some startFrame =>
      (phys2virt reconstructed (frame2phys startFrame), pa.markAllocated startFrame numFrames)

/-- `alloc` goes on behind the used frame. -/
def allocNext (startFrame i : Nat) : Option Nat := some (u64 (startFrame + (i + 1)))

/-- `alloc`. -/
def alloc (reconstructed : Bool) (n : Nat) (pa : PageAllocator) : Run (Nat × PageAllocator) := do
  let numFrames := u64 (n + PAGE_SIZE - 1) / PAGE_SIZE
  let found ← pa.search numFrames allocNext (pa.frameEnd + 1) frameBegin
  pure (pa.take reconstructed numFrames found)

/-- `free`. -/
def free (reconstructed : Bool) (ptr n : Nat) (pa : PageAllocator) : Run PageAllocator :=
  let numFrames := u64 (n + PAGE_SIZE - 1) / PAGE_SIZE
  let startFrameVaddr := ptr - ptr % PAGE_SIZE
  let startFrame := phys2frame (virt2phys reconstructed startFrameVaddr)
  if pa.overlapsReserved startFrame numFrames then
    .error (.panic "Attempting to free memory reserved by UEFI firmware.")
  else .ok (pa.markNotUsed startFrame numFrames)

/-- `free` as a program on the static variables. It tells what `free` leaves open: the state of
the variables when the call panics. -/
def freeM (reconstructed : Bool) (ptr n : Nat) : EStateM Halt PageAllocator Unit := do
  let numFrames := u64 (n + PAGE_SIZE - 1) / PAGE_SIZE
  let startFrameVaddr := ptr - ptr % PAGE_SIZE
  let startFrame := phys2frame (virt2phys reconstructed startFrameVaddr)
  if (← get).overlapsReserved startFrame numFrames then
    throw (.panic "Attempting to free memory reserved by UEFI firmware.")
  modify fun pa => pa.markNotUsed startFrame numFrames

/-- `alloc_aligned_pages` goes on at the next aligned frame, unless it is too close to the
end. -/
def alignedNext (pa : PageAllocator) (numFrames alignFrame startFrame : Nat) (_ : Nat) :
    Option Nat :=
  let startFrame := u64 (startFrame + alignFrame)
  if u64 (startFrame + numFrames) ≥ pa.frameEnd then none else some startFrame

/-- `alloc_aligned_pages`. -/
def allocAlignedPages (reconstructed : Bool) (numPages alignSize : Nat) (pa : PageAllocator) :
    Run (Nat × PageAllocator) :=
  if alignSize % PAGE_SIZE ≠ 0 then .ok (0, pa)
  else do
    let numFrames := numPages
    let alignFrame := u64 (alignSize + PAGE_SIZE - 1) / PAGE_SIZE
    let found ← pa.search numFrames (pa.alignedNext numFrames alignFrame) (pa.frameEnd + 1)
      alignFrame
    pure (pa.take reconstructed numFrames found)

end PageAllocator

/-- `page_allocator_init`, on the allocator's initial static state. -/
def pageAllocatorInit (map : List EfiMemoryDescriptor) : Run PageAllocator := do
  let (availEnd, pa) ← PageAllocator.initLoop map 0 0 {}
  pure { pa with frameEnd := phys2frame availEnd }

/-- `pa_ops`, in the translation mode `reconstructed`. -/
def paOps (reconstructed : Bool) : PageAllocatorOps PageAllocator where
  alloc := PageAllocator.alloc reconstructed
  free := PageAllocator.free reconstructed
  allocAlignedPages := PageAllocator.allocAlignedPages reconstructed

end YmirC
