import YmirC.Mem
import YmirC.PageAllocatorIf

/-!
# `YmirC.BinAllocator`: the bin allocator

`bin_allocator.c`, over any page allocator. The free chunks of a bin form a linked list whose
links are in the chunks themselves, so the state holds the memory. `pages` is the one field
the source does not have: it records which page went to which bin, and no function reads it.
-/

set_option autoImplicit false

namespace YmirC

open ByteMemory

/-- The number of a bin, below `BIN_SIZE_NUM`. -/
abbrev BinIndex : Type := Fin 7

/-- `bin_sizes`. -/
def binSizes (i : BinIndex) : Nat := [0x20, 0x40, 0x80, 0x100, 0x200, 0x400, 0x800].get i

/-- The static variables of `bin_allocator.c`, the memory, the page allocator's state, and
the record of the pages the bins got. -/
structure BinAllocator (σ : Type) where
  listHeads : BinIndex → Nat
  mem : Mem
  pa : σ
  pages : List (BinIndex × Nat)

namespace BinAllocator

variable {σ : Type}

/-- `list_heads[bin_index] = p`. -/
def setHead (ba : BinAllocator σ) (binIndex : BinIndex) (p : Nat) : BinAllocator σ :=
  { ba with listHeads := fun j => if j = binIndex then p else ba.listHeads j }

/-- `node->next = p`. -/
def setNext (ba : BinAllocator σ) (node p : Nat) : BinAllocator σ :=
  { ba with mem := store64 ba.mem node (BitVec.ofNat 64 p) }

/-- `push`. -/
def push (ba : BinAllocator σ) (node : Nat) (binIndex : BinIndex) : BinAllocator σ :=
  if ba.listHeads binIndex ≠ 0 then
    (ba.setNext node (ba.listHeads binIndex)).setHead binIndex node
  else (ba.setNext node 0).setHead binIndex node

/-- `pop`. -/
def pop (ba : BinAllocator σ) (binIndex : BinIndex) : Run (Nat × BinAllocator σ) :=
  let first := ba.listHeads binIndex
  if first ≠ 0 then .ok (first, ba.setHead binIndex (load64 ba.mem first).toNat)
  else .error (.panic "BinAllocator: pop from empty list")

/-- The loop of `init_bin_page`, with `i` chunks still to push, the highest first. -/
def pushChunks (newPage : Nat) (binIndex : BinIndex) : (i : Nat) → BinAllocator σ → BinAllocator σ
  | 0, ba => ba
  | i + 1, ba =>
      pushChunks newPage binIndex i (ba.push (u64 (newPage + i * binSizes binIndex)) binIndex)

/-- `init_bin_page`. The result is false when no page is left. -/
def initBinPage (ops : PageAllocatorOps σ) (binIndex : BinIndex) (ba : BinAllocator σ) :
    Run (Bool × BinAllocator σ) := do
  let (newPage, pa) ← ops.alloc PAGE_SIZE ba.pa
  let ba := { ba with pa := pa }
  if newPage = 0 then pure (false, ba)
  else
    let ba := { ba with pages := (binIndex, newPage) :: ba.pages }
    pure (true, pushChunks newPage binIndex (PAGE_SIZE / binSizes binIndex) ba)

/-- `alloc_from_bin`. -/
def allocFromBin (ops : PageAllocatorOps σ) (binIndex : BinIndex) (ba : BinAllocator σ) :
    Run (Nat × BinAllocator σ) :=
  if ba.listHeads binIndex = 0 then do
    let (success, ba) ← initBinPage ops binIndex ba
    if success then ba.pop binIndex else pure (0, ba)
  else ba.pop binIndex

/-- `free_to_bin`. -/
def freeToBin (binIndex : BinIndex) (ptr : Nat) (ba : BinAllocator σ) : BinAllocator σ :=
  ba.push ptr binIndex

end BinAllocator

/-- `bin_index`. `none` is the source's -1. -/
def binIndex (size : Nat) : Option BinIndex :=
  (List.finRange 7).find? fun i => decide (size ≤ binSizes i)

/-- `is_aligned_to_bin`. -/
def isAlignedToBin (addr binSize : Nat) : Bool :=
  let offset := addr % PAGE_SIZE
  offset % binSize = 0

namespace BinAllocator

variable {σ : Type}

/-- `bin_alloc`. -/
def binAlloc (ops : PageAllocatorOps σ) (n : Nat) (ba : BinAllocator σ) :
    Run (Nat × BinAllocator σ) :=
  match binIndex n with
  | some index => allocFromBin ops index ba
  | none => do
      let (ptr, pa) ← ops.alloc n ba.pa
      pure (ptr, { ba with pa := pa })

/-- `bin_free`. A misaligned pointer is logged and ignored. -/
def binFree (ops : PageAllocatorOps σ) (ptr n : Nat) (ba : BinAllocator σ) :
    Run (BinAllocator σ) :=
  match binIndex n with
  | some index =>
      if !isAlignedToBin ptr (binSizes index) then .ok ba
      else .ok (freeToBin index ptr ba)
  | none => do
      let pa ← ops.free ptr n ba.pa
      pure { ba with pa := pa }

end BinAllocator

end YmirC
