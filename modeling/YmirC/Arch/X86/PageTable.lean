import YmirC.Bits
import YmirC.Lib.Extent
import YmirC.Lib.Paging
import YmirC.Mem
import YmirC.PageAllocatorIf

/-!
# `YmirC.Arch.X86.PageTable`: what `page.c` and `svm_npt.c` share

`arch/x86/page.c` and `arch/x86/svm_npt.c` declare the same `Entry`, the same `PageTable`, the
same masks and the same `allocate_table`. They differ in the user bit of the entries they
write.

`Machine` is the state both work on: physical memory, the state of the page allocator, CR3,
the MSRs of the host and the global `mapping_reconstructed` of `mem.c`. A pointer is
dereferenced at the physical address `virt2phys` gives it, which is the identity map of UEFI
before the reconstruction and the direct map after it.

`tables` and `writes` are histories, latest first: the frames `allocate_table` has obtained,
and the ranges of addresses written through pointers. No modelled function reads them.
-/

set_option autoImplicit false

namespace YmirC

open ByteMemory

/-- The state the page table code works on, over an allocator with state `σ`. -/
structure Machine (σ : Type) where
  mem : Mem
  pa : σ
  cr3 : Nat
  msr : BitVec 32 → BitVec 64
  mappingReconstructed : Bool
  tables : List Nat
  writes : List Extent

def NUM_TABLE_ENTRIES : Nat := 512

def ENTRY_PRESENT : Nat := 0
def ENTRY_RW : Nat := 1
def ENTRY_US : Nat := 2
def ENTRY_PS : Nat := 7
def ENTRY_PHYS : Nat := 12

/-- `MASK(51) << ENTRY_PHYS`. -/
def PHYS_MASK : BitVec 64 := ((1#64 <<< 51) - 1#64) <<< ENTRY_PHYS

/-- `sizeof(PageTable)`. -/
def SIZEOF_PAGE_TABLE : Nat := 8 * NUM_TABLE_ENTRIES

namespace Machine

variable {σ : Type}

/-- The physical address behind a pointer. -/
def phys (m : Machine σ) (ptr : Nat) : Nat := virt2phys m.mappingReconstructed ptr

/-- `table->entries[i].value`. -/
def entry (m : Machine σ) (table i : Nat) : BitVec 64 := load64 m.mem (m.phys table + 8 * i)

/-- The `n` bytes at `ptr` are written, which leaves memory as `mem`. -/
def write (m : Machine σ) (ptr n : Nat) (mem : Mem) : Machine σ :=
  { m with mem := mem, writes := ⟨ptr, n⟩ :: m.writes }

/-- `table->entries[i].value = value`. -/
def setEntry (m : Machine σ) (table i : Nat) (value : BitVec 64) : Machine σ :=
  m.write (table + 8 * i) 8 (store64 m.mem (m.phys table + 8 * i) value)

/-- `memcpy(dest, src, n)` inside memory. -/
def memcpy (m : Machine σ) (dest src n : Nat) : Machine σ :=
  m.write dest n (copyBytes m.mem (m.phys dest) (m.phys src) n)

/-- `memset(s, c, n)`. -/
def memset (m : Machine σ) (s : Nat) (c : BitVec 8) (n : Nat) : Machine σ :=
  m.write s n (fillBytes m.mem (m.phys s) c n)

/-- `memcpy(dest, bytes, n)` from an object that is not in the modelled memory. -/
def memcpyFrom (m : Machine σ) (dest : Nat) (bytes : Nat → BitVec 8) (n : Nat) : Machine σ :=
  m.write dest n (writeBytes m.mem (m.phys dest) bytes n)

/-- The loop of `allocate_table` that clears the first `n` entries. -/
def clearEntries (m : Machine σ) (table : Nat) : Nat → Machine σ
  | 0 => m
  | n + 1 => (m.clearEntries table n).setEntry table n 0#64

/-- The root of the hierarchy the processor walks: CR3 without its low 12 bits. -/
def root (m : Machine σ) : Nat := m.cr3 / PAGE_SIZE * PAGE_SIZE

end Machine

variable {σ : Type}

/-- `allocate_table`. -/
def allocateTable (ops : PageAllocatorOps σ) (m : Machine σ) : Run (Nat × Machine σ) := do
  let (tableAddr, pa) ← ops.allocAlignedPages 1 PAGE_SIZE m.pa
  if tableAddr = 0 then .error (.panic "Failed to allocate memory for the page table.")
  else
    let m := { m with pa := pa, tables := m.phys tableAddr / PAGE_SIZE :: m.tables }
    .ok (tableAddr, m.clearEntries tableAddr NUM_TABLE_ENTRIES)

/-- The five `set_masked_bits` of `initialize_table_reference_entry` and
`initialize_page_reference_entry`, with the user and page-size bits they write. -/
def initializeEntry (us ps : BitVec 64) (entry : BitVec 64) (phys : Nat) : BitVec 64 :=
  let entry := setMaskedBits entry 1#64 (tobit ENTRY_PRESENT)
  let entry := setMaskedBits entry 1#64 (tobit ENTRY_RW)
  let entry := setMaskedBits entry us (tobit ENTRY_US)
  let entry := setMaskedBits entry ps (tobit ENTRY_PS)
  setMaskedBits entry (BitVec.ofNat 64 phys >>> ENTRY_PHYS) PHYS_MASK

/-- The physical address an entry refers to, `entry.value & PHYS_MASK`. -/
def physOf (entry : BitVec 64) : Nat := (entry &&& PHYS_MASK).toNat

end YmirC
