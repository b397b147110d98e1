import YmirC.Arch.X86.PageTable

/-!
# `YmirC.Arch.X86.Page`: the reconstruction of the page tables (`arch/x86/page.c`)

`reconstruct` builds a new level-4 table with the direct map in 1GiB pages, clones the tables
of the kernel region from the hierarchy CR3 refers to, and loads CR3.
-/

set_option autoImplicit false

namespace YmirC

variable {σ : Type}

def lv4Shift : Nat := 39
def lv3Shift : Nat := 30

/-- `initialize_table_reference_entry` of `page.c`. -/
def initializeTableReferenceEntry (m : Machine σ) (entry : BitVec 64) (lowerTable : Nat) :
    BitVec 64 :=
  initializeEntry 0#64 0#64 entry (m.phys lowerTable)

/-- `initialize_page_reference_entry` of `page.c`. -/
def initializePageReferenceEntry (entry : BitVec 64) (phys : Nat) : BitVec 64 :=
  initializeEntry 0#64 1#64 entry phys

/-- `clone_lv1_table`. -/
def cloneLv1Table (ops : PageAllocatorOps σ) (lv1tbl : Nat) (m : Machine σ) :
    Run (Nat × Machine σ) := do
  let (newTbl, m) ← allocateTable ops m
  .ok (newTbl, m.memcpy newTbl lv1tbl SIZEOF_PAGE_TABLE)

/-- The body of the loop of `clone_lv2_table` and `clone_lv3_table`, with the clone function
of the level below. -/
def cloneEntry (cloneChild : Nat → Machine σ → Run (Nat × Machine σ)) (newTbl i : Nat)
    (m : Machine σ) : Run (Machine σ) := do
  let entry := m.entry newTbl i
  if !isset entry ENTRY_PRESENT then .ok m
  else if isset entry ENTRY_PS then .ok m
  else
    let (newChild, m) ← cloneChild (phys2virt m.mappingReconstructed (physOf entry)) m
    -- The source patches its local copy of the entry and never stores it.
    let _entry := setMaskedBits entry (BitVec.ofNat 64 (m.phys newChild) >>> ENTRY_PHYS) PHYS_MASK
    .ok m

/-- `clone_lv2_table` and `clone_lv3_table`, with the clone function of the level below. -/
def cloneTable (ops : PageAllocatorOps σ)
    (cloneChild : Nat → Machine σ → Run (Nat × Machine σ)) (tbl : Nat) (m : Machine σ) :
    Run (Nat × Machine σ) := do
  let (newTbl, m) ← allocateTable ops m
  let m ← Run.forRange (cloneEntry cloneChild newTbl) NUM_TABLE_ENTRIES
    (m.memcpy newTbl tbl SIZEOF_PAGE_TABLE)
  .ok (newTbl, m)

/-- `clone_lv2_table`. -/
def cloneLv2Table (ops : PageAllocatorOps σ) : Nat → Machine σ → Run (Nat × Machine σ) :=
  cloneTable ops (cloneLv1Table ops)

/-- `clone_lv3_table`. -/
def cloneLv3Table (ops : PageAllocatorOps σ) : Nat → Machine σ → Run (Nat × Machine σ) :=
  cloneTable ops (cloneLv2Table ops)

/-- `(DIRECT_MAP_BASE >> lv4_shift) & index_mask`. -/
def lv4idxStart : Nat := DIRECT_MAP_BASE / 2 ^ lv4Shift % NUM_TABLE_ENTRIES

/-- `lv4idx_start + (DIRECT_MAP_SIZE >> lv4_shift)`. -/
def lv4idxEnd : Nat := lv4idxStart + DIRECT_MAP_SIZE / 2 ^ lv4Shift

/-- The body of the inner loop of the direct map. -/
def mapDirectPage (lv3tbl i lv3idx : Nat) (m : Machine σ) : Run (Machine σ) :=
  .ok (m.setEntry lv3tbl lv3idx (initializePageReferenceEntry (m.entry lv3tbl lv3idx)
    (u64 (i * 2 ^ lv4Shift + lv3idx * 2 ^ lv3Shift))))

/-- The body of the outer loop of the direct map. -/
def mapDirect (ops : PageAllocatorOps σ) (lv4tbl i : Nat) (m : Machine σ) :
    Run (Machine σ) := do
  let (lv3tbl, m) ← allocateTable ops m
  let m ← Run.forRange (mapDirectPage lv3tbl i) NUM_TABLE_ENTRIES m
  .ok (m.setEntry lv4tbl (lv4idxStart + i)
    (initializeTableReferenceEntry m (m.entry lv4tbl (lv4idxStart + i)) lv3tbl))

/-- The body of the loop over the kernel region, for the level-4 index `lv4idx`. -/
def cloneLv4Entry (ops : PageAllocatorOps σ) (lv4tbl oldLv4tbl lv4idx : Nat) (m : Machine σ) :
    Run (Machine σ) := do
  let oldLv4entry := m.entry oldLv4tbl lv4idx
  if isset oldLv4entry ENTRY_PRESENT then
    let (newLv3tbl, m) ← cloneLv3Table ops
      (phys2virt m.mappingReconstructed (physOf oldLv4entry)) m
    .ok (m.setEntry lv4tbl lv4idx
      (initializeTableReferenceEntry m (m.entry lv4tbl lv4idx) newLv3tbl))
  else .ok m

/-- `reconstruct`. -/
def reconstruct (ops : PageAllocatorOps σ) (m : Machine σ) : Run (Machine σ) := do
  let (lv4tbl, m) ← allocateTable ops m
  let m ← Run.forRange (mapDirect ops lv4tbl) (lv4idxEnd - lv4idxStart) m
  let oldLv4tbl := phys2virt m.mappingReconstructed m.cr3
  let m ← Run.forRange (fun k => cloneLv4Entry ops lv4tbl oldLv4tbl (lv4idxEnd + k))
    (NUM_TABLE_ENTRIES - lv4idxEnd) m
  .ok { m with cr3 := m.phys lv4tbl, mappingReconstructed := true }

end YmirC
