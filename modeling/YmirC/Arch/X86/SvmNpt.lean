import YmirC.Arch.X86.PageTable

/-!
# `YmirC.Arch.X86.SvmNpt`: the nested page table (`arch/x86/svm_npt.c`)

`init_npt` maps a range of guest-physical memory to host-physical memory in pages of 2MiB and
obtains the tables it needs on the way. A pointer to an entry is the pointer to its table with
the index.
-/

set_option autoImplicit false

namespace YmirC.SvmNpt

variable {σ : Type}

def lv4Shift : Nat := 39
def lv3Shift : Nat := 30
def lv2Shift : Nat := 21
def lv1Shift : Nat := 12

/-- `TableLevel`. -/
inductive TableLevel where
  | level4
  | level3
  | level2
  | level1
  deriving DecidableEq, Repr

/-- The `switch` of `get_entry_address`. -/
def TableLevel.shift : TableLevel → Nat
  | .level4 => lv4Shift
  | .level3 => lv3Shift
  | .level2 => lv2Shift
  | .level1 => lv1Shift

/-- `gpa >> shift & index_mask`. -/
def entryIndex (gpa shift : Nat) : Nat := gpa / 2 ^ shift % NUM_TABLE_ENTRIES

/-- `initialize_table_reference_entry` of `svm_npt.c`, on entry `i` of `table`. -/
def initializeTableReferenceEntry (ops : PageAllocatorOps σ) (table i : Nat) (m : Machine σ) :
    Run (Machine σ) := do
  let (lowertbl, m) ← allocateTable ops m
  .ok (m.setEntry table i (initializeEntry 1#64 0#64 (m.entry table i) (m.phys lowertbl)))

/-- `initialize_page_reference_entry` of `svm_npt.c`. -/
def initializePageReferenceEntry (entry : BitVec 64) (phys : Nat) : BitVec 64 :=
  initializeEntry 1#64 1#64 entry phys

/-- `get_entry_address`. -/
def getEntryAddress (m : Machine σ) (gpa tblPaddr : Nat) (level : TableLevel) : Nat × Nat :=
  (phys2virt m.mappingReconstructed tblPaddr, entryIndex gpa level.shift)

/-- The table below an entry is obtained unless the entry is present. -/
def ensureTable (ops : PageAllocatorOps σ) (table i : Nat) (m : Machine σ) : Run (Machine σ) :=
  if !isset (m.entry table i) ENTRY_PRESENT then initializeTableReferenceEntry ops table i m
  else .ok m

/-- The first half of `map2m`: the entry of the level-2 table for `gpa`, with the tables on the
way to it obtained. -/
def lv2Entry (ops : PageAllocatorOps σ) (gpa lv4tbl : Nat) (m : Machine σ) :
    Run ((Nat × Nat) × Machine σ) := do
  let lv4index := entryIndex gpa lv4Shift
  let m ← ensureTable ops lv4tbl lv4index m
  let (lv3tbl, lv3index) := getEntryAddress m gpa (physOf (m.entry lv4tbl lv4index)) .level3
  let m ← ensureTable ops lv3tbl lv3index m
  .ok (getEntryAddress m gpa (physOf (m.entry lv3tbl lv3index)) .level2, m)

/-- `map2m`. -/
def map2m (ops : PageAllocatorOps σ) (gpa hpa lv4tbl : Nat) (m : Machine σ) :
    Run (Machine σ) := do
  let ((lv2tbl, lv2index), m) ← lv2Entry ops gpa lv4tbl m
  if isset (m.entry lv2tbl lv2index) ENTRY_PRESENT then .error (.panic "Page already mapped.")
  else
    .ok (m.setEntry lv2tbl lv2index
      (initializePageReferenceEntry (m.entry lv2tbl lv2index) hpa))

/-- `init_npt`. -/
def initNpt (ops : PageAllocatorOps σ) (guestStart hostStart size : Nat) (m : Machine σ) :
    Run (Nat × Machine σ) := do
  let (lv4tbl, m) ← allocateTable ops m
  let m ← Run.forRange (fun i => map2m ops (u64 (guestStart + PAGE_SIZE_2MB * i))
    (u64 (hostStart + PAGE_SIZE_2MB * i)) lv4tbl) (size / PAGE_SIZE_2MB) m
  .ok (m.phys lv4tbl, m)

end YmirC.SvmNpt
