import YmirC.Arch.X86.PageTable
import YmirC.PageAllocator

/-!
# `YmirC.Surtrc.Page`: the page tables of the boot loader (`surtrc/arch/x86/page.c`)

The boot loader runs on the identity map of UEFI, so a pointer is a physical address. Its
`page.c` declares the `Entry`, the bit numbers and the `PHYS_MASK` of the hypervisor's `page.c`
once more, and they are shared here. It sets and clears bits with `|=` and `&=`, not with
`set_masked_bits`: what an entry held before stays in it.

`AllocatePages` of the firmware is a parameter, a function on a state of the firmware. A call
of `exit(1)` and an error status `efi_main` returns are a `Stop`.
-/

set_option autoImplicit false

namespace YmirC.Surtrc

open ByteMemory

/-- `EFI_ALLOCATE_TYPE`, the values the loader passes. -/
inductive AllocateType where
  | anyPages
  | address
  deriving DecidableEq, Repr

/-- Why the loader stopped. -/
inductive Stop where
  /-- `exit(1)`, after the given `LOG_ERROR`. -/
  | exit (log : String)
  /-- `efi_main` returned an error status. -/
  | status (value : Nat)
  deriving DecidableEq, Repr

/-- The result of a function of the loader. -/
abbrev Load (α : Type) : Type := Except Stop α

/-- `BS->AllocatePages`, on a firmware with state `φ`: the address it stores, or an error
status. -/
structure BootServices (φ : Type) where
  allocatePages : AllocateType → EfiMemoryType → (nopages addr : Nat) → φ → Except Nat (Nat × φ)

/-- The state the loader works on. -/
structure Loader (φ : Type) where
  mem : Mem
  cr3 : Nat
  fw : φ

variable {φ : Type}

/-- `BIT(n)`. -/
def BIT (n : Nat) : BitVec 64 := 1#64 <<< n

/-- `IS_BIT_SET(entry, n)`. -/
def IS_BIT_SET (entry : BitVec 64) (n : Nat) : Bool := entry &&& BIT n != 0#64

/-- `allocate_pages`. The address is not initialised, and the firmware does not read it for
`AllocateAnyPages`. -/
def allocatePages (bs : BootServices φ) (allocateType : AllocateType) (memoryType : EfiMemoryType)
    (nopages : Nat) (m : Loader φ) : Load (Nat × Loader φ) :=
  match bs.allocatePages allocateType memoryType nopages 0 m.fw with
  | .error _ => .error (.exit "Failed to allocate memory.\n")
  | .ok (addr, fw) => .ok (addr, { m with fw := fw })

/-- `allocate_table`. -/
def allocateTable (bs : BootServices φ) (m : Loader φ) : Load (Nat × Loader φ) := do
  let (tableAddr, m) ← allocatePages bs .anyPages .bootServicesData 1 m
  .ok (tableAddr, { m with mem := fillBytes m.mem tableAddr 0#8 4096 })

/-- `TableLevel`. -/
inductive TableLevel where
  | level4
  | level3
  | level2
  | level1
  deriving DecidableEq, Repr

def lv4Shift : Nat := 39
def lv3Shift : Nat := 30
def lv2Shift : Nat := 21
def lv1Shift : Nat := 12

/-- The `switch` of `get_entry_address`. -/
def TableLevel.shift : TableLevel → Nat
  | .level4 => lv4Shift
  | .level3 => lv3Shift
  | .level2 => lv2Shift
  | .level1 => lv1Shift

/-- `get_entry_address`, a pointer to an entry of 8 bytes. -/
def getEntryAddress (virt tableAddr : Nat) (level : TableLevel) : Nat :=
  tableAddr + 8 * (virt / 2 ^ level.shift % NUM_TABLE_ENTRIES)

namespace Loader

/-- `entry->value`. -/
def value (m : Loader φ) (entry : Nat) : BitVec 64 := load64 m.mem entry

/-- `entry->value = value`. -/
def setValue (m : Loader φ) (entry : Nat) (value : BitVec 64) : Loader φ :=
  { m with mem := store64 m.mem entry value }

end Loader

/-- The value `initialize_table_reference_entry` leaves in an entry. -/
def tableReference (value : BitVec 64) (lowerTableAddr : Nat) : BitVec 64 :=
  let value := value ||| BIT ENTRY_PRESENT
  let value := value ||| BIT ENTRY_RW
  let value := value &&& ~~~BIT ENTRY_US
  let value := value &&& ~~~BIT ENTRY_PS
  value ||| (BitVec.ofNat 64 lowerTableAddr &&& PHYS_MASK)

/-- `initialize_table_reference_entry`. -/
def initializeTableReferenceEntry (bs : BootServices φ) (entry : Nat) (m : Loader φ) :
    Load (Loader φ) := do
  let (lowerTableAddr, m) ← allocateTable bs m
  .ok (m.setValue entry (tableReference (m.value entry) lowerTableAddr))

/-- The value `initialize_page_reference_entry` leaves in an entry. It sets `ENTRY_PS`, which in
an entry of level 1 selects a memory type and not a page size. -/
def pageReference (value : BitVec 64) (phys : Nat) : BitVec 64 :=
  let value := value ||| BIT ENTRY_PRESENT
  let value := value ||| BIT ENTRY_RW
  let value := value &&& ~~~BIT ENTRY_US
  let value := value ||| BIT ENTRY_PS
  value ||| (BitVec.ofNat 64 phys &&& PHYS_MASK)

/-- `initialize_page_reference_entry`. -/
def initializePageReferenceEntry (entry phys : Nat) (m : Loader φ) : Loader φ :=
  m.setValue entry (pageReference (m.value entry) phys)

/-- The step of `map_4k_to` from an entry to the one of the level below: the table is obtained
unless the entry is present. -/
def lowerEntry (bs : BootServices φ) (virt entry : Nat) (level : TableLevel) (m : Loader φ) :
    Load (Nat × Loader φ) := do
  let m ← if !IS_BIT_SET (m.value entry) ENTRY_PRESENT then
      initializeTableReferenceEntry bs entry m
    else .ok m
  .ok (getEntryAddress virt (physOf (m.value entry)) level, m)

/-- `map_4k_to`. -/
def map4kTo (bs : BootServices φ) (virt phys : Nat) (m : Loader φ) : Load (Loader φ) := do
  let lv4ent := getEntryAddress virt m.cr3 .level4
  let (lv3ent, m) ← lowerEntry bs virt lv4ent .level3 m
  let (lv2ent, m) ← lowerEntry bs virt lv3ent .level2 m
  let (lv1ent, m) ← lowerEntry bs virt lv2ent .level1 m
  if IS_BIT_SET (m.value lv1ent) ENTRY_PRESENT then .error (.exit "Page already mapped\n")
  else .ok (initializePageReferenceEntry lv1ent phys m)

/-- `set_lv4table_writable`. -/
def setLv4tableWritable (bs : BootServices φ) (m : Loader φ) : Load (Loader φ) := do
  let (lv4tableAddr, m) ← allocatePages bs .anyPages .bootServicesData 1 m
  .ok { m with mem := copyBytes m.mem lv4tableAddr m.cr3 4096, cr3 := lv4tableAddr }

end YmirC.Surtrc
