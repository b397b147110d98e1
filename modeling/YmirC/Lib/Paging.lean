import YmirC.Lib.ByteMemory

/-!
# `YmirC.Lib.Paging`: the four-level page walk of AMD64

Long-mode paging and nested paging share one format: a table is 512 entries of 64 bits, bit 0
of an entry says that it is present, bit 7 of a level-3 or level-2 entry that it is a large
page, and bits 12 to 51 hold the physical address of the next table or of the page.

`walk` is what the hardware computes. `TableAt` are the tables it can visit, and `SameTree`
says that two hierarchies, in two memories, have the same entries all the way down, so that
their walks agree (`walk_of_sameTree`). A hierarchy whose tables keep their bytes is the same
tree in both memories (`sameTree_of_bytes`).
-/

set_option autoImplicit false

namespace Paging

open ByteMemory

/-- The entry of the table at address `table` with index `i`. -/
def entryAt (mem : Mem) (table i : Nat) : BitVec 64 := load64 mem (table + 8 * i)

/-- The present bit. -/
def present (e : BitVec 64) : Bool := e.getLsbD 0

/-- The page-size bit. -/
def large (e : BitVec 64) : Bool := e.getLsbD 7

/-- The address in bits 12 to 51. -/
def entryAddr (e : BitVec 64) : Nat := (e.extractLsb' 12 40).toNat * 4096

/-- The number of bytes an entry of a level maps: 4KiB, 2MiB, 1GiB, 512GiB. -/
def span (level : Nat) : Nat := 2 ^ (12 + 9 * (level - 1))

/-- The index of an address in the tables of a level. -/
def index (level va : Nat) : Nat := va / span level % 512

/-- The entry maps a page: every entry of level 1, and a large one of level 2 or 3. -/
def leaf (level : Nat) (e : BitVec 64) : Bool := level ≤ 1 || (level ≤ 3 && large e)

/-- The hardware walk of `va` from a table of the given level: the physical address, or
`none` when an entry on the way is not present. -/
def walk (mem : Mem) : (level table va : Nat) → Option Nat
  | 0, _, _ => none
  | level + 1, table, va =>
      let e := entryAt mem table (index (level + 1) va)
      if !present e then none
      else if leaf (level + 1) e then
        some (entryAddr e / span (level + 1) * span (level + 1) + va % span (level + 1))
      else walk mem level (entryAddr e) va

/-- The tables of the hierarchy below a table of level `top`, each with its level: those
reached through present entries that are no leaves. -/
inductive TableAt (mem : Mem) (top root : Nat) : Nat → Nat → Prop
  | root : TableAt mem top root top root
  | child {level table i : Nat} : TableAt mem top root (level + 1) table → i < 512 →
      present (entryAt mem table i) = true → leaf (level + 1) (entryAt mem table i) = false →
      TableAt mem top root level (entryAddr (entryAt mem table i))

/-- The two tables have the same entries, and so have the tables below them. -/
def SameTree (mem mem' : Mem) : (level table table' : Nat) → Prop
  | 0, _, _ => True
  | level + 1, table, table' => ∀ i < 512,
      entryAt mem' table' i = entryAt mem table i ∧
      (present (entryAt mem table i) = true → leaf (level + 1) (entryAt mem table i) = false →
        SameTree mem mem' level (entryAddr (entryAt mem table i))
          (entryAddr (entryAt mem table i)))

theorem index_lt (level va : Nat) : index level va < 512 := Nat.mod_lt _ (by decide)

/-- Walks over the same tree agree. -/
theorem walk_of_sameTree {mem mem' : Mem} (va : Nat) :
    ∀ level table table', SameTree mem mem' level table table' →
      walk mem' level table' va = walk mem level table va := by
  intro level
  induction level with
  | zero =>
      intro table table' _
      rfl
  | succ level ih =>
      intro table table' h
      obtain ⟨heq, hbelow⟩ := h _ (index_lt (level + 1) va)
      simp only [walk, heq]
      by_cases hp : present (entryAt mem table (index (level + 1) va)) = true
      · by_cases hl : leaf (level + 1) (entryAt mem table (index (level + 1) va)) = true
        · simp only [hl, if_true]
        · have hl' := Bool.eq_false_iff.mpr hl
          simp only [hp, hl', Bool.not_true, Bool.false_eq_true, if_false]
          exact ih _ _ (hbelow hp hl')
      · simp only [Bool.eq_false_iff.mpr hp, Bool.not_false, if_true]

/-- The address in an entry is page aligned. -/
theorem entryAddr_mod (e : BitVec 64) : entryAddr e % 4096 = 0 := Nat.mul_mod_left _ _

/-- The entries of a page-aligned table whose bytes are the same are the same. -/
theorem entryAt_congr {mem mem' : Mem} {table table' : Nat}
    (h : ∀ k < 4096, mem' (table' + k) = mem (table + k)) {i : Nat} (hi : i < 512) :
    entryAt mem' table' i = entryAt mem table i := by
  apply load64_congr
  intro k hk
  have := h (8 * i + k) (by omega)
  rwa [← Nat.add_assoc, ← Nat.add_assoc] at this

/-- A hierarchy whose tables keep their bytes is the same tree in both memories. -/
theorem sameTree_of_bytes {mem mem' : Mem} {top root : Nat} :
    ∀ level table, TableAt mem top root level table →
      (∀ l t, TableAt mem top root l t → ∀ k < 4096, mem' (t + k) = mem (t + k)) →
      SameTree mem mem' level table table := by
  intro level
  induction level with
  | zero =>
      intro table _ _
      trivial
  | succ level ih =>
      intro table htable hsame i hi
      refine ⟨entryAt_congr (hsame _ _ htable) hi, fun hp hl => ?_⟩
      exact ih _ (.child htable hi hp hl) hsame

/-- A walk stops at an entry that is not present. -/
theorem walk_of_absent {mem : Mem} {level table va : Nat}
    (hp : present (entryAt mem table (index (level + 1) va)) = false) :
    walk mem (level + 1) table va = none := by
  simp [walk, hp]

/-- A walk goes on in the table a present entry refers to. -/
theorem walk_of_table {mem : Mem} {level table va : Nat}
    (hp : present (entryAt mem table (index (level + 1) va)) = true)
    (hl : leaf (level + 1) (entryAt mem table (index (level + 1) va)) = false) :
    walk mem (level + 1) table va
      = walk mem level (entryAddr (entryAt mem table (index (level + 1) va))) va := by
  simp [walk, hp, hl]

/-- A walk ends at a leaf. -/
theorem walk_of_leaf {mem : Mem} {level table va : Nat}
    (hp : present (entryAt mem table (index (level + 1) va)) = true)
    (hl : leaf (level + 1) (entryAt mem table (index (level + 1) va)) = true) :
    walk mem (level + 1) table va
      = some (entryAddr (entryAt mem table (index (level + 1) va)) / span (level + 1)
          * span (level + 1) + va % span (level + 1)) := by
  simp [walk, hp, hl]

/-- Level-4 entries are never leaves. -/
@[simp] theorem leaf_four (e : BitVec 64) : leaf 4 e = false := rfl

/-- A level-3 or level-2 entry is a leaf when it is large. -/
@[simp] theorem leaf_three (e : BitVec 64) : leaf 3 e = large e := by simp [leaf]

@[simp] theorem leaf_two (e : BitVec 64) : leaf 2 e = large e := by simp [leaf]

@[simp] theorem not_present_zero : present 0#64 = false := rfl

end Paging
