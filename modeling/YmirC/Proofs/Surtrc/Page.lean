import YmirC.Lib.PageRights
import YmirC.Proofs.PageTable
import YmirC.Surtrc.Page

/-!
# `YmirC.Proofs.Surtrc.Page`: what `map_4k_to` maps

`Hierarchy` are the hierarchies the loader can extend: trees of tables in pages that are taken,
whose references have the bits clear that `PHYS_MASK` reads and the hardware does not. Each step
of `map_4k_to` adds an empty table or nothing, so that no address changes its translation, and the
last one adds a page. Both are the rules of `Lib/PageTree`.
-/

set_option autoImplicit false

namespace YmirC.Surtrc

open ByteMemory Paging

variable {φ : Type} {bs : BootServices φ} {Taken : φ → Nat → Prop} {m : Loader φ}

/-- What `AllocatePages` promises, where `Taken s g` reads "page `g` is in use": pages of physical
memory that were not in use, at the given address for `AllocateAddress`. -/
structure BootServices.Fresh (bs : BootServices φ) (Taken : φ → Nat → Prop) : Prop where
  aligned : ∀ {type memoryType n addr s p s'},
    bs.allocatePages type memoryType n addr s = .ok (p, s') → p % PAGE_SIZE = 0
  physical : ∀ {type memoryType n addr s p s'},
    bs.allocatePages type memoryType n addr s = .ok (p, s') → p + n * PAGE_SIZE ≤ 2 ^ 52
  fresh : ∀ {type memoryType n addr s p s'},
    bs.allocatePages type memoryType n addr s = .ok (p, s') →
      ∀ g, p / PAGE_SIZE ≤ g → g < p / PAGE_SIZE + n → ¬ Taken s g
  taken : ∀ {type memoryType n addr s p s'},
    bs.allocatePages type memoryType n addr s = .ok (p, s') →
      ∀ g, Taken s g ∨ (p / PAGE_SIZE ≤ g ∧ g < p / PAGE_SIZE + n) → Taken s' g
  address : ∀ {memoryType n addr s p s'},
    bs.allocatePages .address memoryType n addr s = .ok (p, s') → p = addr

/-- The references of the hierarchy to tables have bits 52 to 62 clear. -/
def ReferencesClear (mem : Mem) (root : Nat) : Prop :=
  ∀ {v t i}, tableOf mem 4 root v = some t → i < 512 → present (entryAt mem t i) = true →
    leaf (4 - v.length) (entryAt mem t i) = false → ReservedClear (entryAt mem t i)

/-- A hierarchy the loader can extend. -/
structure Hierarchy (Taken : φ → Nat → Prop) (m : Loader φ) : Prop where
  root : m.cr3 % PAGE_SIZE = 0
  tree : Tree m.mem 4 m.cr3
  clear : ReferencesClear m.mem m.cr3
  taken : ∀ {v t}, tableOf m.mem 4 m.cr3 v = some t → Taken m.fw (t / PAGE_SIZE)

/-- What the loader does to the tables: it adds tables in pages that were not in use, and entries
that allow writes. -/
structure Extends (Taken : φ → Nat → Prop) (m m' : Loader φ) : Prop where
  cr3 : m'.cr3 = m.cr3
  taken : ∀ g, Taken m.fw g → Taken m'.fw g
  adds : Adds m.mem m'.mem 4 m.cr3
  tables : ∀ {v t}, tableOf m'.mem 4 m.cr3 v = some t →
    tableOf m.mem 4 m.cr3 v = some t ∨ ¬ Taken m.fw (t / PAGE_SIZE)

theorem Extends.refl (Taken : φ → Nat → Prop) (m : Loader φ) : Extends Taken m m :=
  ⟨rfl, fun _ => id, .refl _ _ _, .inl⟩

theorem Extends.trans {m' m'' : Loader φ} (h : Extends Taken m m') (h' : Extends Taken m' m'') :
    Extends Taken m m'' := by
  have hadds := h'.adds
  rw [h.cr3] at hadds
  refine ⟨h'.cr3.trans h.cr3, fun g hg => h'.taken g (h.taken g hg), h.adds.trans hadds, ?_⟩
  intro v t hv
  rw [← h.cr3] at hv
  rcases h'.tables hv with hv' | hnew
  · rw [h.cr3] at hv'
    exact h.tables hv'
  · exact .inr fun ht => hnew (h.taken _ ht)

/-- The loader stopped because `AllocatePages` failed. -/
def AllocatePagesFailed : Stop → Prop
  | .exit log => log = "Failed to allocate memory.\n"
  | .status _ => True

/-- The function returns with `P`, or a call of `AllocatePages` in it failed. -/
def Yields {α : Type} (x : Load α) (P : α → Prop) : Prop :=
  match x with
  | .ok a => P a
  | .error e => AllocatePagesFailed e

theorem Yields.bind {α β : Type} {x : Load α} {f : α → Load β} {P : α → Prop} {Q : β → Prop}
    (hx : Yields x P) (hf : ∀ a, P a → Yields (f a) Q) : Yields (x >>= f) Q := by
  cases x with
  | ok a => exact hf a hx
  | error e => exact hx

theorem Yields.mono {α : Type} {x : Load α} {P Q : α → Prop} (hx : Yields x P)
    (hpq : ∀ a, P a → Q a) : Yields x Q := by
  cases x with
  | ok a => exact hpq a hx
  | error e => exact hx

/-! ### Entries -/

theorem getLsbD_BIT (n i : Nat) : (BIT n).getLsbD i = decide (n < 64 ∧ i = n) :=
  BitField.getLsbD_one_shiftLeft n i

theorem IS_BIT_SET_present (e : BitVec 64) : IS_BIT_SET e ENTRY_PRESENT = present e := by
  have hzero : e &&& BIT ENTRY_PRESENT = 0#64 ↔ e.getLsbD 0 = false :=
    BitField.and_one_shiftLeft_eq_zero e 0 (by decide)
  rw [IS_BIT_SET, present, Bool.eq_iff_iff, bne_iff_ne, Ne, hzero, Bool.not_eq_false]

/-- The address bits of an entry the loader writes. -/
theorem getLsbD_and_PHYS_MASK (phys i : Nat) : (BitVec.ofNat 64 phys &&& PHYS_MASK).getLsbD i
    = (decide (12 ≤ i ∧ i < 63) && phys.testBit i) := by
  rw [BitVec.getLsbD_and, getLsbD_PHYS_MASK, BitVec.getLsbD_ofNat]
  by_cases hi : 12 ≤ i ∧ i < 63
  · have h64 : i < 64 := by omega
    simp [hi, h64]
  · simp [hi]

/-- Every bit of a reference written to an entry that was zero. -/
theorem getLsbD_tableReference_zero (addr i : Nat) : (tableReference 0#64 addr).getLsbD i
    = (decide (i = 0) || decide (i = 1) || (decide (12 ≤ i ∧ i < 63) && addr.testBit i)) := by
  unfold tableReference
  rw [BitVec.getLsbD_or, getLsbD_and_PHYS_MASK]
  simp only [BitVec.getLsbD_or, BitVec.getLsbD_and, BitVec.getLsbD_not, getLsbD_BIT,
    BitVec.getLsbD_zero, ENTRY_PRESENT, ENTRY_RW, ENTRY_US, ENTRY_PS]
  by_cases h0 : i = 0
  · subst h0
    simp
  by_cases h1 : i = 1
  · subst h1
    simp
  simp [h0, h1]

theorem getLsbD_pageReference_zero (phys i : Nat) : (pageReference 0#64 phys).getLsbD i
    = (decide (i = 0) || decide (i = 1) || decide (i = 7) ||
      (decide (12 ≤ i ∧ i < 63) && phys.testBit i)) := by
  unfold pageReference
  rw [BitVec.getLsbD_or, getLsbD_and_PHYS_MASK]
  simp only [BitVec.getLsbD_or, BitVec.getLsbD_and, BitVec.getLsbD_not, getLsbD_BIT,
    BitVec.getLsbD_zero, ENTRY_PRESENT, ENTRY_RW, ENTRY_US, ENTRY_PS]
  by_cases h0 : i = 0
  · subst h0
    simp
  by_cases h1 : i = 1
  · subst h1
    simp
  by_cases h7 : i = 7
  · subst h7
    simp
  simp [h0, h1, h7]

/-- What a reference written to an entry that was zero is. -/
theorem tableReference_zero {addr : Nat} (hal : addr % PAGE_SIZE = 0) (hlt : addr < 2 ^ 52) :
    present (tableReference 0#64 addr) = true ∧ large (tableReference 0#64 addr) = false ∧
      entryAddr (tableReference 0#64 addr) = addr ∧ ReservedClear (tableReference 0#64 addr) ∧
      mayWrite (tableReference 0#64 addr) = true := by
  refine ⟨?_, ?_, ?_, ?_, ?_⟩
  · rw [present, getLsbD_tableReference_zero]
    rfl
  · rw [large, getLsbD_tableReference_zero]
    rfl
  · apply entryAddr_of_bits hal hlt
    intro i hlo hhi
    have h0 : i ≠ 0 := by omega
    have h1 : i ≠ 1 := by omega
    have h63 : i < 63 := by omega
    simp [getLsbD_tableReference_zero, h0, h1, hlo, h63]
  · intro i h52 h63
    have h0 : i ≠ 0 := by omega
    have h1 : i ≠ 1 := by omega
    have hbig : addr < 2 ^ i := Nat.lt_of_lt_of_le hlt (Nat.pow_le_pow_right (by decide) h52)
    simp [getLsbD_tableReference_zero, h0, h1, Nat.testBit_lt_two_pow hbig]
  · rw [mayWrite, getLsbD_tableReference_zero]
    rfl

/-- What a page written to an entry that was zero is. -/
theorem pageReference_zero {phys : Nat} (hal : phys % PAGE_SIZE = 0) (hlt : phys < 2 ^ 52) :
    present (pageReference 0#64 phys) = true ∧ entryAddr (pageReference 0#64 phys) = phys ∧
      mayWrite (pageReference 0#64 phys) = true := by
  refine ⟨?_, ?_, ?_⟩
  · rw [present, getLsbD_pageReference_zero]
    rfl
  · apply entryAddr_of_bits hal hlt
    intro i hlo hhi
    have h0 : i ≠ 0 := by omega
    have h1 : i ≠ 1 := by omega
    have h7 : i ≠ 7 := by omega
    have h63 : i < 63 := by omega
    simp [getLsbD_pageReference_zero, h0, h1, h7, hlo, h63]
  · rw [mayWrite, getLsbD_pageReference_zero]
    rfl

/-! ### Steps -/

section Steps
variable {v : List Nat} {t i : Nat}

/-- A page that is not taken is no table. -/
theorem Hierarchy.ne_of_not_taken (h : Hierarchy Taken m) {p : Nat}
    (hp : ¬ Taken m.fw (p / PAGE_SIZE)) (w : List Nat) : tableOf m.mem 4 m.cr3 w ≠ some p :=
  fun hw => hp (h.taken hw)

/-- An empty table in a fresh page, behind an entry that is not present. -/
theorem Hierarchy.addsTable (h : Hierarchy Taken m) (hv : tableOf m.mem 4 m.cr3 v = some t)
    (hi : i < 512) (hlen : v.length + 1 < 4) (habs : present (entryAt m.mem t i) = false) {p : Nat}
    (hal : p % PAGE_SIZE = 0) (hlt : p < 2 ^ 52) (hnew : ¬ Taken m.fw (p / PAGE_SIZE)) :
    let mem' := store64 (fillBytes m.mem p 0#8 4096) (t + 8 * i)
      (tableReference (load64 (fillBytes m.mem p 0#8 4096) (t + 8 * i)) p)
    AddsTable m.mem mem' 4 m.cr3 v t i p ∧ ReservedClear (entryAt mem' t i) ∧
      mayWrite (entryAt mem' t i) = true := by
  intro mem'
  -- The page is taken by no table, so clearing it and writing the entry change no table.
  have hne : ∀ {w s}, tableOf m.mem 4 m.cr3 w = some s → s ≠ p := by
    intro w s hw heq
    exact h.ne_of_not_taken hnew w (heq ▸ hw)
  have halt := tableOf_aligned h.root hv
  have hfill : ∀ {w s j}, tableOf m.mem 4 m.cr3 w = some s → j < 512 →
      entryAt (fillBytes m.mem p 0#8 4096) s j = entryAt m.mem s j := by
    intro w s j hw hj
    exact entryAt_fillBytes_of_ne m.mem (hne hw) hal (tableOf_aligned h.root hw) hj 0#8
  -- The entry is zero before the write, so the bits it is or-ed into are those of the reference.
  have hzero : load64 (fillBytes m.mem p 0#8 4096) (t + 8 * i) = 0#64 :=
    (hfill hv hi).trans (h.tree.zero hv hi habs)
  obtain ⟨hp, hl, haddr, hclear, hwrite⟩ := tableReference_zero hal hlt
  have hset : entryAt mem' t i = tableReference 0#64 p := by
    rw [← hzero]
    exact load64_store64 _ _ _
  refine ⟨⟨?_, hv, hi, habs, ?_, ?_, ?_, ?_⟩, hset ▸ hclear, hset ▸ hwrite⟩
  · intro w s j hw hj hslot
    have hapart := h.tree.unshared.ne_or_ne hv hw hslot
    rw [entryAt_store64_of_ne _ hapart halt (tableOf_aligned h.root hw) hi hj, hfill hw hj]
  · rw [hset]
    exact hp
  · rw [hset]
    have hlevel : ¬ 4 - v.length ≤ 1 := by omega
    simp [leaf, hl, hlevel]
  · rw [hset]
    exact haddr
  · intro j hj
    rw [entryAt_store64_of_ne _ (.inl (Ne.symm (hne hv))) halt hal hi hj]
    exact entryAt_fillBytes_zero m.mem hj

/-- The loader can extend the hierarchy further after it added a table. -/
theorem Hierarchy.addTable (h : Hierarchy Taken m) {mem' : Mem} {fw' : φ} {p : Nat}
    (hadds : AddsTable m.mem mem' 4 m.cr3 v t i p) (hnew : ¬ Taken m.fw (p / PAGE_SIZE))
    (hclear : ReservedClear (entryAt mem' t i))
    (htaken : ∀ g, Taken m.fw g → Taken fw' g) (hp : Taken fw' (p / PAGE_SIZE)) :
    Hierarchy Taken { m with mem := mem', fw := fw' } := by
  refine ⟨h.root, h.tree.addTable hadds (h.ne_of_not_taken hnew), ?_, ?_⟩
  · intro w s j hw hj hpresent hleaf
    rcases hadds.cases hw with ⟨-, rfl⟩ | ⟨-, hw⟩
    · -- The new table has no entries yet.
      rw [hadds.empty j hj, not_present_zero] at hpresent
      cases hpresent
    · by_cases hslot : j :: w = i :: v
      · obtain ⟨rfl, rfl⟩ := List.cons.inj hslot
        rw [hadds.parent] at hw
        cases hw
        exact hclear
      · have hsame := hadds.same hw hj hslot
        show ReservedClear (entryAt mem' s j)
        rw [hsame] at hpresent hleaf ⊢
        exact h.clear hw hj hpresent hleaf
  · intro w s hw
    rcases hadds.cases hw with ⟨-, rfl⟩ | ⟨-, hw⟩
    · exact hp
    · exact htaken _ (h.taken hw)

/-- The loader has extended the hierarchy by the table. -/
theorem Extends.addTable {mem' : Mem} {fw' : φ} {p : Nat}
    (hadds : AddsTable m.mem mem' 4 m.cr3 v t i p) (hwrite : mayWrite (entryAt mem' t i) = true)
    (hnew : ¬ Taken m.fw (p / PAGE_SIZE)) (htaken : ∀ g, Taken m.fw g → Taken fw' g) :
    Extends Taken m { m with mem := mem', fw := fw' } := by
  refine ⟨rfl, htaken, hadds.adds hwrite, ?_⟩
  intro w s hw
  rcases hadds.cases hw with ⟨-, rfl⟩ | ⟨-, hw⟩
  · exact .inr hnew
  · exact .inl hw

/-- `initialize_table_reference_entry` on an entry that is not present adds a table. -/
theorem initializeTableReferenceEntry_spec (hbs : bs.Fresh Taken) (h : Hierarchy Taken m)
    (hv : tableOf m.mem 4 m.cr3 v = some t) (hi : i < 512) (hlen : v.length + 1 < 4)
    (hp : present (entryAt m.mem t i) = false) :
    Yields (initializeTableReferenceEntry bs (t + 8 * i) m) fun m' =>
      Hierarchy Taken m' ∧ Extends Taken m m' ∧ ReservedClear (entryAt m'.mem t i) ∧
      ∃ p, AddsTable m.mem m'.mem 4 m.cr3 v t i p := by
  unfold initializeTableReferenceEntry allocateTable allocatePages
  cases hcall : bs.allocatePages .anyPages .bootServicesData 1 0 m.fw with
  | error status => rfl
  | ok r =>
      obtain ⟨p, fw'⟩ := r
      have hal := hbs.aligned hcall
      have hlt : p < 2 ^ 52 := by
        have := hbs.physical hcall
        simp only [PAGE_SIZE] at this
        omega
      have hnew : ¬ Taken m.fw (p / PAGE_SIZE) :=
        hbs.fresh hcall _ (Nat.le_refl _) (Nat.lt_succ_self _)
      obtain ⟨hadds, hclear, hwrite⟩ := h.addsTable hv hi hlen hp hal hlt hnew
      have htaken : ∀ g, Taken m.fw g → Taken fw' g := fun g hg => hbs.taken hcall g (.inl hg)
      have hptaken : Taken fw' (p / PAGE_SIZE) :=
        hbs.taken hcall _ (.inr ⟨Nat.le_refl _, Nat.lt_succ_self _⟩)
      exact ⟨h.addTable hadds hnew hclear htaken hptaken, .addTable hadds hwrite hnew htaken,
        hclear, p, hadds⟩

/-- The step of `map_4k_to` for an address that is not mapped leads to the next table on its way,
and no translation changes. -/
theorem lowerEntry_spec (hbs : bs.Fresh Taken) (h : Hierarchy Taken m) {virt k : Nat}
    (hnone : walk m.mem 4 m.cr3 virt = none) (hk : k + 1 < 4)
    (ht : tableOf m.mem 4 m.cr3 (pathTo 4 virt k) = some t) (level : TableLevel) :
    Yields (lowerEntry bs virt (t + 8 * index (4 - k) virt) level m) fun r =>
      Hierarchy Taken r.2 ∧ Extends Taken m r.2 ∧
      (∀ va, walk r.2.mem 4 m.cr3 va = walk m.mem 4 m.cr3 va) ∧
      ∃ t', tableOf r.2.mem 4 m.cr3 (pathTo 4 virt (k + 1)) = some t' ∧
        r.1 = getEntryAddress virt t' level := by
  have hi := index_lt (4 - k) virt
  have hleaf := leaf_false_of_walk_eq_none hnone (by omega) ht
  have hlen := length_pathTo 4 virt k
  have hvalue : m.value (t + 8 * index (4 - k) virt) = entryAt m.mem t (index (4 - k) virt) := rfl
  unfold lowerEntry
  rw [IS_BIT_SET_present, hvalue]
  cases hp : present (entryAt m.mem t (index (4 - k) virt)) with
  | true =>
      -- A present entry on the way of an unmapped address is a reference, and bits 52 to 62 of it
      -- are clear: the address the loader reads is that of the hardware.
      have hclear := h.clear ht hi hp (by rw [hlen]; exact hleaf hp)
      refine ⟨h, .refl Taken m, fun _ => rfl, entryAddr (entryAt m.mem t (index (4 - k) virt)),
        ?_, ?_⟩
      · refine tableOf_cons_eq_some.mpr ⟨t, ht, ?_⟩
        rw [hlen]
        exact child_eq_some.mpr ⟨hi, hp, hleaf hp, rfl⟩
      · exact congrArg (getEntryAddress virt · level) (physOf_eq hclear)
  | false =>
      -- The table is added on the way.
      have hinit := initializeTableReferenceEntry_spec hbs h ht hi (by omega) hp
      refine Yields.bind hinit ?_
      rintro m' ⟨h', hext, hclear, p, hadds⟩
      refine ⟨h', hext, walk_addTable hadds, p, ?_, ?_⟩
      · rw [pathTo, tableOf_addTable hadds, if_pos rfl]
      · exact congrArg (getEntryAddress virt · level) ((physOf_eq hclear).trans hadds.addr)

/-- The loader can extend the hierarchy further after it added a page. -/
theorem Hierarchy.addPage (h : Hierarchy Taken m) {mem' : Mem}
    (hadds : AddsPage m.mem mem' 4 m.cr3 v t i) : Hierarchy Taken { m with mem := mem' } := by
  refine ⟨h.root, h.tree.addPage hadds, ?_, ?_⟩
  · intro w s j hw hj hpresent hleaf
    have hw' : tableOf m.mem 4 m.cr3 w = some s := (tableOf_addPage hadds w).symm.trans hw
    by_cases hslot : j :: w = i :: v
    · -- The entry is a page.
      obtain ⟨rfl, rfl⟩ := List.cons.inj hslot
      have hone : 4 - w.length = 1 := by
        have := hadds.lowest
        omega
      rw [hone] at hleaf
      cases hleaf
    · have hsame := hadds.same hw' hj hslot
      show ReservedClear (entryAt mem' s j)
      rw [hsame] at hpresent hleaf ⊢
      exact h.clear hw' hj hpresent hleaf
  · intro w s hw
    exact h.taken ((tableOf_addPage hadds w).symm.trans hw)

theorem Extends.addPage {mem' : Mem} (hadds : AddsPage m.mem mem' 4 m.cr3 v t i)
    (habsent : present (entryAt m.mem t i) = false) (hwrite : mayWrite (entryAt mem' t i) = true) :
    Extends Taken m { m with mem := mem' } := by
  refine ⟨rfl, fun _ => id, hadds.adds habsent hwrite, ?_⟩
  intro w s hw
  exact .inl ((tableOf_addPage hadds w).symm.trans hw)

/-- Storing a page in an entry of level 1 that is zero. -/
theorem Hierarchy.addsPage (h : Hierarchy Taken m) (hv : tableOf m.mem 4 m.cr3 v = some t)
    (hi : i < 512) (hlen : v.length + 1 = 4) (habs : present (entryAt m.mem t i) = false)
    {phys : Nat} (hal : phys % PAGE_SIZE = 0) (hlt : phys < 2 ^ 52) :
    let mem' := store64 m.mem (t + 8 * i) (pageReference (load64 m.mem (t + 8 * i)) phys)
    AddsPage m.mem mem' 4 m.cr3 v t i ∧ entryAt mem' t i = pageReference 0#64 phys := by
  intro mem'
  have hzero : load64 m.mem (t + 8 * i) = 0#64 := h.tree.zero hv hi habs
  have hset : entryAt mem' t i = pageReference 0#64 phys := by
    rw [← hzero]
    exact load64_store64 _ _ _
  refine ⟨⟨h.tree.unshared.sameBut_store64 h.root hv hi _, hv, hlen, ?_⟩, hset⟩
  rw [hset]
  exact (pageReference_zero hal hlt).1

end Steps

/-! ### `map_4k_to` -/

/-- `map_4k_to` on an address that is not mapped maps its page and changes no other
translation. -/
theorem map4kTo_spec (hbs : bs.Fresh Taken) (h : Hierarchy Taken m) {virt phys : Nat}
    (hnone : walk m.mem 4 m.cr3 virt = none) (hal : phys % PAGE_SIZE = 0) (hlt : phys < 2 ^ 52) :
    Yields (map4kTo bs virt phys m) fun m' => Hierarchy Taken m' ∧ Extends Taken m m' ∧
      (∃ t, tableOf m'.mem 4 m.cr3 (pathTo 4 virt 3) = some t ∧
        entryAt m'.mem t (index 1 virt) = pageReference 0#64 phys) ∧
      ∀ va, walk m'.mem 4 m.cr3 va = if pathTo 4 va 4 = pathTo 4 virt 4 then
        some (phys + va % PAGE_SIZE) else walk m.mem 4 m.cr3 va := by
  unfold map4kTo
  -- Three steps down the hierarchy. None of them changes a translation, so the address stays
  -- unmapped for the next one.
  refine Yields.bind (lowerEntry_spec hbs h (k := 0) hnone (by decide) rfl .level3) ?_
  rintro ⟨_, m3⟩ ⟨h3, hext3, hwalk3, t3, ht3, rfl⟩
  simp only at h3 hext3 hwalk3 ht3 ⊢
  rw [← hext3.cr3] at hwalk3 ht3 hnone ⊢
  have hnone3 := (hwalk3 virt).trans hnone
  refine Yields.bind (lowerEntry_spec hbs h3 (k := 1) hnone3 (by decide) ht3 .level2) ?_
  rintro ⟨_, m2⟩ ⟨h2, hext2, hwalk2, t2, ht2, rfl⟩
  simp only at h2 hext2 hwalk2 ht2 ⊢
  rw [← hext2.cr3] at hwalk2 hwalk3 ht2 hnone3 ⊢
  have hnone2 := (hwalk2 virt).trans hnone3
  refine Yields.bind (lowerEntry_spec hbs h2 (k := 2) hnone2 (by decide) ht2 .level1) ?_
  rintro ⟨_, m1⟩ ⟨h1, hext1, hwalk1, t1, ht1, rfl⟩
  simp only at h1 hext1 hwalk1 ht1 ⊢
  rw [← hext1.cr3] at hwalk1 hwalk2 hwalk3 ht1 hnone2 ⊢
  have hnone1 := (hwalk1 virt).trans hnone2
  -- A present entry of level 1 would map the address.
  have habs : present (entryAt m1.mem t1 (index 1 virt)) = false := by
    rw [Bool.eq_false_iff]
    intro hp
    cases leaf_false_of_walk_eq_none hnone1 (k := 3) (by decide) ht1 hp
  have hvalue : m1.value (getEntryAddress virt t1 .level1)
      = entryAt m1.mem t1 (index 1 virt) := rfl
  rw [IS_BIT_SET_present, hvalue, habs]
  obtain ⟨hadds, hentry⟩ := h1.addsPage ht1 (index_lt 1 virt) rfl habs hal hlt
  obtain ⟨-, haddr, hwrite⟩ := pageReference_zero hal hlt
  rw [← hentry] at haddr hwrite
  have hext := ((hext3.trans hext2).trans hext1).trans (.addPage hadds habs hwrite)
  refine ⟨h1.addPage hadds, hext, ⟨t1, (tableOf_addPage hadds _).trans ht1, hentry⟩,
    fun va => ?_⟩
  have hspan : span 1 = PAGE_SIZE := rfl
  have hwalk := walk_addPage hadds va
  rw [haddr, hspan, Nat.div_mul_cancel (Nat.dvd_of_mod_eq_zero hal), hwalk1, hwalk2,
    hwalk3] at hwalk
  exact hwalk

/-! ### `set_lv4table_writable` -/

/-- The copy of the root table of a hierarchy in a fresh page. -/
theorem Hierarchy.copiesRoot (h : Hierarchy Taken m) {p : Nat} (hal : p % PAGE_SIZE = 0)
    (hnew : ¬ Taken m.fw (p / PAGE_SIZE)) :
    CopiesRoot m.mem (copyBytes m.mem p m.cr3 4096) 4 m.cr3 p := by
  have hroot := h.root
  simp only [PAGE_SIZE] at hal hroot
  have hne : ∀ {w s}, tableOf m.mem 4 m.cr3 w = some s → s ≠ p := by
    intro w s hw heq
    exact h.ne_of_not_taken hnew w (heq ▸ hw)
  -- The copy is to a page of its own.
  have hapart : m.cr3 ≠ p := hne (w := []) rfl
  constructor
  · intro j hj
    exact load64_copyBytes m.mem p m.cr3 4096 (8 * j) (by omega) (by omega)
  · intro i v s j hv hj
    have hs := tableOf_aligned h.root hv
    have hsp := hne hv
    exact load64_copyBytes_of_disjoint m.mem p m.cr3 4096 (s + 8 * j) (by omega)

/-- `set_lv4table_writable` changes no translation, and the loader can extend the new
hierarchy. -/
theorem setLv4tableWritable_spec (hbs : bs.Fresh Taken) (h : Hierarchy Taken m) :
    Yields (setLv4tableWritable bs m) fun m' => Hierarchy Taken m' ∧
      ∀ va, translateAddr m'.mem m'.cr3 va = translateAddr m.mem m.cr3 va := by
  unfold setLv4tableWritable allocatePages
  cases hcall : bs.allocatePages .anyPages .bootServicesData 1 0 m.fw with
  | error status => rfl
  | ok r =>
      obtain ⟨p, fw'⟩ := r
      have hal := hbs.aligned hcall
      have hnew : ¬ Taken m.fw (p / PAGE_SIZE) :=
        hbs.fresh hcall _ (Nat.le_refl _) (Nat.lt_succ_self _)
      -- Only the root is in another place; the tables below are those there were.
      have hcopy := h.copiesRoot hal hnew
      refine ⟨⟨hal, h.tree.copyRoot hcopy (h.ne_of_not_taken hnew), ?_, ?_⟩, ?_⟩
      · intro v t i hv hi hp hl
        cases v with
        | nil =>
            cases hv
            simp only [hcopy.entries i hi] at hp hl ⊢
            exact h.clear (v := []) rfl hi hp hl
        | cons j v =>
            simp only [tableOf_copyRoot hcopy] at hv
            simp only [hcopy.same hv hi] at hp hl ⊢
            exact h.clear hv hi hp hl
      · intro v t hv
        cases v with
        | nil =>
            cases hv
            exact hbs.taken hcall _ (.inr ⟨Nat.le_refl _, Nat.lt_succ_self _⟩)
        | cons j v =>
            simp only [tableOf_copyRoot hcopy] at hv
            exact hbs.taken hcall _ (.inl (h.taken hv))
      · intro va
        simp only [translateAddr, walk_copyRoot hcopy]

end YmirC.Surtrc
