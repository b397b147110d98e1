import YmirC.Arch.X86.SvmNpt
import YmirC.Proofs.PageTable

/-!
# `YmirC.Proofs.SvmNpt`: the nested page table maps exactly the requested range

A table of the hierarchy is named by its path, the indices from it up to the root: `[]` is the
level-4 table, `[i]` the level-3 table behind entry `i` of it, `[j, i]` a level-2 table and
`[k, j, i]` a page of 2MiB. `Mapped m₀ tbl page m` says that the memory of `m` holds the hierarchy
whose tables are in the frames `tbl` and whose pages are at the addresses `page`.

`ensureTable_mapped` and `mapPage_mapped` are the two steps of `map2m`: one adds a table, the
other a page. `Mapped.walk` reads the walk of the hardware off the pages, so that the loop of
`init_npt` only has to keep track of them.
-/

set_option autoImplicit false

namespace YmirC.SvmNpt

open ByteMemory Paging

variable {σ : Type} {r : Bool} {ops : PageAllocatorOps σ} {Live : σ → List Extent → Prop}
  {L : List Extent}

/-- The entry at the path `v` is what the tables and pages say: it refers to the table at `v`,
it maps the page at `v`, or it is 0 when there is neither. -/
structure Slot (tbl page : List Nat → Option Nat) (v : List Nat) (e : BitVec 64) : Prop where
  table : ∀ g, tbl v = some g →
    present e = true ∧ large e = false ∧ ReservedClear e ∧ entryAddr e = g * PAGE_SIZE
  leaf : ∀ p, page v = some p → present e = true ∧ large e = true ∧ entryAddr e = p
  zero : tbl v = none → page v = none → e = 0#64

/-- The memory of `m` holds the hierarchy with the tables in the frames `tbl` and the pages of
2MiB at the addresses `page`. Since `m₀` only the tables were written, all in new frames. -/
structure Mapped (m₀ : Machine σ) (tbl page : List Nat → Option Nat) (m : Machine σ) :
    Prop where
  grows : m₀.Grows [] m
  tables : ∀ {v f}, tbl v = some f → f ∈ m.tables
  fresh : ∀ {v f}, tbl v = some f → f ∉ m₀.tables
  inj : ∀ {v w f}, tbl v = some f → tbl w = some f → v = w
  depth : ∀ {v f}, tbl v = some f → v.length ≤ 2
  parent : ∀ {i v g}, tbl (i :: v) = some g → ∃ f, tbl v = some f
  pageDepth : ∀ {v p}, page v = some p → v.length = 3
  pageParent : ∀ {k v p}, page (k :: v) = some p → ∃ f, tbl v = some f
  slot : ∀ {v f i}, tbl v = some f → i < 512 →
    Slot tbl page (i :: v) (entryAt m.mem (f * PAGE_SIZE) i)

section Steps
variable {tbl page : List Nat → Option Nat} {m₀ m m' : Machine σ} {v : List Nat} {f i : Nat}

/-- There is no table below one of level 2. -/
theorem Mapped.table_eq_none (h : Mapped m₀ tbl page m) (hv : 2 < v.length) : tbl v = none := by
  rw [Option.eq_none_iff_forall_ne_some]
  intro g hg
  have := h.depth hg
  omega

/-- Pages are at one depth only. -/
theorem Mapped.page_eq_none (h : Mapped m₀ tbl page m) (hv : v.length ≠ 3) : page v = none := by
  rw [Option.eq_none_iff_forall_ne_some]
  intro p hp
  exact hv (h.pageDepth hp)

/-- Where there is no table, there is none below. -/
theorem Mapped.table_cons_eq_none (h : Mapped m₀ tbl page m) (hv : tbl v = none) (j : Nat) :
    tbl (j :: v) = none := by
  rw [Option.eq_none_iff_forall_ne_some]
  intro g hg
  obtain ⟨f, hf⟩ := h.parent hg
  rw [hv] at hf
  cases hf

/-- Where there is no table, there is no page below. -/
theorem Mapped.page_cons_eq_none (h : Mapped m₀ tbl page m) (hv : tbl v = none) (j : Nat) :
    page (j :: v) = none := by
  rw [Option.eq_none_iff_forall_ne_some]
  intro p hp
  obtain ⟨f, hf⟩ := h.pageParent hp
  rw [hv] at hf
  cases hf

/-- Entries at different paths are different entries. -/
theorem Mapped.ne_or_ne (h : Mapped m₀ tbl page m) (hv : tbl v = some f) {w : List Nat}
    {g j : Nat} (hw : tbl w = some g) (hne : j :: w ≠ i :: v) : g ≠ f ∨ j ≠ i := by
  by_contra hcon
  rw [not_or, not_not, not_not] at hcon
  obtain ⟨rfl, rfl⟩ := hcon
  rw [h.inj hw hv] at hne
  exact hne rfl

/-- An entry of a table that is not of level 2 is present exactly when it refers to a table. -/
theorem Mapped.present_iff (h : Mapped m₀ tbl page m) (hv : tbl v = some f) (hlen : v.length ≤ 1)
    (hi : i < 512) :
    present (entryAt m.mem (f * PAGE_SIZE) i) = true ↔ ∃ g, tbl (i :: v) = some g := by
  have hslot := h.slot hv hi
  have hpage : page (i :: v) = none := by
    apply h.page_eq_none
    rw [List.length_cons]
    omega
  cases htbl : tbl (i :: v) with
  | none =>
      rw [hslot.zero htbl hpage]
      simp
  | some g => simp [(hslot.table g htbl).1]

/-- With one more table or page, every one is the new one or one there was. -/
theorem cases_of_ite {old : List Nat → Option Nat} {w : List Nat} {g k : Nat}
    (h : (if w = v then some g else old w) = some k) :
    (w = v ∧ k = g) ∨ (w ≠ v ∧ old w = some k) := by
  split at h
  · rename_i heq
    exact .inl ⟨heq, (Option.some.inj h).symm⟩
  · rename_i hne
    exact .inr ⟨hne, h⟩

/-- The tables with the one at `v` in frame `f`. -/
def addTable (tbl : List Nat → Option Nat) (v : List Nat) (f : Nat) : List Nat → Option Nat :=
  fun w => if w = v then some f else tbl w

/-- Adding a table where there is none keeps every table. -/
theorem addTable_of_some {w : List Nat} {g h : Nat} (hnone : tbl v = none)
    (hw : tbl w = some h) : addTable tbl v g w = some h := by
  have hne : w ≠ v := by
    intro heq
    rw [heq, hnone] at hw
    cases hw
  rw [addTable, if_neg hne, hw]

/-- A slot elsewhere than at `v` is not concerned by a table at `v`. -/
theorem Slot.addTable {w : List Nat} {e : BitVec 64} {g : Nat} (h : Slot tbl page w e)
    (hne : w ≠ v) : Slot (addTable tbl v g) page w e := by
  have heq : SvmNpt.addTable tbl v g w = tbl w := if_neg hne
  exact ⟨fun g' => by rw [heq]; exact h.table g', h.leaf, by rw [heq]; exact h.zero⟩

/-- Obtaining a table for entry `i` of the table at `v` adds it to the hierarchy. -/
theorem Mapped.addTable (h : Mapped m₀ tbl page m) (hv : tbl v = some f) (hlen : v.length ≤ 1)
    (hi : i < 512) (hnone : tbl (i :: v) = none) {g : Nat} (hgrows : m₀.Grows [] m')
    (hold : ∀ w ∈ m.tables, w ∈ m'.tables) (hg : g ∈ m'.tables) (hnew : g ∉ m.tables)
    (hzero : ∀ j < 512, entryAt m'.mem (g * PAGE_SIZE) j = 0#64)
    (hset : Slot (SvmNpt.addTable tbl (i :: v) g) page (i :: v)
      (entryAt m'.mem (f * PAGE_SIZE) i))
    (hkeep : ∀ w ∈ m.tables, ∀ j < 512, (w ≠ f ∨ j ≠ i) →
      entryAt m'.mem (w * PAGE_SIZE) j = entryAt m.mem (w * PAGE_SIZE) j) :
    Mapped m₀ (SvmNpt.addTable tbl (i :: v) g) page m' := by
  have hcases : ∀ {w k}, SvmNpt.addTable tbl (i :: v) g w = some k →
      (w = i :: v ∧ k = g) ∨ (w ≠ i :: v ∧ tbl w = some k) := cases_of_ite
  refine ⟨hgrows, ?_, ?_, ?_, ?_, ?_, h.pageDepth, ?_, ?_⟩
  · intro w k hw
    rcases hcases hw with ⟨-, rfl⟩ | ⟨-, hw⟩
    · exact hg
    · exact hold k (h.tables hw)
  · intro w k hw
    rcases hcases hw with ⟨-, rfl⟩ | ⟨-, hw⟩
    · exact fun hin => hnew (h.grows.subset _ hin)
    · exact h.fresh hw
  · -- The frame of the new table holds no table there was, so paths still differ in their frames.
    intro w w' k hw hw'
    rcases hcases hw with ⟨rfl, rfl⟩ | ⟨-, hw⟩ <;> rcases hcases hw' with ⟨rfl, hk⟩ | ⟨-, hw'⟩
    · rfl
    · exact absurd (h.tables hw') hnew
    · exact absurd (h.tables hw) (hk ▸ hnew)
    · exact h.inj hw hw'
  · intro w k hw
    rcases hcases hw with ⟨rfl, -⟩ | ⟨-, hw⟩
    · rw [List.length_cons]
      omega
    · exact h.depth hw
  · intro j w k hw
    rcases hcases hw with ⟨heq, -⟩ | ⟨-, hw⟩
    · rw [(List.cons.inj heq).2]
      exact ⟨f, addTable_of_some hnone hv⟩
    · obtain ⟨k', hk'⟩ := h.parent hw
      exact ⟨k', addTable_of_some hnone hk'⟩
  · intro k w p hp
    obtain ⟨k', hk'⟩ := h.pageParent hp
    exact ⟨k', addTable_of_some hnone hk'⟩
  · intro w k j hw hj
    rcases hcases hw with ⟨rfl, rfl⟩ | ⟨hne, hwk⟩
    · -- The new table is empty, and nothing is below it.
      have hlonger : j :: i :: v ≠ i :: v := by
        intro heq
        have := congrArg List.length heq
        simp at this
      have htbl := h.table_cons_eq_none hnone j
      have hpage := h.page_cons_eq_none hnone j
      rw [hzero j hj]
      refine ⟨fun g' hg' => ?_, fun p hp => ?_, fun _ _ => rfl⟩
      · rw [SvmNpt.addTable, if_neg hlonger, htbl] at hg'
        cases hg'
      · rw [hpage] at hp
        cases hp
    · by_cases hslot : j :: w = i :: v
      · -- The entry that now refers to the new table.
        obtain ⟨rfl, rfl⟩ := List.cons.inj hslot
        rw [hv] at hwk
        cases hwk
        exact hset
      · rw [hkeep k (h.tables hwk) j hj (h.ne_or_ne hv hwk hslot)]
        exact (h.slot hwk hj).addTable hslot

/-- The pages with the one at `v` at the address `p`. -/
def addPage (page : List Nat → Option Nat) (v : List Nat) (p : Nat) : List Nat → Option Nat :=
  fun w => if w = v then some p else page w

/-- Writing entry `i` of the level-2 table at `v` adds a page to the hierarchy. -/
theorem Mapped.addPage (h : Mapped m₀ tbl page m) (hv : tbl v = some f) (hlen : v.length = 2)
    {p : Nat} (hgrows : m₀.Grows [] m') (htables : m'.tables = m.tables)
    (hset : present (entryAt m'.mem (f * PAGE_SIZE) i) = true ∧
      large (entryAt m'.mem (f * PAGE_SIZE) i) = true ∧
      entryAddr (entryAt m'.mem (f * PAGE_SIZE) i) = p)
    (hkeep : ∀ w ∈ m.tables, ∀ j < 512, (w ≠ f ∨ j ≠ i) →
      entryAt m'.mem (w * PAGE_SIZE) j = entryAt m.mem (w * PAGE_SIZE) j) :
    Mapped m₀ tbl (SvmNpt.addPage page (i :: v) p) m' := by
  have htbl : tbl (i :: v) = none := by
    apply h.table_eq_none
    rw [List.length_cons]
    omega
  have hcases : ∀ {w q}, SvmNpt.addPage page (i :: v) p w = some q →
      (w = i :: v ∧ q = p) ∨ (w ≠ i :: v ∧ page w = some q) := cases_of_ite
  refine ⟨hgrows, fun hw => htables ▸ h.tables hw, h.fresh, h.inj, h.depth, h.parent, ?_, ?_, ?_⟩
  · intro w q hw
    rcases hcases hw with ⟨rfl, -⟩ | ⟨-, hw⟩
    · rw [List.length_cons, hlen]
    · exact h.pageDepth hw
  · intro k w q hw
    rcases hcases hw with ⟨heq, -⟩ | ⟨-, hw⟩
    · rw [(List.cons.inj heq).2]
      exact ⟨f, hv⟩
    · exact h.pageParent hw
  · intro w k j hw hj
    by_cases hslot : j :: w = i :: v
    · -- The entry that now maps the page. It is below a table of level 2 and refers to none.
      obtain ⟨rfl, rfl⟩ := List.cons.inj hslot
      rw [hv] at hw
      cases hw
      refine ⟨fun g hg => ?_, fun q hq => ?_, fun _ hnone => ?_⟩
      · rw [htbl] at hg
        cases hg
      · rw [SvmNpt.addPage, if_pos rfl] at hq
        rw [← Option.some.inj hq]
        exact hset
      · rw [SvmNpt.addPage, if_pos rfl] at hnone
        cases hnone
    · have heq : SvmNpt.addPage page (i :: v) p (j :: w) = page (j :: w) := if_neg hslot
      have hold := h.slot hw hj
      rw [hkeep k (h.tables hw) j hj (h.ne_or_ne hv hw hslot)]
      exact ⟨hold.table, fun q => by rw [heq]; exact hold.leaf q, by rw [heq]; exact hold.zero⟩

end Steps

/-! ### Walks -/

section Walk
variable {tbl page : List Nat → Option Nat} {m₀ m : Machine σ} {f4 : Nat}

/-- The path of the page of 2MiB with number `pn`. -/
def pathOf (pn : Nat) : List Nat := [pn % 512, pn / 512 % 512, pn / 512 / 512 % 512]

theorem pathOf_injective {a b : Nat} (ha : a < 2 ^ 27) (hb : b < 2 ^ 27)
    (h : pathOf a = pathOf b) : a = b := by
  simp only [pathOf, List.cons.injEq, and_true] at h
  omega

theorem pathOf_div (g : Nat) : pathOf (g / 2 ^ 21) = [index 2 g, index 3 g, index 4 g] := by
  have h2 : span 2 = 2 ^ 21 := rfl
  have h3 : span 3 = 2 ^ 30 := rfl
  have h4 : span 4 = 2 ^ 39 := rfl
  have e3 : g / 2 ^ 21 / 512 = g / 2 ^ 30 := Nat.div_div_eq_div_mul g (2 ^ 21) 512
  have e4 : g / 2 ^ 30 / 512 = g / 2 ^ 39 := Nat.div_div_eq_div_mul g (2 ^ 30) 512
  rw [pathOf, index, index, index, h2, h3, h4, e3, e4]

/-- The walk of the hardware reaches the page at the path of the address, if there is one. -/
theorem Mapped.walk (h : Mapped m₀ tbl page m) (hroot : tbl [] = some f4) (g : Nat) :
    Paging.walk m.mem 4 (f4 * PAGE_SIZE) g
      = (page (pathOf (g / 2 ^ 21))).map (fun p => p / span 2 * span 2 + g % span 2) := by
  rw [pathOf_div]
  have h4 := h.slot hroot (index_lt 4 g)
  cases ht3 : tbl [index 4 g] with
  | none =>
      -- No table on the way, so no page below it.
      have ht2 : tbl [index 3 g, index 4 g] = none := h.table_cons_eq_none ht3 _
      rw [walk_of_absent, h.page_cons_eq_none ht2, Option.map_none]
      rw [h4.zero ht3 (h.page_eq_none (by simp)), not_present_zero]
  | some f3 =>
      obtain ⟨hp4, -, -, haddr4⟩ := h4.table f3 ht3
      rw [walk_of_table hp4 (leaf_four _), haddr4]
      have h3 := h.slot ht3 (index_lt 3 g)
      cases ht2 : tbl [index 3 g, index 4 g] with
      | none =>
          rw [walk_of_absent, h.page_cons_eq_none ht2, Option.map_none]
          rw [h3.zero ht2 (h.page_eq_none (by simp)), not_present_zero]
      | some f2 =>
          obtain ⟨hp3, hl3, -, haddr3⟩ := h3.table f2 ht2
          rw [walk_of_table hp3 (by rw [leaf_three, hl3]), haddr3]
          have h2 := h.slot ht2 (index_lt 2 g)
          cases hpage : page [index 2 g, index 3 g, index 4 g] with
          | none =>
              rw [walk_of_absent, Option.map_none]
              rw [h2.zero (h.table_eq_none (by simp)) hpage, not_present_zero]
          | some p =>
              obtain ⟨hp2, hl2, haddr2⟩ := h2.leaf p hpage
              rw [walk_of_leaf hp2 (by rw [leaf_two, hl2]), haddr2, Option.map_some]

/-- Every table the hardware can visit is one of the tables of the hierarchy. -/
theorem Mapped.tableAt (h : Mapped m₀ tbl page m) (hroot : tbl [] = some f4) {l t : Nat}
    (ht : TableAt m.mem 4 (f4 * PAGE_SIZE) l t) :
    ∃ v f, tbl v = some f ∧ t = f * PAGE_SIZE ∧ l + v.length = 4 := by
  induction ht with
  | root => exact ⟨[], f4, hroot, rfl, rfl⟩
  | @child level table i _ hi hp hl ih =>
      -- The induction is on the way of the hardware down to the table.
      obtain ⟨v, f, hv, rfl, hlen⟩ := ih
      have hslot := h.slot hv hi
      cases htbl : tbl (i :: v) with
      | some g =>
          refine ⟨i :: v, g, htbl, (hslot.table g htbl).2.2.2, ?_⟩
          rw [List.length_cons]
          omega
      | none =>
          cases hpage : page (i :: v) with
          | none =>
              rw [hslot.zero htbl hpage, not_present_zero] at hp
              cases hp
          | some p =>
              -- A page is a leaf.
              have hdepth := h.pageDepth hpage
              rw [List.length_cons] at hdepth
              have hlevel : level + 1 = 2 := by omega
              rw [hlevel, leaf_two, (hslot.leaf p hpage).2.1] at hl
              cases hl

end Walk

/-! ### `map2m` -/

section Map
variable {tbl page : List Nat → Option Nat} {m₀ m m' : Machine σ}

/-- What follows from an entry that refers to a table: `value & PHYS_MASK` is its address. -/
theorem Mapped.physOf_entry (h : Mapped m₀ tbl page m) {v : List Nat} {f i g : Nat}
    (hv : tbl v = some f) (hi : i < 512) (hg : tbl (i :: v) = some g) :
    physOf (entryAt m.mem (f * PAGE_SIZE) i) = g * PAGE_SIZE := by
  obtain ⟨-, -, hres, haddr⟩ := (h.slot hv hi).table g hg
  rw [physOf_eq hres, haddr]

/-- A table of the hierarchy is in a frame obtained since `m₀`. -/
theorem Mapped.ownFrame (h : Mapped m₀ tbl page m) {v : List Nat} {f : Nat} {W : List Nat}
    {m1 : Machine σ} (hv : tbl v = some f) (hg : m.Grows W m1) :
    ∀ g ∈ [f], g ∈ ([] : List Nat) ∨ (g ∈ m1.tables ∧ g ∉ m₀.tables) := by
  intro g hmem
  rw [List.mem_singleton] at hmem
  exact .inr ⟨hmem ▸ hg.subset f (h.tables hv), hmem ▸ h.fresh hv⟩

/-- `initialize_table_reference_entry` on an entry of the table at `v` adds a table. -/
theorem initializeTableReferenceEntry_mapped (hlaw : ops.Lawful r Live)
    (hs : Sound r Live L m) (h : Mapped m₀ tbl page m) {v : List Nat} {f i : Nat}
    (hv : tbl v = some f) (hlen : v.length ≤ 1) (hi : i < 512) (hnone : tbl (i :: v) = none)
    (hrun : initializeTableReferenceEntry ops (phys2virt r (f * PAGE_SIZE)) i m = .ok m') :
    Sound r Live L m' ∧ ∃ g, Mapped m₀ (addTable tbl (i :: v) g) page m' := by
  obtain ⟨⟨ptr, m1⟩, halloc, hret⟩ := Run.bind_eq_ok.mp hrun
  cases hret
  obtain ⟨hs1, hg1, g, rfl, htables, hzero⟩ := allocateTable_spec hlaw hs halloc
  have hnew : g ∉ m.tables := (List.nodup_cons.mp (htables ▸ hs1.nodup)).1
  have hg : g ∈ m1.tables := htables ▸ List.mem_cons_self
  have hf : f ∈ m.tables := h.tables hv
  have hne : g ≠ f := fun heq => hnew (heq ▸ hf)
  have hphys := hs1.phys_phys2virt (hg1.subset f hf)
  have hphysg := hs1.phys_phys2virt hg
  have hlt : g * PAGE_SIZE < 2 ^ 52 :=
    Nat.lt_trans (PageAllocatorOps.frame_lt_direct (hs1.direct g hg)) (by decide)
  have hgrows := (h.grows.trans hg1 (by simp)).trans (m1.grows_setEntry hphys hi
    (initializeEntry 1#64 0#64 (m1.entry (phys2virt r (f * PAGE_SIZE)) i)
      (m1.phys (phys2virt r (g * PAGE_SIZE))))) (h.ownFrame hv hg1)
  refine ⟨hs1.write _ _ _, g, h.addTable hv hlen hi hnone hgrows hg1.subset hg hnew ?_ ?_ ?_⟩
  · -- The write to the parent is in another frame, so the new table stays empty.
    intro j hj
    rw [(m1.grows_setEntry hphys hi _).entryAt_of_mem hs1.nodup hg (by simpa using hne) hj]
    exact hzero j hj
  · -- The entry just written refers to the new table.
    rw [m1.entryAt_setEntry hphys, if_pos rfl, hphysg]
    refine ⟨fun k hk => ?_, fun p hp => ?_, fun hnone' => ?_⟩
    · rw [SvmNpt.addTable, if_pos rfl] at hk
      rw [← Option.some.inj hk]
      exact ⟨present_initializeEntry .., large_initializeEntry ..,
        reservedClear_initializeEntry _ _ _ hlt,
        entryAddr_initializeEntry _ _ _ (Nat.mul_mod_left _ _) hlt⟩
    · have := h.pageDepth hp
      rw [List.length_cons] at this
      omega
    · rw [SvmNpt.addTable, if_pos rfl] at hnone'
      cases hnone'
  · -- Allocating the table and writing the entry keep every other entry of an old table.
    intro w hw j hj hother
    have hold : entryAt m1.mem (w * PAGE_SIZE) j = entryAt m.mem (w * PAGE_SIZE) j :=
      hg1.entryAt_of_mem hs1.nodup hw List.not_mem_nil hj
    by_cases hwf : w = f
    · subst hwf
      rw [m1.entryAt_setEntry hphys, if_neg (hother.resolve_left (fun hne => hne rfl)), hold]
    · rw [(m1.grows_setEntry hphys hi _).entryAt_of_mem hs1.nodup (hg1.subset w hw)
        (by simpa using hwf) hj, hold]

/-- After `ensureTable` there is a table behind the entry, and every table there was. -/
theorem ensureTable_mapped (hlaw : ops.Lawful r Live) (hs : Sound r Live L m)
    (h : Mapped m₀ tbl page m) {v : List Nat} {f i : Nat} (hv : tbl v = some f)
    (hlen : v.length ≤ 1) (hi : i < 512)
    (hrun : ensureTable ops (phys2virt r (f * PAGE_SIZE)) i m = .ok m') :
    Sound r Live L m' ∧ ∃ tbl' g, Mapped m₀ tbl' page m' ∧
      (∀ w k, tbl w = some k → tbl' w = some k) ∧ tbl' (i :: v) = some g := by
  have hentry : m.entry (phys2virt r (f * PAGE_SIZE)) i = entryAt m.mem (f * PAGE_SIZE) i := by
    rw [m.entry_eq, hs.phys_phys2virt (h.tables hv)]
  simp only [ensureTable, isset_eq, ENTRY_PRESENT, hentry] at hrun
  by_cases hp : present (entryAt m.mem (f * PAGE_SIZE) i) = true
  · -- A present entry above level 2 refers to a table already.
    obtain ⟨g, hg⟩ := (h.present_iff hv hlen hi).mp hp
    rw [present] at hp
    rw [hp] at hrun
    cases hrun
    exact ⟨hs, tbl, g, h, fun _ _ hw => hw, hg⟩
  · have hnone : tbl (i :: v) = none := by
      rw [Option.eq_none_iff_forall_ne_some]
      intro g hg
      exact hp ((h.present_iff hv hlen hi).mpr ⟨g, hg⟩)
    rw [present, Bool.not_eq_true] at hp
    rw [hp] at hrun
    obtain ⟨hs', g, hmapped⟩ :=
      initializeTableReferenceEntry_mapped hlaw hs h hv hlen hi hnone hrun
    exact ⟨hs', _, g, hmapped, fun w k hw => addTable_of_some hnone hw, if_pos rfl⟩

/-- An entry of a level-2 table without a page is not present. -/
theorem Mapped.absent_of_page (h : Mapped m₀ tbl page m) {v : List Nat} {f i : Nat}
    (hv : tbl v = some f) (hlen : v.length = 2) (hi : i < 512) (hpage : page (i :: v) = none) :
    entryAt m.mem (f * PAGE_SIZE) i = 0#64 := by
  refine (h.slot hv hi).zero (h.table_eq_none ?_) hpage
  rw [List.length_cons]
  omega

/-- The last step of `map2m`: the entry of the level-2 table maps the page. -/
theorem setPage_mapped (hs : Sound r Live L m) (h : Mapped m₀ tbl page m) {v : List Nat} {f i : Nat}
    (hv : tbl v = some f) (hlen : v.length = 2) (hi : i < 512) (e : BitVec 64) {hpa : Nat}
    (hal : hpa % PAGE_SIZE = 0) (hlt : hpa < 2 ^ 52) :
    Mapped m₀ tbl (addPage page (i :: v) hpa)
      (m.setEntry (phys2virt r (f * PAGE_SIZE)) i (initializePageReferenceEntry e hpa)) := by
  have hphys := hs.phys_phys2virt (h.tables hv)
  have hgrows := h.grows.trans (m.grows_setEntry hphys hi (initializePageReferenceEntry e hpa))
    (h.ownFrame hv (.refl [] m))
  refine h.addPage hv hlen hgrows rfl ?_ ?_
  · rw [m.entryAt_setEntry hphys, if_pos rfl]
    exact ⟨present_initializeEntry .., large_initializeEntry ..,
      entryAddr_initializeEntry _ _ _ hal hlt⟩
  · intro w hw j hj hother
    by_cases hwf : w = f
    · subst hwf
      rw [m.entryAt_setEntry hphys, if_neg (hother.resolve_left (fun hne => hne rfl))]
    · exact (m.grows_setEntry hphys hi _).entryAt_of_mem hs.nodup hw (by simpa using hwf) hj

/-- The entry `map2m` writes is the one of a level-2 table at the path of `gpa`. -/
theorem lv2Entry_mapped (hlaw : ops.Lawful r Live) (hs : Sound r Live L m)
    (h : Mapped m₀ tbl page m) {f4 gpa lv2tbl lv2index : Nat} (hroot : tbl [] = some f4)
    (hrun : lv2Entry ops gpa (phys2virt r (f4 * PAGE_SIZE)) m = .ok ((lv2tbl, lv2index), m')) :
    Sound r Live L m' ∧ ∃ tbl' f, tbl' [] = some f4 ∧ Mapped m₀ tbl' page m' ∧
      tbl' [index 3 gpa, index 4 gpa] = some f ∧ lv2tbl = phys2virt r (f * PAGE_SIZE) ∧
      lv2index = index 2 gpa := by
  -- The table of level 3, and its address as `map2m` reads it back from the entry.
  obtain ⟨m1, hensure4, hrest⟩ := Run.bind_eq_ok.mp hrun
  obtain ⟨hs1, tbl1, g3, h1, hmono1, hg3⟩ := ensureTable_mapped hlaw hs h hroot (by simp)
    (index_lt 4 gpa) hensure4
  have hroot1 := hmono1 _ _ hroot
  have hentry4 : physOf (m1.entry (phys2virt r (f4 * PAGE_SIZE)) (entryIndex gpa lv4Shift))
      = g3 * PAGE_SIZE := by
    rw [m1.entry_eq, hs1.phys_phys2virt (h1.tables hroot1)]
    exact h1.physOf_entry hroot1 (index_lt 4 gpa) hg3
  simp only [getEntryAddress, hentry4, hs1.mode] at hrest
  -- The same one level down. The tables there were are kept, so the root is still in `f4`.
  obtain ⟨m2, hensure3, hlast⟩ := Run.bind_eq_ok.mp hrest
  obtain ⟨hs2, tbl2, g2, h2, hmono2, hg2⟩ := ensureTable_mapped hlaw hs1 h1 hg3 (by simp)
    (index_lt 3 gpa) hensure3
  have hg3' := hmono2 _ _ hg3
  have hentry3 : physOf (m2.entry (phys2virt r (g3 * PAGE_SIZE))
      (entryIndex gpa TableLevel.level3.shift)) = g2 * PAGE_SIZE := by
    rw [m2.entry_eq, hs2.phys_phys2virt (h2.tables hg3')]
    exact h2.physOf_entry hg3' (index_lt 3 gpa) hg2
  simp only [hentry3, hs2.mode] at hlast
  obtain ⟨heq, rfl⟩ := Prod.mk.inj (Except.ok.inj hlast)
  obtain ⟨rfl, rfl⟩ := Prod.mk.inj heq
  exact ⟨hs2, tbl2, g2, hmono2 _ _ hroot1, h2, hg2, rfl, rfl⟩

/-- Where no page is mapped, the entry of the level-2 table is 0: `map2m` does not run into its
panic. -/
theorem lv2Entry_absent (hlaw : ops.Lawful r Live) (hs : Sound r Live L m)
    (h : Mapped m₀ tbl page m) {f4 gpa lv2tbl lv2index : Nat} (hroot : tbl [] = some f4)
    (hfree : page (pathOf (gpa / 2 ^ 21)) = none)
    (hrun : lv2Entry ops gpa (phys2virt r (f4 * PAGE_SIZE)) m = .ok ((lv2tbl, lv2index), m')) :
    m'.entry lv2tbl lv2index = 0#64 := by
  obtain ⟨hs', tbl', f, -, h', hf, rfl, rfl⟩ := lv2Entry_mapped hlaw hs h hroot hrun
  rw [m'.entry_eq, hs'.phys_phys2virt (h'.tables hf)]
  rw [pathOf_div] at hfree
  exact h'.absent_of_page hf rfl (index_lt 2 gpa) hfree

/-- `map2m` adds the page at the path of `gpa`. -/
theorem map2m_mapped (hlaw : ops.Lawful r Live) (hs : Sound r Live L m)
    (h : Mapped m₀ tbl page m) {f4 gpa hpa : Nat} (hroot : tbl [] = some f4)
    (hal : hpa % PAGE_SIZE = 0) (hlt : hpa < 2 ^ 52)
    (hrun : map2m ops gpa hpa (phys2virt r (f4 * PAGE_SIZE)) m = .ok m') :
    Sound r Live L m' ∧ ∃ tbl', tbl' [] = some f4 ∧
      Mapped m₀ tbl' (addPage page (pathOf (gpa / 2 ^ 21)) hpa) m' := by
  obtain ⟨⟨⟨lv2tbl, lv2index⟩, m1⟩, hentry, hlast⟩ := Run.bind_eq_ok.mp hrun
  obtain ⟨hs1, tbl1, f, hroot1, h1, hf, rfl, rfl⟩ := lv2Entry_mapped hlaw hs h hroot hentry
  obtain ⟨-, hlast⟩ := Run.ite_error_eq_ok.mp hlast
  cases hlast
  rw [pathOf_div]
  exact ⟨hs1.write _ _ _, tbl1, hroot1, setPage_mapped hs1 h1 hf rfl (index_lt 2 gpa) _ hal hlt⟩

/-! ### What stops the mapping -/

theorem ensureTable_error (hlaw : ops.Lawful r Live) (hs : Sound r Live L m) {table i : Nat}
    {e : Halt} (hrun : ensureTable ops table i m = .error e) :
    e = .panic "Failed to allocate memory for the page table." := by
  unfold ensureTable at hrun
  split at hrun
  · rcases Run.bind_eq_error.mp hrun with halloc | ⟨_, -, hret⟩
    · exact allocateTable_error hlaw hs halloc
    · cases hret
  · cases hrun

/-- `map2m` of a page that is not mapped stops only when the allocator has no frame left. -/
theorem map2m_error (hlaw : ops.Lawful r Live) (hs : Sound r Live L m)
    (h : Mapped m₀ tbl page m) {f4 gpa hpa : Nat} (hroot : tbl [] = some f4)
    (hfree : page (pathOf (gpa / 2 ^ 21)) = none) {e : Halt}
    (hrun : map2m ops gpa hpa (phys2virt r (f4 * PAGE_SIZE)) m = .error e) :
    e = .panic "Failed to allocate memory for the page table." := by
  rcases Run.bind_eq_error.mp hrun with hentry | ⟨⟨⟨lv2tbl, lv2index⟩, m1⟩, hentry, hlast⟩
  · -- One of the two tables on the way was not obtained.
    rcases Run.bind_eq_error.mp hentry with hensure4 | ⟨m1, hensure4, hrest⟩
    · exact ensureTable_error hlaw hs hensure4
    · have hs1 := (ensureTable_mapped hlaw hs h hroot (by simp) (index_lt 4 gpa) hensure4).1
      rcases Run.bind_eq_error.mp hrest with hensure3 | ⟨m2, -, hret⟩
      · exact ensureTable_error hlaw hs1 hensure3
      · cases hret
  · simp only [lv2Entry_absent hlaw hs h hroot hfree hentry, isset_eq, BitVec.getLsbD_zero,
      Bool.false_eq_true, if_false] at hlast
    cases hlast

end Map

section Returns
variable {Stock : σ → Nat → Prop} {m₀ m : Machine σ} {n : Nat}

/-- `ensureTable` takes at most one frame. -/
theorem ensureTable_returns (h : ops.Stocked Stock) (table i : Nat) (hn : Stock m.pa (1 + n)) :
    ∃ m', ensureTable ops table i m = .ok m' ∧ Stock m'.pa n := by
  unfold ensureTable
  split
  · obtain ⟨ptr, m1, hrun, hm1⟩ := allocateTable_returns h hn
    exact ⟨_, Run.bind_eq_ok.mpr ⟨_, hrun, rfl⟩, hm1⟩
  · exact ⟨m, rfl, h.drop 1 hn⟩

theorem lv2Entry_returns (h : ops.Stocked Stock) (gpa lv4tbl : Nat) (hn : Stock m.pa (2 + n)) :
    ∃ x m', lv2Entry ops gpa lv4tbl m = .ok (x, m') ∧ Stock m'.pa n := by
  have hn' : Stock m.pa (1 + (1 + n)) := by rwa [← Nat.add_assoc]
  obtain ⟨m1, hensure4, hm1⟩ := ensureTable_returns h lv4tbl (entryIndex gpa lv4Shift) hn'
  obtain ⟨m2, hensure3, hm2⟩ := ensureTable_returns h _ _ hm1
  exact ⟨_, m2, Run.bind_eq_ok.mpr ⟨m1, hensure4, Run.bind_eq_ok.mpr ⟨m2, hensure3, rfl⟩⟩, hm2⟩

/-- `map2m` returns when there are two frames in stock and the page is not mapped: it does not
run into its panic. -/
theorem map2m_returns {tbl page : List Nat → Option Nat} (hstock : ops.Stocked Stock)
    (hlaw : ops.Lawful r Live) (hs : Sound r Live L m) (h : Mapped m₀ tbl page m)
    {f4 gpa : Nat} (hpa : Nat) (hroot : tbl [] = some f4)
    (hfree : page (pathOf (gpa / 2 ^ 21)) = none) (hn : Stock m.pa (2 + n)) :
    ∃ m', map2m ops gpa hpa (phys2virt r (f4 * PAGE_SIZE)) m = .ok m' ∧ Stock m'.pa n := by
  obtain ⟨⟨lv2tbl, lv2index⟩, m2, hentry, hm2⟩ :=
    lv2Entry_returns hstock gpa (phys2virt r (f4 * PAGE_SIZE)) hn
  have hzero := lv2Entry_absent hlaw hs h hroot hfree hentry
  refine ⟨m2.setEntry lv2tbl lv2index (initializePageReferenceEntry 0#64 hpa),
    Run.bind_eq_ok.mpr ⟨_, hentry, ?_⟩, hm2⟩
  simp only [hzero, isset_eq, BitVec.getLsbD_zero, Bool.false_eq_true, if_false]

end Returns

/-! ### `init_npt` -/

/-- The pages after `n` rounds of the loop of `init_npt`. -/
def PagesUpTo (guestStart hostStart n : Nat) (page : List Nat → Option Nat) : Prop :=
  ∀ v p, page v = some p ↔
    ∃ t < n, v = pathOf (guestStart / PAGE_SIZE_2MB + t) ∧ p = hostStart + PAGE_SIZE_2MB * t

section Init
variable {m₀ m m' : Machine σ} {guestStart hostStart size : Nat}

/-- The number of a page of 2MiB below 2^48. -/
theorem pageNumber_lt {n : Nat} (hal : guestStart % PAGE_SIZE_2MB = 0)
    (hn : guestStart + PAGE_SIZE_2MB * n < 2 ^ 48) : guestStart / PAGE_SIZE_2MB + n < 2 ^ 27 := by
  simp only [PAGE_SIZE_2MB_eq] at *
  omega

/-- The hierarchy after `n` rounds of the loop. -/
def Loop (r : Bool) (Live : σ → List Extent → Prop) (L : List Extent) (m₀ : Machine σ)
    (f4 guestStart hostStart n : Nat) (m : Machine σ) : Prop :=
  Sound r Live L m ∧ ∃ tbl page, tbl [] = some f4 ∧ Mapped m₀ tbl page m ∧
    PagesUpTo guestStart hostStart n page

/-- A page not mapped yet has no entry at its path. -/
theorem PagesUpTo.none_of_ge {page : List Nat → Option Nat} {n : Nat}
    (h : PagesUpTo guestStart hostStart n page) (hal : guestStart % PAGE_SIZE_2MB = 0)
    (hn : guestStart + PAGE_SIZE_2MB * n < 2 ^ 48) :
    page (pathOf (guestStart / PAGE_SIZE_2MB + n)) = none := by
  rw [Option.eq_none_iff_forall_ne_some]
  intro p hp
  obtain ⟨t, ht, hpath, -⟩ := (h _ _).mp hp
  have ht' : guestStart + PAGE_SIZE_2MB * t < 2 ^ 48 :=
    Nat.lt_of_le_of_lt (Nat.add_le_add_left (Nat.mul_le_mul_left _ (Nat.le_of_lt ht)) _) hn
  have := pathOf_injective (pageNumber_lt hal hn) (pageNumber_lt hal ht') hpath
  omega

/-- The next page. -/
theorem PagesUpTo.succ {page : List Nat → Option Nat} {n : Nat}
    (h : PagesUpTo guestStart hostStart n page) (hal : guestStart % PAGE_SIZE_2MB = 0)
    (hn : guestStart + PAGE_SIZE_2MB * n < 2 ^ 48) :
    PagesUpTo guestStart hostStart (n + 1) (addPage page
      (pathOf (guestStart / PAGE_SIZE_2MB + n)) (hostStart + PAGE_SIZE_2MB * n)) := by
  have hnone := h.none_of_ge hal hn
  intro v p
  unfold addPage
  split
  · rename_i heq
    constructor
    · intro hp
      exact ⟨n, Nat.lt_succ_self n, heq, (Option.some.inj hp).symm⟩
    · rintro ⟨t, ht, hpath, rfl⟩
      -- No earlier round wrote at this path.
      rcases Nat.lt_succ_iff_lt_or_eq.mp ht with hlt | rfl
      · have := (h _ _).mpr ⟨t, hlt, hpath, rfl⟩
        rw [heq, hnone] at this
        cases this
      · rfl
  · rename_i hne
    rw [h v p]
    constructor
    · rintro ⟨t, ht, hpath, hp⟩
      exact ⟨t, by omega, hpath, hp⟩
    · rintro ⟨t, ht, hpath, hp⟩
      rcases Nat.lt_succ_iff_lt_or_eq.mp ht with hlt | rfl
      · exact ⟨t, hlt, hpath, hp⟩
      · exact absurd hpath hne

/-- The hypotheses on the ranges `init_npt` is given. -/
structure Ranges (guestStart hostStart size : Nat) : Prop where
  guestAligned : guestStart % PAGE_SIZE_2MB = 0
  hostAligned : hostStart % PAGE_SIZE_2MB = 0
  guestEnd : guestStart + size ≤ 2 ^ 48
  hostEnd : hostStart + size ≤ 2 ^ 52

/-- The addresses of round `n` do not wrap. -/
theorem Ranges.round (h : Ranges guestStart hostStart size) {n : Nat}
    (hn : n < size / PAGE_SIZE_2MB) :
    u64 (guestStart + PAGE_SIZE_2MB * n) = guestStart + PAGE_SIZE_2MB * n ∧
      u64 (hostStart + PAGE_SIZE_2MB * n) = hostStart + PAGE_SIZE_2MB * n ∧
      guestStart + PAGE_SIZE_2MB * n < 2 ^ 48 ∧ hostStart + PAGE_SIZE_2MB * n < 2 ^ 52 ∧
      (guestStart + PAGE_SIZE_2MB * n) / 2 ^ 21 = guestStart / PAGE_SIZE_2MB + n ∧
      (hostStart + PAGE_SIZE_2MB * n) % PAGE_SIZE = 0 := by
  obtain ⟨hg, hh, hge, hhe⟩ := h
  have hpage : PAGE_SIZE = 4096 := rfl
  simp only [PAGE_SIZE_2MB_eq] at *
  rw [hpage]
  have hglt : guestStart + 2097152 * n < 2 ^ 48 := by omega
  have hhlt : hostStart + 2097152 * n < 2 ^ 52 := by omega
  refine ⟨u64_of_lt ?_, u64_of_lt ?_, hglt, hhlt, ?_, ?_⟩
  · omega
  · omega
  · omega
  · omega

/-- One round of the loop. -/
theorem Loop.step (hlaw : ops.Lawful r Live) (hr : Ranges guestStart hostStart size) {f4 n : Nat}
    (hn : n < size / PAGE_SIZE_2MB) (h : Loop r Live L m₀ f4 guestStart hostStart n m)
    (hrun : map2m ops (u64 (guestStart + PAGE_SIZE_2MB * n))
      (u64 (hostStart + PAGE_SIZE_2MB * n)) (phys2virt r (f4 * PAGE_SIZE)) m = .ok m') :
    Loop r Live L m₀ f4 guestStart hostStart (n + 1) m' := by
  obtain ⟨hs, tbl, page, hroot, hmapped, hpages⟩ := h
  obtain ⟨hgpa, hhpa, hglt, hhlt, hdiv, hal⟩ := hr.round hn
  rw [hgpa, hhpa] at hrun
  obtain ⟨hs', tbl', hroot', hmapped'⟩ := map2m_mapped hlaw hs hmapped hroot hal hhlt hrun
  rw [hdiv] at hmapped'
  exact ⟨hs', tbl', _, hroot', hmapped', hpages.succ hr.guestAligned hglt⟩

/-- The loop starts with an empty level-4 table. -/
theorem Loop.start (guestStart hostStart : Nat) (hlaw : ops.Lawful r Live)
    (hs : Sound r Live L m) {ptr : Nat}
    (hrun : allocateTable ops m = .ok (ptr, m')) :
    ∃ f4 ∈ m'.tables, ptr = phys2virt r (f4 * PAGE_SIZE) ∧
      Loop r Live L m f4 guestStart hostStart 0 m' := by
  obtain ⟨hs', hgrows, f4, hptr, htables, hzero⟩ := allocateTable_spec hlaw hs hrun
  have hnew : f4 ∉ m.tables := (List.nodup_cons.mp (htables ▸ hs'.nodup)).1
  have hf4 : f4 ∈ m'.tables := htables ▸ List.mem_cons_self
  have hcases : ∀ {v f}, (fun v : List Nat => if v = [] then some f4 else none) v = some f →
      v = [] ∧ f = f4 := by
    intro v f hv
    simp only [Option.ite_none_right_eq_some, Option.some.injEq] at hv
    exact ⟨hv.1, hv.2.symm⟩
  -- The hierarchy with one table, at the root, and no page.
  refine ⟨f4, hf4, hptr, hs', fun v => if v = [] then some f4 else none, fun _ => none, rfl, ?_,
    fun v p => by simp⟩
  refine ⟨hgrows, fun hv => ?_, fun hv => ?_, fun hv hw => ?_, fun hv => ?_, fun hv => ?_,
    fun hp => ?_, fun hp => ?_, fun hv hi => ?_⟩
  · rw [(hcases hv).2]
    exact hf4
  · rw [(hcases hv).2]
    exact hnew
  · rw [(hcases hv).1, (hcases hw).1]
  · rw [(hcases hv).1]
    exact Nat.zero_le 2
  · cases (hcases hv).1
  · cases hp
  · cases hp
  · rw [(hcases hv).2, hzero _ hi]
    exact ⟨fun g hg => (by cases (hcases hg).1), fun p hp => (by cases hp), fun _ _ => rfl⟩

/-- The page of an address inside the range, and its place in it. -/
theorem Ranges.page_of_mem (hr : Ranges guestStart hostStart size) {g : Nat}
    (hlo : guestStart ≤ g) (hhi : g < guestStart + size / PAGE_SIZE_2MB * PAGE_SIZE_2MB) :
    ∃ t < size / PAGE_SIZE_2MB, g / 2 ^ 21 = guestStart / PAGE_SIZE_2MB + t ∧
      (hostStart + PAGE_SIZE_2MB * t) / 2 ^ 21 * 2 ^ 21 + g % 2 ^ 21
        = hostStart + (g - guestStart) := by
  obtain ⟨hgal, hhal, -, -⟩ := hr
  simp only [PAGE_SIZE_2MB_eq] at *
  refine ⟨g / 2 ^ 21 - guestStart / 2097152, ?_, ?_, ?_⟩
  · omega
  · omega
  · omega

/-- The address of a mapped page is inside the range. -/
theorem Ranges.mem_of_page (hr : Ranges guestStart hostStart size) {g t : Nat}
    (ht : t < size / PAGE_SIZE_2MB) (hpage : g / 2 ^ 21 = guestStart / PAGE_SIZE_2MB + t) :
    guestStart ≤ g ∧ g < guestStart + size / PAGE_SIZE_2MB * PAGE_SIZE_2MB := by
  obtain ⟨hgal, -, -, -⟩ := hr
  simp only [PAGE_SIZE_2MB_eq] at *
  constructor
  · omega
  · omega

/-- The walk after the loop. -/
theorem Loop.walk (hr : Ranges guestStart hostStart size) {f4 : Nat}
    (h : Loop r Live L m₀ f4 guestStart hostStart (size / PAGE_SIZE_2MB) m) {g : Nat}
    (hg : g < 2 ^ 48) :
    Paging.walk m.mem 4 (f4 * PAGE_SIZE) g
      = if guestStart ≤ g ∧ g < guestStart + size / PAGE_SIZE_2MB * PAGE_SIZE_2MB then
          some (hostStart + (g - guestStart)) else none := by
  obtain ⟨-, tbl, page, hroot, hmapped, hpages⟩ := h
  have hspan : span 2 = 2 ^ 21 := rfl
  rw [hmapped.walk hroot, hspan]
  split
  · -- The page with the address is mapped.
    rename_i hin
    obtain ⟨t, ht, hpn, haddr⟩ := hr.page_of_mem hin.1 hin.2
    have hpage : page (pathOf (g / 2 ^ 21)) = some (hostStart + PAGE_SIZE_2MB * t) :=
      (hpages _ _).mpr ⟨t, ht, by rw [hpn], rfl⟩
    rw [hpage, Option.map_some, haddr]
  · -- A page at the path of the address would be one of a round, whose addresses are all inside.
    rename_i hout
    have hpage : page (pathOf (g / 2 ^ 21)) = none := by
      rw [Option.eq_none_iff_forall_ne_some]
      intro p hp
      obtain ⟨t, ht, hpath, -⟩ := (hpages _ _).mp hp
      have hlt : g / 2 ^ 21 < 2 ^ 27 := by omega
      have hlt' := pageNumber_lt hr.guestAligned (hr.round ht).2.2.1
      exact hout (hr.mem_of_page ht (pathOf_injective hlt hlt' hpath))
    rw [hpage, Option.map_none]

/-- `init_npt` returns the address of a hierarchy that maps exactly the requested range, all of
whose tables are in frames it obtained. -/
theorem initNpt_spec (hlaw : ops.Lawful r Live) (hr : Ranges guestStart hostStart size)
    (hs : Sound r Live L m) {nCr3 : Nat}
    (hrun : initNpt ops guestStart hostStart size m = .ok (nCr3, m')) :
    Sound r Live L m' ∧ m.Grows [] m' ∧ nCr3 < DIRECT_MAP_SIZE ∧
      (∀ g < 2 ^ 48, Paging.walk m'.mem 4 nCr3 g
        = if guestStart ≤ g ∧ g < guestStart + size / PAGE_SIZE_2MB * PAGE_SIZE_2MB then
            some (hostStart + (g - guestStart)) else none) ∧
      ∀ l t, TableAt m'.mem 4 nCr3 l t → ∃ f ∈ m'.tables, t = f * PAGE_SIZE := by
  obtain ⟨⟨ptr, m1⟩, halloc, hrest⟩ := Run.bind_eq_ok.mp hrun
  obtain ⟨m2, hloop, hret⟩ := Run.bind_eq_ok.mp hrest
  obtain ⟨rfl, rfl⟩ := Prod.mk.inj (Except.ok.inj hret)
  obtain ⟨f4, -, rfl, hstart⟩ := Loop.start guestStart hostStart hlaw hs halloc
  -- The loop of `init_npt` as a run of `Loop.step`.
  have hdone := Run.forRange_invariant (fun n b => Loop r Live L m f4 guestStart hostStart n b)
    hstart _ (fun n hn b b' hb hbody => hb.step hlaw hr hn hbody) hloop
  have hwalk : ∀ g < 2 ^ 48, _ := fun g hg => hdone.walk hr hg
  obtain ⟨hs2, tbl, page, hroot, hmapped, -⟩ := hdone
  have hf4 := hmapped.tables hroot
  rw [hs2.phys_phys2virt hf4]
  refine ⟨hs2, hmapped.grows, PageAllocatorOps.frame_lt_direct (hs2.direct f4 hf4),
    hwalk, fun l t ht => ?_⟩
  obtain ⟨v, f, hv, rfl, -⟩ := hmapped.tableAt hroot ht
  exact ⟨f, hmapped.tables hv, rfl⟩

/-- `init_npt` returns when the allocator has a frame for the level-4 table and two for each
page. -/
theorem initNpt_returns {Stock : σ → Nat → Prop} (hstock : ops.Stocked Stock)
    (hlaw : ops.Lawful r Live) (hr : Ranges guestStart hostStart size) (hs : Sound r Live L m)
    (hn : Stock m.pa (1 + size / PAGE_SIZE_2MB * 2)) :
    ∃ x, initNpt ops guestStart hostStart size m = .ok x := by
  obtain ⟨ptr, m1, halloc, hm1⟩ := allocateTable_returns hstock hn
  obtain ⟨f4, -, rfl, hstart⟩ := Loop.start guestStart hostStart hlaw hs halloc
  -- Each round takes at most two frames from the stock and finds its page not mapped.
  have hloop : ∀ n, n ≤ size / PAGE_SIZE_2MB → ∃ b,
      Run.forRange (fun i => map2m ops (u64 (guestStart + PAGE_SIZE_2MB * i))
        (u64 (hostStart + PAGE_SIZE_2MB * i)) (phys2virt r (f4 * PAGE_SIZE))) n m1 = .ok b ∧
      Loop r Live L m f4 guestStart hostStart n b ∧
      Stock b.pa ((size / PAGE_SIZE_2MB - n) * 2) := by
    intro n
    induction n with
    | zero => exact fun _ => ⟨m1, rfl, hstart, hm1⟩
    | succ n ih =>
        intro hn
        obtain ⟨b, hrun, hb, hstockb⟩ := ih (by omega)
        obtain ⟨hsb, tbl, page, hroot, hmapped, hpages⟩ := hb
        obtain ⟨hgpa, -, hglt, -, hdiv, -⟩ := hr.round hn
        have hfree := hpages.none_of_ge hr.guestAligned hglt
        rw [← hdiv, ← hgpa] at hfree
        have htwo : (size / PAGE_SIZE_2MB - n) * 2 = 2 + (size / PAGE_SIZE_2MB - (n + 1)) * 2 := by
          omega
        obtain ⟨b', hbody, hb'⟩ := map2m_returns hstock hlaw hsb hmapped
          (u64 (hostStart + PAGE_SIZE_2MB * n)) hroot hfree (htwo ▸ hstockb)
        have hnext := Loop.step hlaw hr hn ⟨hsb, tbl, page, hroot, hmapped, hpages⟩ hbody
        exact ⟨b', Run.bind_eq_ok.mpr ⟨b, hrun, hbody⟩, hnext, hb'⟩
  obtain ⟨m2, hrun, -, -⟩ := hloop _ (Nat.le_refl _)
  exact ⟨_, Run.bind_eq_ok.mpr ⟨_, halloc, Run.bind_eq_ok.mpr ⟨m2, hrun, rfl⟩⟩⟩

/-- `init_npt` stops only when the allocator has no frame left: no page is mapped twice. -/
theorem initNpt_error (hlaw : ops.Lawful r Live) (hr : Ranges guestStart hostStart size)
    (hs : Sound r Live L m) {e : Halt}
    (hrun : initNpt ops guestStart hostStart size m = .error e) :
    e = .panic "Failed to allocate memory for the page table." := by
  rcases Run.bind_eq_error.mp hrun with halloc | ⟨⟨ptr, m1⟩, halloc, hrest⟩
  · exact allocateTable_error hlaw hs halloc
  · rcases Run.bind_eq_error.mp hrest with hloop | ⟨m2, -, hret⟩
    · obtain ⟨f4, -, rfl, hstart⟩ := Loop.start guestStart hostStart hlaw hs halloc
      -- The round that stopped found the hierarchy of the rounds before it.
      obtain ⟨n, hn, b, ⟨hsb, tbl, page, hroot, hmapped, hpages⟩, hbody⟩ := Run.forRange_error
        (fun n b => Loop r Live L m f4 guestStart hostStart n b) hstart _
        (fun n hn b b' hb hbody => hb.step hlaw hr hn hbody) hloop
      obtain ⟨hgpa, -, hglt, -, hdiv, -⟩ := hr.round hn
      have hfree := hpages.none_of_ge hr.guestAligned hglt
      rw [← hdiv, ← hgpa] at hfree
      exact map2m_error hlaw hsb hmapped hroot hfree hbody
    · cases hret

/-- **`init_npt` builds exactly the requested mapping.** For every allocator with the contract and
all ranges, unless a table cannot be obtained: the pages of 2MiB in the range are mapped in order,
and nothing else is. -/
theorem initNpt_exact (hlaw : ops.Lawful r Live) (hr : Ranges guestStart hostStart size)
    (hs : Sound r Live L m)
    (hnever : initNpt ops guestStart hostStart size m
      ≠ .error (.panic "Failed to allocate memory for the page table.")) :
    ∃ nCr3 m', initNpt ops guestStart hostStart size m = .ok (nCr3, m') ∧
      ∀ g < 2 ^ 48, Paging.walk m'.mem 4 nCr3 g
        = if guestStart ≤ g ∧ g < guestStart + size / PAGE_SIZE_2MB * PAGE_SIZE_2MB then
            some (hostStart + (g - guestStart)) else none := by
  cases hrun : initNpt ops guestStart hostStart size m with
  | error e =>
      rw [hrun, initNpt_error hlaw hr hs hrun] at hnever
      exact absurd rfl hnever
  | ok x =>
      obtain ⟨nCr3, m'⟩ := x
      exact ⟨nCr3, m', rfl, (initNpt_spec hlaw hr hs hrun).2.2.2.1⟩

/-- A machine over the bump allocator, with empty memory and no tables. -/
def bumpMachine : Machine Nat := ⟨fun _ => 0#8, 1, 0, fun _ => 0#64, true, [], []⟩

/-- Three pages across a boundary of level-4 entries: the second one is the first behind it. -/
theorem initNpt_exact_bump : ∃ nCr3 m',
    initNpt (bumpOps true) (2 ^ 39 - 2 ^ 21) 0x40000000 (3 * 2 ^ 21) bumpMachine
      = .ok (nCr3, m') ∧
        Paging.walk m'.mem 4 nCr3 (2 ^ 39 + 5) = some (0x40000000 + 2 ^ 21 + 5) := by
  have hr : Ranges (2 ^ 39 - 2 ^ 21) 0x40000000 (3 * 2 ^ 21) := by
    refine ⟨?_, ?_, ?_, ?_⟩ <;> decide
  have hs : Sound true BumpLive [] bumpMachine :=
    sound_of_live rfl rfl ⟨Nat.le_refl 1, by simp⟩
  have hnever : initNpt (bumpOps true) (2 ^ 39 - 2 ^ 21) 0x40000000 (3 * 2 ^ 21) bumpMachine
        ≠ .error (.panic "Failed to allocate memory for the page table.") := by
    obtain ⟨x, hx⟩ := initNpt_returns (bumpOps_stocked true) (bumpOps_lawful true) hr hs
      ⟨Nat.le_refl 1, by decide⟩
    rw [hx]
    simp
  obtain ⟨nCr3, m', hrun, hwalk⟩ := initNpt_exact (bumpOps_lawful true) hr hs hnever
  refine ⟨nCr3, m', hrun, ?_⟩
  rw [hwalk _ (by decide)]
  rfl

end Init

/-! ### The history of tables -/

section History
variable {σ : Type} (ops : PageAllocatorOps σ) (T : List Nat)

theorem withOlder_initializeTableReferenceEntry (table i : Nat) (m : Machine σ) :
    initializeTableReferenceEntry ops table i (m.withOlder T)
      = (initializeTableReferenceEntry ops table i m).map (Machine.withOlder T) := by
  unfold initializeTableReferenceEntry
  rw [withOlder_allocateTable]
  apply Run.map_bind
  intro _
  rfl

theorem withOlder_ensureTable (table i : Nat) (m : Machine σ) :
    ensureTable ops table i (m.withOlder T)
      = (ensureTable ops table i m).map (Machine.withOlder T) := by
  unfold ensureTable
  show (if !isset (m.entry table i) ENTRY_PRESENT then _ else _) = _
  split
  · exact withOlder_initializeTableReferenceEntry ops T table i m
  · rfl

theorem withOlder_lv2Entry (gpa lv4tbl : Nat) (m : Machine σ) :
    lv2Entry ops gpa lv4tbl (m.withOlder T)
      = (lv2Entry ops gpa lv4tbl m).map fun x => (x.1, x.2.withOlder T) := by
  unfold lv2Entry
  simp only [withOlder_ensureTable]
  apply Run.map_bind
  intro m1
  show (ensureTable ops _ _ (m1.withOlder T) >>= _) = _
  rw [withOlder_ensureTable]
  apply Run.map_bind
  intro _
  rfl

theorem withOlder_map2m (gpa hpa lv4tbl : Nat) (m : Machine σ) :
    map2m ops gpa hpa lv4tbl (m.withOlder T)
      = (map2m ops gpa hpa lv4tbl m).map (Machine.withOlder T) := by
  unfold map2m
  rw [withOlder_lv2Entry]
  apply Run.map_bind
  rintro ⟨⟨lv2tbl, lv2index⟩, m1⟩
  show (if isset (m1.entry lv2tbl lv2index) ENTRY_PRESENT then _ else _) = _
  simp only
  split <;> rfl

/-- `init_npt` does not look at the tables obtained before. -/
theorem withOlder_initNpt (guestStart hostStart size : Nat) (m : Machine σ) :
    initNpt ops guestStart hostStart size (m.withOlder T)
      = (initNpt ops guestStart hostStart size m).map fun x => (x.1, x.2.withOlder T) := by
  unfold initNpt
  rw [withOlder_allocateTable]
  apply Run.map_bind
  rintro ⟨lv4tbl, m1⟩
  have hloop := Run.map_forRange (Machine.withOlder T)
    (fun i => map2m ops (u64 (guestStart + PAGE_SIZE_2MB * i))
      (u64 (hostStart + PAGE_SIZE_2MB * i)) lv4tbl)
    (fun i b => withOlder_map2m ops T _ _ lv4tbl b) m1 (size / PAGE_SIZE_2MB)
  simp only [hloop]
  apply Run.map_bind
  intro _
  rfl

end History

end YmirC.SvmNpt
