import YmirC.Proofs.Page.Reconstruct
import YmirC.Proofs.Page.Returns

/-!
# `YmirC.Proofs.Page.Translation`: what the new hierarchy translates, and what it shares

`reconstruct` installs the direct map and copies the entries of the kernel region, so the direct
map reaches every physical address below its size, the kernel region is translated as before, and
below the direct map nothing is mapped.

The copies are not deep. `clone_lv3_table` and `clone_lv2_table` patch a local copy of the entry
they read, so the new level-3 tables refer to the old level-2 tables: the two hierarchies share
them exactly when the kernel region has any.
-/

set_option autoImplicit false

namespace YmirC

open ByteMemory Paging

variable {σ : Type} {ops : PageAllocatorOps σ} {Live : σ → List Extent → Prop}
  {L : List Extent} {m m' : Machine σ} {f4 : Nat}

/-- The level-4 index and the level-3 index of an address of the direct map. -/
theorem index_direct {p : Nat} (hp : p < DIRECT_MAP_SIZE) :
    index 4 (DIRECT_MAP_BASE + p) = lv4idxStart ∧ index 3 (DIRECT_MAP_BASE + p) = p / 2 ^ 30 ∧
      (DIRECT_MAP_BASE + p) % span 3 = p % 2 ^ 30 := by
  have hstart : lv4idxStart = 273 := by decide
  simp only [index, span, DIRECT_MAP_BASE, DIRECT_MAP_SIZE, hstart] at *
  omega

/-- An address of the direct map reaches its physical address. -/
theorem Built.walk_direct {k : Nat} (h : Built m m' f4 k) {p : Nat} (hp : p < DIRECT_MAP_SIZE) :
    walk m'.mem 4 (f4 * PAGE_SIZE) (DIRECT_MAP_BASE + p) = some p := by
  obtain ⟨h4, h3, hoff⟩ := index_direct hp
  obtain ⟨f, -, -, ⟨hpres, haddr⟩, hpages⟩ := h.direct
  obtain ⟨hpres3, hlarge, hphys⟩ := hpages _ (index_lt 3 (DIRECT_MAP_BASE + p))
  rw [← h4] at hpres haddr
  rw [walk_of_table hpres (leaf_four _), haddr, walk_of_leaf hpres3 (by simpa using hlarge),
    hphys, h3, hoff, Option.some_inj]
  simp only [span]
  omega

/-- An address below the direct map is not mapped. -/
theorem Built.walk_low {k : Nat} (h : Built m m' f4 k) {va : Nat}
    (hva : index 4 va < lv4idxStart) : walk m'.mem 4 (f4 * PAGE_SIZE) va = none := by
  apply walk_of_absent
  rw [h.low _ hva]
  rfl

/-- An address of the kernel region reaches what it reached before. -/
theorem Built.walk_kernel (h : Built m m' f4 (NUM_TABLE_ENTRIES - lv4idxEnd))
    (hsame : ∀ l t, TableAt m.mem 4 m.root l t → ∀ k < 4096, m'.mem (t + k) = m.mem (t + k))
    {va : Nat} (hva : lv4idxEnd ≤ index 4 va) :
    walk m'.mem 4 (f4 * PAGE_SIZE) va = walk m.mem 4 m.root va := by
  have hlt := index_lt 4 va
  have hbound : index 4 va < lv4idxEnd + (NUM_TABLE_ENTRIES - lv4idxEnd) := by
    simp only [NUM_TABLE_ENTRIES]
    omega
  by_cases hp : present (entryAt m.mem m.root (index 4 va)) = true
  · obtain ⟨f, -, -, ⟨hpres, haddr⟩, hentries⟩ := h.copied _ hva hbound hp
    rw [walk_of_table hpres (leaf_four _), walk_of_table hp (leaf_four _), haddr]
    apply walk_of_sameTree
    -- The copied level-3 entries refer to the old tables, which keep their bytes.
    intro j hj
    refine ⟨hentries j hj, fun hpj hlj => ?_⟩
    exact sameTree_of_bytes 2 _ (.child (Reconstructible.tableAt hlt hp) hj hpj hlj) hsame
  · have hp' := Bool.eq_false_iff.mpr hp
    rw [walk_of_absent (h.absent _ hva hbound hp'), walk_of_absent hp']

/-- The old tables keep their bytes when they are in none of the frames obtained. -/
theorem Apart.bytes (hapart : Apart m m')
    (hmem : ∀ a, a / PAGE_SIZE ∉ m'.tables → m'.mem a = m.mem a) (hroot : m.root % PAGE_SIZE = 0) :
    ∀ l t, TableAt m.mem 4 m.root l t → ∀ k < 4096, m'.mem (t + k) = m.mem (t + k) := by
  intro l t ht k hk
  have hal : t % PAGE_SIZE = 0 := by
    cases ht with
    | root => exact hroot
    | child => exact entryAddr_mod _
  apply hmem
  have hframe : (t + k) / PAGE_SIZE = t / PAGE_SIZE := by
    simp only [PAGE_SIZE] at *
    omega
  rw [hframe]
  exact hapart l t ht

/-! ### A machine as UEFI leaves it -/

/-- The words of the page tables of `uefiMachine`. The level-4 table is in frame 1 and its last
entry refers to the level-3 table in frame 2. Entry 510 there refers to the level-2 table in
frame 3, which maps the first 2MiB of the kernel to the physical address 0x200000. -/
def uefiWords (k : Nat) : BitVec 64 :=
  if k = 512 * 1 + 511 then 0x2003#64
  else if k = 512 * 2 + 510 then 0x3003#64
  else if k = 512 * 3 then 0x200083#64
  else 0#64

/-- A machine before the reconstruction, over an allocator whose frames from 4 on are unused. -/
def uefiMachine : Machine Nat where
  mem := ofWords uefiWords
  pa := 4
  cr3 := 1 * PAGE_SIZE
  msr _ := 0#64
  mappingReconstructed := false
  tables := []
  writes := []

theorem entryAt_uefiMachine (f i : Nat) :
    entryAt uefiMachine.mem (f * PAGE_SIZE) i = uefiWords (512 * f + i) := by
  have haddr : f * PAGE_SIZE + 8 * i = 8 * (512 * f + i) := by
    simp only [PAGE_SIZE]
    omega
  rw [entryAt, haddr]
  exact load64_ofWords uefiWords _

/-- The tables of the hierarchy are the three in frames 1 to 3. -/
theorem tableAt_uefiMachine {l t : Nat} (h : TableAt uefiMachine.mem 4 uefiMachine.root l t) :
    l + t / PAGE_SIZE = 5 ∧ 2 ≤ l ∧ l ≤ 4 ∧ t % PAGE_SIZE = 0 := by
  induction h with
  | root => decide
  | @child level table i _ hi hp hl ih =>
      obtain ⟨hframe, hlevel, htop, hal⟩ := ih
      have htable : table = (5 - (level + 1)) * PAGE_SIZE := by
        simp only [PAGE_SIZE] at *
        omega
      rw [htable, entryAt_uefiMachine] at hp hl ⊢
      have hcases : level = 1 ∨ level = 2 ∨ level = 3 := by omega
      unfold uefiWords at hp hl ⊢
      -- In each table one entry is present; the one of level 2 is a page.
      rcases hcases with rfl | rfl | rfl
      · by_cases h0 : i = 0
        · subst h0
          exact absurd hl (by decide)
        · rw [if_neg (by omega), if_neg (by omega), if_neg (by omega)] at hp
          cases hp
      · by_cases h510 : i = 510
        · subst h510
          decide
        · rw [if_neg (by omega), if_neg (by omega), if_neg (by omega)] at hp
          cases hp
      · by_cases h511 : i = 511
        · subst h511
          decide
        · rw [if_neg (by omega), if_neg (by omega), if_neg (by omega)] at hp
          cases hp

theorem reservedClear_uefiWords (k : Nat) : ReservedClear (uefiWords k) := by
  intro i h52 h63
  have hlt : (uefiWords k).toNat < 2 ^ 52 := by
    unfold uefiWords
    split
    · decide
    split
    · decide
    split <;> decide
  exact Nat.testBit_lt_two_pow (Nat.lt_of_lt_of_le hlt (Nat.pow_le_pow_right (by decide) h52))

theorem uefiMachine_reconstructible : Reconstructible BumpLive [⟨1, 3⟩] uefiMachine where
  mode := rfl
  live := ⟨by decide, by decide⟩
  tables := rfl
  cr3 := by decide
  reserved := by
    intro l t ht i _
    obtain ⟨-, -, -, hal⟩ := tableAt_uefiMachine ht
    have haddr : t / PAGE_SIZE * PAGE_SIZE = t := Nat.div_mul_cancel (Nat.dvd_of_mod_eq_zero hal)
    rw [← haddr, entryAt_uefiMachine]
    exact reservedClear_uefiWords _

/-- `reconstruct` returns on this machine, and the old tables are in no frame it obtains. -/
theorem uefiMachine_runs :
    ∃ m', reconstruct (bumpOps false) uefiMachine = .ok m' ∧ Apart uefiMachine m' := by
  have hstock : 1 ≤ uefiMachine.pa ∧ uefiMachine.pa + RECONSTRUCT_FRAMES ≤ DIRECT_MAP_FRAMES := by
    decide
  obtain ⟨m', hrun⟩ := reconstruct_returns (bumpOps_stocked false) hstock
  refine ⟨m', hrun, apart_of_live (bumpOps_lawful false) uefiMachine_reconstructible hrun ?_⟩
  intro l t ht
  obtain ⟨hframe, hlevel, htop, -⟩ := tableAt_uefiMachine ht
  refine ⟨⟨1, 3⟩, List.mem_singleton_self _, ?_⟩
  rw [Extent.mem_mk]
  omega

/-! ### Translation -/

/-- After `reconstruct` the direct map translates every physical address below
`DIRECT_MAP_SIZE` at the address `phys2virt` gives it, the kernel region translates as before,
and nothing below the direct map is mapped. -/
theorem reconstruct_translates (hlaw : ops.Lawful false Live) (hm : Reconstructible Live L m)
    (hrun : reconstruct ops m = .ok m') (hapart : Apart m m') :
    (∀ p < DIRECT_MAP_SIZE, phys2virt m'.mappingReconstructed p = DIRECT_MAP_BASE + p ∧
      walk m'.mem 4 m'.root (DIRECT_MAP_BASE + p) = some p) ∧
    (∀ va, 274 ≤ index 4 va → walk m'.mem 4 m'.root va = walk m.mem 4 m.root va) ∧
    (∀ va, index 4 va < 273 → walk m'.mem 4 m'.root va = none) ∧
    (∀ p < DIRECT_MAP_SIZE,
      virt2phys m'.mappingReconstructed (phys2virt m'.mappingReconstructed p) = p) := by
  obtain ⟨hmode, -, hmem, f4, -, hroot, hbuilt⟩ := reconstruct_built hlaw hm hrun
  have h := hbuilt hapart
  have hend : lv4idxEnd = 274 := by decide
  have hstart : lv4idxStart = 273 := by decide
  rw [hmode, hroot]
  -- The three regions of the new level-4 table, one after the other.
  refine ⟨fun p hp => ⟨?_, h.walk_direct hp⟩, fun va hva => ?_, fun va hva => ?_, fun p hp => ?_⟩
  · rw [phys2virt_true hp, Nat.add_comm]
  · exact h.walk_kernel (hapart.bytes hmem (Nat.mul_mod_left _ _)) (hend ▸ hva)
  · exact h.walk_low (hstart ▸ hva)
  · exact virt2phys_phys2virt true hp

theorem reconstruct_translates_uefiMachine :
    ∃ m', reconstruct (bumpOps false) uefiMachine = .ok m' ∧
      walk m'.mem 4 m'.root (DIRECT_MAP_BASE + 0x12345678) = some 0x12345678 ∧
      walk m'.mem 4 m'.root (KERNEL_BASE + 0x1234) = walk uefiMachine.mem 4 uefiMachine.root
        (KERNEL_BASE + 0x1234) := by
  obtain ⟨m', hrun, hapart⟩ := uefiMachine_runs
  obtain ⟨hdirect, hkernel, -, -⟩ := reconstruct_translates (bumpOps_lawful false)
    uefiMachine_reconstructible hrun hapart
  exact ⟨m', hrun, (hdirect _ (by decide)).2, hkernel _ (by decide)⟩

/-! ### Shared tables -/

/-- The hierarchy of `m'` is a deep copy: its tables are all in frames obtained on the way from
`m`, and none of them is a table of the hierarchy of `m`. -/
def DeepCopy (m m' : Machine σ) : Prop :=
  ∀ l t, TableAt m'.mem 4 m'.root l t →
    t / PAGE_SIZE ∈ m'.tables ∧ ∀ l', ¬ TableAt m.mem 4 m.root l' t

/-- In the kernel region of the hierarchy of `m` no level-3 entry refers to a level-2 table:
each is absent or maps a page of 1GiB. -/
def NoLv2Tables (m : Machine σ) : Prop :=
  ∀ i, 274 ≤ i → i < 512 → present (entryAt m.mem m.root i) = true →
    ∀ j < 512, present (entryAt m.mem (entryAddr (entryAt m.mem m.root i)) j) = true →
      large (entryAt m.mem (entryAddr (entryAt m.mem m.root i)) j) = true

/-- The level-3 tables of the new hierarchy: the one of the direct map and the copies. Each is
in a frame obtained, and without level-2 tables in the old kernel region each of its present
entries is large. -/
theorem Built.lv3Table (h : Built m m' f4 (NUM_TABLE_ENTRIES - lv4idxEnd)) (hno : NoLv2Tables m)
    {i : Nat} (hi : i < 512) (hp : present (entryAt m'.mem (f4 * PAGE_SIZE) i) = true) :
    ∃ f ∈ m'.tables, entryAddr (entryAt m'.mem (f4 * PAGE_SIZE) i) = f * PAGE_SIZE ∧
      ∀ j < 512, present (entryAt m'.mem (f * PAGE_SIZE) j) = true →
        large (entryAt m'.mem (f * PAGE_SIZE) j) = true := by
  have hend : lv4idxEnd = 274 := by decide
  have hstart : lv4idxStart = 273 := by decide
  -- Below the direct map there is nothing; then its own table; then the copies.
  rcases Nat.lt_trichotomy i lv4idxStart with hlt | rfl | hgt
  · rw [h.low i hlt] at hp
    cases hp
  · obtain ⟨f, hf, -, ⟨-, haddr⟩, hpages⟩ := h.direct
    exact ⟨f, hf, haddr, fun j hj _ => (hpages j hj).2.1⟩
  · have hbound : i < lv4idxEnd + (NUM_TABLE_ENTRIES - lv4idxEnd) := by
      simp only [NUM_TABLE_ENTRIES]
      omega
    by_cases hold : present (entryAt m.mem m.root i) = true
    · obtain ⟨f, hf, -, ⟨-, haddr⟩, hentries⟩ := h.copied i (by omega) hbound hold
      refine ⟨f, hf, haddr, fun j hj hpj => ?_⟩
      rw [hentries j hj] at hpj ⊢
      exact hno i (by omega) hi hold j hj hpj
    · rw [h.absent i (by omega) hbound (Bool.eq_false_iff.mpr hold)] at hp
      cases hp

/-- Without level-2 tables in the old kernel region the new hierarchy has the level-4 table and
level-3 tables only, all in frames obtained. -/
theorem Built.tables_of_noLv2Tables (h : Built m m' f4 (NUM_TABLE_ENTRIES - lv4idxEnd))
    (hno : NoLv2Tables m) {l t : Nat} (ht : TableAt m'.mem 4 (f4 * PAGE_SIZE) l t) :
    (l = 4 ∧ t = f4 * PAGE_SIZE) ∨ (l = 3 ∧ ∃ f ∈ m'.tables, t = f * PAGE_SIZE ∧
      ∀ j < 512, present (entryAt m'.mem (f * PAGE_SIZE) j) = true →
        large (entryAt m'.mem (f * PAGE_SIZE) j) = true) := by
  induction ht with
  | root => exact .inl ⟨rfl, rfl⟩
  | child _ hi hp hl ih =>
      rcases ih with ⟨hlevel, rfl⟩ | ⟨hlevel, f, hf, rfl, hlarge⟩
      · exact .inr ⟨by omega, h.lv3Table hno hi hp⟩
      · -- A level-3 table has no table below it.
        rw [hlevel, leaf_three, hlarge _ hi hp] at hl
        cases hl

/-- A level-2 table of the old kernel region is a table of the new hierarchy too. -/
theorem Built.shares (h : Built m m' f4 (NUM_TABLE_ENTRIES - lv4idxEnd)) {i j : Nat}
    (hi : 274 ≤ i) (hi' : i < 512) (hp : present (entryAt m.mem m.root i) = true) (hj : j < 512)
    (hpj : present (entryAt m.mem (entryAddr (entryAt m.mem m.root i)) j) = true)
    (hlj : large (entryAt m.mem (entryAddr (entryAt m.mem m.root i)) j) = false) :
    ∃ t, TableAt m.mem 4 m.root 2 t ∧ TableAt m'.mem 4 (f4 * PAGE_SIZE) 2 t := by
  have hend : lv4idxEnd = 274 := by decide
  have hbound : i < lv4idxEnd + (NUM_TABLE_ENTRIES - lv4idxEnd) := by
    simp only [NUM_TABLE_ENTRIES]
    omega
  obtain ⟨f, -, -, ⟨hpres, haddr⟩, hentries⟩ := h.copied i (by omega) hbound hp
  refine ⟨_, .child (Reconstructible.tableAt hi' hp) hj hpj (by simpa using hlj), ?_⟩
  -- The copy has the entry of the old level-3 table, which refers to the same level-2 table.
  have h3 : TableAt m'.mem 4 (f4 * PAGE_SIZE) 3 (f * PAGE_SIZE) := by
    rw [← haddr]
    exact .child .root hi' hpres (leaf_four _)
  rw [← hentries j hj] at hpj hlj ⊢
  exact .child h3 hj hpj (by simpa using hlj)

/-- The new hierarchy shares a table with the old one as soon as the old kernel region has a
level-2 table. -/
theorem not_deepCopy_of_lv2Table (hlaw : ops.Lawful false Live) (hm : Reconstructible Live L m)
    (hrun : reconstruct ops m = .ok m') (hapart : Apart m m') (hno : ¬ NoLv2Tables m) :
    ¬ DeepCopy m m' := by
  obtain ⟨-, -, -, f4, -, hroot, hbuilt⟩ := reconstruct_built hlaw hm hrun
  intro hdeep
  apply hno
  intro i hi hi' hp j hj hpj
  by_contra hlj
  obtain ⟨t, hold, hnew⟩ := (hbuilt hapart).shares hi hi' hp hj hpj (Bool.eq_false_iff.mpr hlj)
  rw [← hroot] at hnew
  exact (hdeep 2 t hnew).2 2 hold

/-- `reconstruct` makes a deep copy of the kernel part of the hierarchy exactly when that part
has no level-2 table. -/
theorem reconstruct_deepCopy_iff (hlaw : ops.Lawful false Live) (hm : Reconstructible Live L m)
    (hrun : reconstruct ops m = .ok m') (hapart : Apart m m') :
    DeepCopy m m' ↔ NoLv2Tables m := by
  constructor
  · intro hdeep
    by_contra hno
    exact not_deepCopy_of_lv2Table hlaw hm hrun hapart hno hdeep
  · obtain ⟨-, -, -, f4, hf4, hroot, hbuilt⟩ := reconstruct_built hlaw hm hrun
    intro hno l t ht
    rw [hroot] at ht
    -- Both kinds of tables of the new hierarchy are in frames obtained.
    have hframe : ∃ f ∈ m'.tables, t = f * PAGE_SIZE := by
      rcases (hbuilt hapart).tables_of_noLv2Tables hno ht with ⟨-, rfl⟩ | ⟨-, f, hf, rfl, -⟩
      · exact ⟨f4, hf4, rfl⟩
      · exact ⟨f, hf, rfl⟩
    obtain ⟨f, hf, rfl⟩ := hframe
    have hin : f * PAGE_SIZE / PAGE_SIZE ∈ m'.tables := by
      rw [Nat.mul_div_cancel _ (by decide)]
      exact hf
    exact ⟨hin, fun l' hold => hapart l' _ hold hin⟩

/-- The kernel region of `uefiMachine` has a level-2 table. -/
theorem uefiMachine_lv2Table : ¬ NoLv2Tables uefiMachine := by
  intro hno
  have h511 : entryAt uefiMachine.mem uefiMachine.root 511 = 0x2003#64 :=
    entryAt_uefiMachine 1 511
  have h510 : entryAt uefiMachine.mem (entryAddr 0x2003#64) 510 = 0x3003#64 :=
    entryAt_uefiMachine 2 510
  have hlarge := hno 511 (by decide) (by decide) (by rw [h511]; decide) 510 (by decide)
  rw [h511, h510] at hlarge
  exact absurd (hlarge (by decide)) (by decide)

theorem reconstruct_deepCopy_iff_uefiMachine :
    ∃ m', reconstruct (bumpOps false) uefiMachine = .ok m' ∧
      (DeepCopy uefiMachine m' ↔ NoLv2Tables uefiMachine) := by
  obtain ⟨m', hrun, hapart⟩ := uefiMachine_runs
  exact ⟨m', hrun, reconstruct_deepCopy_iff (bumpOps_lawful false) uefiMachine_reconstructible
    hrun hapart⟩

/-- The hierarchy `reconstruct` builds for `uefiMachine` is not a deep copy: it shares the
level-2 table in frame 3. -/
theorem not_deepCopy_uefiMachine :
    ∃ m', Reconstructible BumpLive [⟨1, 3⟩] uefiMachine ∧ Apart uefiMachine m' ∧
      reconstruct (bumpOps false) uefiMachine = .ok m' ∧ ¬ DeepCopy uefiMachine m' := by
  obtain ⟨m', hrun, hapart⟩ := uefiMachine_runs
  exact ⟨m', uefiMachine_reconstructible, hapart, hrun,
    not_deepCopy_of_lv2Table (bumpOps_lawful false) uefiMachine_reconstructible hrun hapart
      uefiMachine_lv2Table⟩

end YmirC
