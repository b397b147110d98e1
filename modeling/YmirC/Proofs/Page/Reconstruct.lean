import YmirC.Proofs.Page.Clone

/-!
# `YmirC.Proofs.Page.Reconstruct`: the hierarchy `reconstruct` builds

`Built m m' f4 k` is the invariant of the loop over the level-4 entries: the entries below the
direct map are absent, the direct map has its level-3 table, and the first `k` entries of the
kernel region refer to clones of the old level-3 tables. The old tables keep their bytes
throughout, since every write goes to a frame the call obtained.
-/

set_option autoImplicit false

namespace YmirC

open ByteMemory Paging

variable {σ : Type} {r : Bool} {ops : PageAllocatorOps σ} {Live : σ → List Extent → Prop}
  {L : List Extent}

/-- The entry refers to the table in frame `f`. -/
def RefersTo (e : BitVec 64) (f : Nat) : Prop := present e = true ∧ entryAddr e = f * PAGE_SIZE

/-- The level-3 entry maps the 1GiB page at `phys`. -/
def MapsGiB (e : BitVec 64) (phys : Nat) : Prop :=
  present e = true ∧ large e = true ∧ entryAddr e = phys

/-- The entry written for a frame of the direct map refers to it. -/
theorem refersTo_initializeTableReferenceEntry (m : Machine σ) (e : BitVec 64) {ptr f : Nat}
    (hptr : m.phys ptr = f * PAGE_SIZE) (hf : f < DIRECT_MAP_FRAMES) :
    RefersTo (initializeTableReferenceEntry m e ptr) f := by
  have hlt : f * PAGE_SIZE < 2 ^ 52 :=
    Nat.lt_trans (PageAllocatorOps.frame_lt_direct hf) (by decide)
  rw [initializeTableReferenceEntry, hptr]
  exact ⟨present_initializeEntry .., entryAddr_initializeEntry _ _ _ (Nat.mul_mod_left _ _) hlt⟩

/-- The entry written for a page of 1GiB maps it. -/
theorem mapsGiB_initializePageReferenceEntry (e : BitVec 64) {phys : Nat}
    (hal : phys % PAGE_SIZE = 0) (hlt : phys < 2 ^ 52) :
    MapsGiB (initializePageReferenceEntry e phys) phys :=
  ⟨present_initializeEntry .., large_initializeEntry .., entryAddr_initializeEntry _ _ _ hal hlt⟩

/-! ### The direct map -/

/-- The inner loop fills the level-3 table of the direct map in frame `f`. -/
theorem mapDirectPages_spec {m m' : Machine σ} (hs : Sound r Live L m) {f i : Nat}
    (hf : f ∈ m.tables) (hi : i < 512)
    (hrun : Run.forRange (mapDirectPage (phys2virt r (f * PAGE_SIZE)) i) NUM_TABLE_ENTRIES m
      = .ok m') :
    Sound r Live L m' ∧ m.Grows [f] m' ∧
      ∀ j < 512, MapsGiB (entryAt m'.mem (f * PAGE_SIZE) j) (i * 2 ^ 39 + j * 2 ^ 30) := by
  apply Run.forRange_invariant
    (fun n b => Sound r Live L b ∧ m.Grows [f] b ∧
      ∀ j < n, MapsGiB (entryAt b.mem (f * PAGE_SIZE) j) (i * 2 ^ 39 + j * 2 ^ 30))
    ⟨hs, .refl _ m, fun j hj => absurd hj (Nat.not_lt_zero j)⟩ NUM_TABLE_ENTRIES _ hrun
  -- A round writes entry `n` and leaves the entries before it alone.
  intro n hn b b' hb hbody
  obtain ⟨hsb, hgb, hdone⟩ := hb
  cases hbody
  have hn : n < 512 := hn
  have hphys := hsb.phys_phys2virt (hgb.subset f hf)
  refine ⟨hsb.write _ _ _, hgb.trans (b.grows_setEntry hphys hn _) (fun g hg => .inl hg), ?_⟩
  intro j hj
  rw [b.entryAt_setEntry hphys]
  split
  · rename_i heq
    have haddr : u64 (i * 2 ^ lv4Shift + n * 2 ^ lv3Shift) = i * 2 ^ 39 + j * 2 ^ 30 := by
      rw [heq, u64_of_lt (by simp only [lv4Shift, lv3Shift]; omega)]
      rfl
    rw [haddr]
    apply mapsGiB_initializePageReferenceEntry
    · simp only [PAGE_SIZE]
      omega
    · omega
  · exact hdone j (by omega)

/-- One round of the direct map: entry `lv4idx_start + i` of the level-4 table in frame `f4`
refers to a new table of 1GiB pages. -/
theorem mapDirect_spec (hlaw : ops.Lawful r Live) {m m' : Machine σ} (hs : Sound r Live L m)
    {f4 i : Nat} (hf4 : f4 ∈ m.tables) (hi : lv4idxStart + i < 512)
    (hrun : mapDirect ops (phys2virt r (f4 * PAGE_SIZE)) i m = .ok m') :
    Sound r Live L m' ∧ m.Grows [f4] m' ∧
      (∃ f ∈ m'.tables, f ≠ f4 ∧ RefersTo (entryAt m'.mem (f4 * PAGE_SIZE) (lv4idxStart + i)) f ∧
        ∀ j < 512, MapsGiB (entryAt m'.mem (f * PAGE_SIZE) j) (i * 2 ^ 39 + j * 2 ^ 30)) ∧
      ∀ j < 512, j ≠ lv4idxStart + i →
        entryAt m'.mem (f4 * PAGE_SIZE) j = entryAt m.mem (f4 * PAGE_SIZE) j := by
  obtain ⟨⟨ptr, m1⟩, halloc, hrest⟩ := Run.bind_eq_ok.mp hrun
  obtain ⟨m2, hloop, hret⟩ := Run.bind_eq_ok.mp hrest
  cases hret
  obtain ⟨hs1, hg1, f, rfl, htables, -⟩ := allocateTable_spec hlaw hs halloc
  have hnew : f ∉ m.tables := (List.nodup_cons.mp (htables ▸ hs1.nodup)).1
  have hf1 : f ∈ m1.tables := htables ▸ List.mem_cons_self
  have hne : f ≠ f4 := fun heq => hnew (heq ▸ hf4)
  obtain ⟨hs2, hg2, hpages⟩ := mapDirectPages_spec hs1 hf1 (by omega) hloop
  -- The new table is filled before the level-4 entry refers to it.
  have hg12 : m.Grows [f4] m2 := by
    refine Machine.Grows.trans ?_ hg2 ?_
    · exact (Machine.Grows.refl [f4] m).trans hg1 (by simp)
    · intro g hg
      rw [List.mem_singleton] at hg
      exact .inr ⟨hg ▸ hf1, hg ▸ hnew⟩
  have hphys4 := hs2.phys_phys2virt (hg12.subset f4 hf4)
  have hphys := hs2.phys_phys2virt (hg2.subset f hf1)
  refine ⟨hs2.write _ _ _, hg12.trans (m2.grows_setEntry hphys4 hi _) (fun g hg => .inl hg),
    ⟨f, hg2.subset f hf1, hne, ?_, ?_⟩, ?_⟩
  · rw [m2.entryAt_setEntry hphys4, if_pos rfl]
    exact refersTo_initializeTableReferenceEntry m2 _ hphys (hs2.direct f (hg2.subset f hf1))
  · intro j hj
    rw [(m2.grows_setEntry hphys4 hi _).entryAt_of_mem hs2.nodup (hg2.subset f hf1)
      (by simpa using hne) hj]
    exact hpages j hj
  · intro j hj hji
    -- The other level-4 entries: neither the allocation nor the loop writes the level-4 table.
    rw [m2.entryAt_setEntry hphys4, if_neg hji,
      hg2.entryAt_of_mem hs2.nodup (hg1.subset f4 hf4) (by simpa using hne.symm) hj]
    exact hg1.entryAt_of_mem hs1.nodup hf4 List.not_mem_nil hj

/-! ### The kernel region -/

/-- The level-4 entry `e'` refers to a table in one of the frames `tables` whose entries are
those of the table the old level-4 entry `e` refers to. -/
def RefersToCopy (mem mem' : Mem) (tables : List Nat) (f4 : Nat) (e e' : BitVec 64) : Prop :=
  ∃ f ∈ tables, f ≠ f4 ∧ RefersTo e' f ∧
    ∀ j < 512, entryAt mem' (f * PAGE_SIZE) j = entryAt mem (entryAddr e) j

/-- One round over the kernel region. When the old entry is present, the new one refers to a
copy of its table, and otherwise it is left as it was. -/
theorem cloneLv4Entry_spec (hlaw : ops.Lawful r Live) {m m' : Machine σ}
    (hs : Sound r Live L m) {f4 old i : Nat} (hf4 : f4 ∈ m.tables) (hi : i < 512)
    (hrun : cloneLv4Entry ops (phys2virt r (f4 * PAGE_SIZE)) old i m = .ok m') :
    Sound r Live L m' ∧ m.Grows [f4] m' ∧
      (∀ j < 512, j ≠ i → entryAt m'.mem (f4 * PAGE_SIZE) j = entryAt m.mem (f4 * PAGE_SIZE) j) ∧
      (present (m.entry old i) = false →
        entryAt m'.mem (f4 * PAGE_SIZE) i = entryAt m.mem (f4 * PAGE_SIZE) i) ∧
      (present (m.entry old i) = true → ReservedClear (m.entry old i) →
        m.phys (phys2virt m.mappingReconstructed (entryAddr (m.entry old i)))
          = entryAddr (m.entry old i) →
        entryAddr (m.entry old i) / PAGE_SIZE ∉ m'.tables →
        RefersToCopy m.mem m'.mem m'.tables f4 (m.entry old i)
          (entryAt m'.mem (f4 * PAGE_SIZE) i)) := by
  simp only [cloneLv4Entry, isset_eq, ENTRY_PRESENT] at hrun
  split at hrun
  case isFalse hp =>
    -- An entry that is not present is passed over.
    cases hrun
    exact ⟨hs, .refl _ m, fun j _ _ => rfl, fun _ => rfl, fun h => absurd h hp⟩
  case isTrue hp =>
    obtain ⟨⟨ptr, m1⟩, hclone, hret⟩ := Run.bind_eq_ok.mp hrun
    cases hret
    obtain ⟨hs1, hg1, f, rfl, hf1, hnew, hcopy⟩ := cloneLv3Table_clones hlaw hs hclone
    have hne : f ≠ f4 := fun heq => hnew (heq ▸ hf4)
    have hphys4 := hs1.phys_phys2virt (hg1.subset f4 hf4)
    have hset := fun v => m1.grows_setEntry hphys4 hi v
    refine ⟨hs1.write _ _ _, ?_, ?_, fun h => ?_, ?_⟩
    · exact ((Machine.Grows.refl [f4] m).trans hg1 (by simp)).trans (hset _) (fun g hg => .inl hg)
    · intro j hj hji
      rw [m1.entryAt_setEntry hphys4, if_neg hji]
      exact hg1.entryAt_of_mem hs1.nodup hf4 List.not_mem_nil hj
    · rw [present, hp] at h
      cases h
    · -- The copy has the old entries when the old table is in none of the frames obtained.
      intro _ hres hphys hnot
      refine ⟨f, hf1, hne, ?_, fun j hj => ?_⟩
      · rw [m1.entryAt_setEntry hphys4, if_pos rfl]
        exact refersTo_initializeTableReferenceEntry m1 _ (hs1.phys_phys2virt hf1)
          (hs1.direct f hf1)
      · rw [(hset _).entryAt_of_mem hs1.nodup hf1 (by simpa using hne) hj]
        have haddr := entryAddr_frame (m.entry old i)
        rw [← haddr]
        apply hcopy _ _ hnot j hj
        rw [haddr, physOf_eq hres]
        exact hphys

/-! ### The whole hierarchy -/

/-- What `reconstruct` is called with: the identity map of UEFI is in use, the blocks `L` are
live, no table is obtained yet, and the hierarchy CR3 refers to keeps the reserved address bits
of its entries clear. -/
structure Reconstructible (Live : σ → List Extent → Prop) (L : List Extent)
    (m : Machine σ) : Prop where
  mode : m.mappingReconstructed = false
  live : Live m.pa L
  tables : m.tables = []
  cr3 : m.cr3 % PAGE_SIZE = 0
  reserved : ∀ l t, TableAt m.mem 4 m.root l t → ∀ i < 512, ReservedClear (entryAt m.mem t i)

/-- No table of the hierarchy of `m` is in a frame that `m'` obtained. -/
def Apart (m m' : Machine σ) : Prop :=
  ∀ l t, TableAt m.mem 4 m.root l t → t / PAGE_SIZE ∉ m'.tables

/-- The new hierarchy in the level-4 table of frame `f4`, after `k` rounds over the kernel
region of the hierarchy of `m`. -/
structure Built (m m' : Machine σ) (f4 k : Nat) : Prop where
  low : ∀ i < lv4idxStart, entryAt m'.mem (f4 * PAGE_SIZE) i = 0#64
  direct : ∃ f ∈ m'.tables, f ≠ f4 ∧ RefersTo (entryAt m'.mem (f4 * PAGE_SIZE) lv4idxStart) f ∧
    ∀ j < 512, MapsGiB (entryAt m'.mem (f * PAGE_SIZE) j) (j * 2 ^ 30)
  absent : ∀ i, lv4idxEnd ≤ i → i < lv4idxEnd + k → present (entryAt m.mem m.root i) = false →
    present (entryAt m'.mem (f4 * PAGE_SIZE) i) = false
  copied : ∀ i, lv4idxEnd ≤ i → i < lv4idxEnd + k → present (entryAt m.mem m.root i) = true →
    RefersToCopy m.mem m'.mem m'.tables f4 (entryAt m.mem m.root i)
      (entryAt m'.mem (f4 * PAGE_SIZE) i)
  rest : ∀ i, lv4idxEnd + k ≤ i → i < 512 → entryAt m'.mem (f4 * PAGE_SIZE) i = 0#64

theorem Reconstructible.root_eq {m : Machine σ} (h : Reconstructible Live L m) :
    m.root = m.cr3 :=
  Nat.div_mul_cancel (Nat.dvd_of_mod_eq_zero h.cr3)

/-- The tables of the old hierarchy that a level-4 entry refers to. -/
theorem Reconstructible.tableAt {m : Machine σ} {i : Nat} (hi : i < 512)
    (hp : present (entryAt m.mem m.root i) = true) :
    TableAt m.mem 4 m.root 3 (entryAddr (entryAt m.mem m.root i)) :=
  .child .root hi hp (by simp [leaf])

/-- A table other than the level-4 table that refers to a copy goes on doing so. -/
theorem RefersToCopy.mono {mem : Mem} {b b' : Machine σ} {f4 : Nat} {e e' e'' : BitVec 64}
    (h : RefersToCopy mem b.mem b.tables f4 e e') (hg : b.Grows [f4] b')
    (hnodup : b'.tables.Nodup) (heq : e'' = e') :
    RefersToCopy mem b'.mem b'.tables f4 e e'' := by
  obtain ⟨f, hf, hne, hrefers, hentries⟩ := h
  refine ⟨f, hg.subset f hf, hne, heq ▸ hrefers, fun j hj => ?_⟩
  rw [hg.entryAt_of_mem hnodup hf (by simpa using hne) hj]
  exact hentries j hj

/-- The direct map over a cleared level-4 table. -/
theorem Built.start {m b b' : Machine σ} {f4 : Nat} (hlaw : ops.Lawful false Live)
    (hs : Sound false Live L b) (hf4 : f4 ∈ b.tables)
    (hzero : ∀ i < 512, entryAt b.mem (f4 * PAGE_SIZE) i = 0#64)
    (hrun : mapDirect ops (phys2virt false (f4 * PAGE_SIZE)) 0 b = .ok b') :
    Built m b' f4 0 := by
  have hstart : lv4idxStart + 0 < 512 := by decide
  obtain ⟨-, -, hdirect, hrest⟩ := mapDirect_spec hlaw hs hf4 hstart hrun
  have hend : lv4idxEnd = lv4idxStart + 1 := by decide
  refine ⟨fun i hi => ?_, ?_, fun i h1 h2 => by omega, fun i h1 h2 => by omega, fun i h1 h2 => ?_⟩
  · rw [hrest i (by omega) (by omega)]
    exact hzero i (by omega)
  · simpa using hdirect
  · rw [hrest i h2 (by omega)]
    exact hzero i h2

/-- One more round over the kernel region. -/
theorem Built.step {m b b' : Machine σ} {f4 k : Nat} (hm : Reconstructible Live L m)
    (hlaw : ops.Lawful false Live) (hs : Sound false Live L b) (hg : m.Grows [] b)
    (hf4 : f4 ∈ b.tables) (hk : lv4idxEnd + k < 512) (h : Built m b f4 k)
    (hrun : cloneLv4Entry ops (phys2virt false (f4 * PAGE_SIZE)) (phys2virt false m.cr3)
      (lv4idxEnd + k) b = .ok b') (hapart : Apart m b') :
    Built m b' f4 (k + 1) := by
  obtain ⟨hs', hg', hother, hkeep, hcopy⟩ := cloneLv4Entry_spec hlaw hs hf4 hk hrun
  have hphys : ∀ a, b.phys (phys2virt false a) = a := by
    intro a
    rw [Machine.phys, hs.mode, phys2virt_false]
    simp [virt2phys]
  -- The old level-4 table is in no frame obtained so far, so its entries are the old ones.
  have hroot : m.root / PAGE_SIZE ∉ b.tables := fun hin =>
    hapart _ _ .root (hg'.subset _ hin)
  have hold : b.entry (phys2virt false m.cr3) (lv4idxEnd + k)
      = entryAt m.mem m.root (lv4idxEnd + k) := by
    have haddr : m.root / PAGE_SIZE * PAGE_SIZE = m.root := by
      rw [Machine.root, Nat.mul_div_cancel _ (by decide)]
    rw [b.entry_eq, hphys, ← hm.root_eq, ← haddr]
    exact hg.entryAt_of_not_mem hroot List.not_mem_nil hk
  rw [hold] at hkeep hcopy
  have hend : lv4idxStart < lv4idxEnd := by decide
  refine ⟨fun i hi => ?_, ?_, fun i h1 h2 hp => ?_, fun i h1 h2 hp => ?_, fun i h1 h2 => ?_⟩
  · rw [hother i (by omega) (by omega)]
    exact h.low i hi
  · obtain ⟨f, hf, hne, hrefers, hpages⟩ := h.direct
    refine ⟨f, hg'.subset f hf, hne, ?_, fun j hj => ?_⟩
    · rw [hother lv4idxStart (by omega) (by omega)]
      exact hrefers
    · rw [hg'.entryAt_of_mem hs'.nodup hf (by simpa using hne) hj]
      exact hpages j hj
  · -- The entry of this round was 0 and stays so.
    by_cases hi : i = lv4idxEnd + k
    · subst hi
      rw [hkeep hp, h.rest _ (Nat.le_refl _) hk]
      rfl
    · rw [hother i (by omega) hi]
      exact h.absent i h1 (by omega) hp
  · -- The entry of this round refers to the copy just made, and the earlier ones to theirs.
    by_cases hi : i = lv4idxEnd + k
    · subst hi
      have htable := Reconstructible.tableAt hk hp
      obtain ⟨f, hf, hne, hrefers, hentries⟩ := hcopy hp (hm.reserved _ _ .root _ hk)
        (by rw [hs.mode]; exact hphys _) (hapart _ _ htable)
      refine ⟨f, hf, hne, hrefers, fun j hj => ?_⟩
      rw [hentries j hj, ← entryAddr_frame]
      exact hg.entryAt_of_not_mem (fun hin => hapart _ _ htable (hg'.subset _ hin))
        List.not_mem_nil hj
    · exact (h.copied i h1 (by omega) hp).mono hg' hs'.nodup (hother i (by omega) hi)
  · rw [hother i h2 (by omega)]
    exact h.rest i (by omega) h2

/-- The hierarchy after `reconstruct`, when the old tables are in none of the frames it
obtained. -/
theorem reconstruct_built {m m' : Machine σ} (hlaw : ops.Lawful false Live)
    (hm : Reconstructible Live L m) (hrun : reconstruct ops m = .ok m') :
    m'.mappingReconstructed = true ∧ (∀ f ∈ m'.tables, ∀ b ∈ L, f ∉ b) ∧
      (∀ a, a / PAGE_SIZE ∉ m'.tables → m'.mem a = m.mem a) ∧
      ∃ f4 ∈ m'.tables, m'.root = f4 * PAGE_SIZE ∧
        (Apart m m' → Built m m' f4 (NUM_TABLE_ENTRIES - lv4idxEnd)) := by
  have hs : Sound false Live L m := sound_of_live hm.mode hm.tables hm.live
  obtain ⟨⟨ptr, m1⟩, halloc, hrest⟩ := Run.bind_eq_ok.mp hrun
  obtain ⟨m2, hdirect, hrest⟩ := Run.bind_eq_ok.mp hrest
  obtain ⟨m3, hclone, hret⟩ := Run.bind_eq_ok.mp hrest
  cases hret
  obtain ⟨hs1, hg1, f4, rfl, htables, hzero⟩ := allocateTable_spec hlaw hs halloc
  have hf1 : f4 ∈ m1.tables := htables ▸ List.mem_cons_self
  have hnew : f4 ∉ m.tables := (List.nodup_cons.mp (htables ▸ hs1.nodup)).1
  have hinto : ∀ b : Machine σ, f4 ∈ b.tables →
      ∀ g ∈ [f4], g ∈ ([] : List Nat) ∨ (g ∈ b.tables ∧ g ∉ m.tables) := by
    intro b hb g hg
    rw [List.mem_singleton] at hg
    exact .inr ⟨hg ▸ hb, hg ▸ hnew⟩
  -- The direct map takes one level-4 entry.
  have hone : lv4idxEnd - lv4idxStart = 0 + 1 := by decide
  rw [hone, Run.forRange, Run.forRange, Run.bind_ok] at hdirect
  have hstart : lv4idxStart + 0 < 512 := by decide
  obtain ⟨hs2, hg2, -, -⟩ := mapDirect_spec hlaw hs1 hf1 hstart hdirect
  have hg02 := hg1.trans hg2 (hinto m1 hf1)
  have hcr3 : phys2virt m2.mappingReconstructed m2.cr3 = phys2virt false m.cr3 := by
    rw [hs2.mode, hg02.cr3]
  rw [hcr3] at hclone
  -- The rounds over the kernel region, by the invariant `Built`.
  obtain ⟨hs3, hg3, hf3, hbuilt⟩ := Run.forRange_invariant
    (fun k b => Sound false Live L b ∧ m.Grows [] b ∧ f4 ∈ b.tables ∧
      (Apart m b → Built m b f4 k))
    ⟨hs2, hg02, hg2.subset f4 hf1, fun _ => Built.start hlaw hs1 hf1 hzero hdirect⟩
    (NUM_TABLE_ENTRIES - lv4idxEnd)
    (fun k hk b b' hb hbody => by
      obtain ⟨hsb, hgb, hfb, hbuiltb⟩ := hb
      have hk' : lv4idxEnd + k < 512 := by
        simp only [NUM_TABLE_ENTRIES] at hk
        omega
      obtain ⟨hs', hg', -, -, -⟩ := cloneLv4Entry_spec hlaw hsb hfb hk' hbody
      refine ⟨hs', hgb.trans hg' (hinto b hfb), hg'.subset f4 hfb, fun hapart => ?_⟩
      have hbefore : Apart m b := fun l t ht hin => hapart l t ht (hg'.subset _ hin)
      exact (hbuiltb hbefore).step hm hlaw hsb hgb hfb hk' hbody hapart) hclone
  refine ⟨rfl, hs3.apart, ?_, f4, hf3, ?_, fun hapart => ?_⟩
  · -- What is left: the memory outside, the new root, and the hierarchy itself.
    obtain ⟨news, heq, hmem⟩ := hg3.tables
    intro a ha
    exact hmem a (fun hin => ha (heq ▸ List.mem_append_left _ hin)) List.not_mem_nil
  · show m3.phys _ / PAGE_SIZE * PAGE_SIZE = _
    rw [hs3.phys_phys2virt hf3, Nat.mul_div_cancel _ (by decide)]
  · have := hbuilt hapart
    exact ⟨this.low, this.direct, this.absent, this.copied, this.rest⟩

/-- When the old tables are in live blocks of the allocator, they are in none of the frames
obtained. -/
theorem apart_of_live {m m' : Machine σ} (hlaw : ops.Lawful false Live)
    (hm : Reconstructible Live L m) (hrun : reconstruct ops m = .ok m')
    (hlive : ∀ l t, TableAt m.mem 4 m.root l t → ∃ b ∈ L, t / PAGE_SIZE ∈ b) : Apart m m' := by
  obtain ⟨-, hapart, -⟩ := reconstruct_built hlaw hm hrun
  intro l t ht hin
  obtain ⟨b, hb, htb⟩ := hlive l t ht
  exact hapart _ hin b hb htb

end YmirC
