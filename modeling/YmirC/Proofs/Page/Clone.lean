import YmirC.Arch.X86.Page
import YmirC.Proofs.PageTable

/-!
# `YmirC.Proofs.Page.Clone`: the clone functions of `page.c`

`Clones` is what a clone function does whatever its level: it obtains new frames, writes only
these, and returns one of them with the entries of the table it was given. The entries are
those of the source, not of the children cloned on the way: `cloneEntry` patches a local copy.
-/

set_option autoImplicit false

namespace YmirC

open ByteMemory Paging

variable {σ : Type} {r : Bool} {ops : PageAllocatorOps σ} {Live : σ → List Extent → Prop}
  {L : List Extent}

/-- From `m` to `m'` a copy of the table at `tbl` was made in the new frame behind `ptr`. The
entries are the same when the table is in none of the frames obtained. -/
structure Copied (r : Bool) (Live : σ → List Extent → Prop) (L : List Extent) (tbl : Nat)
    (m : Machine σ) (ptr : Nat) (m' : Machine σ) : Prop where
  sound : Sound r Live L m'
  grows : m.Grows [] m'
  copy : ∃ f, ptr = phys2virt r (f * PAGE_SIZE) ∧ f ∈ m'.tables ∧ f ∉ m.tables ∧
    ∀ s, m.phys tbl = s * PAGE_SIZE → s ∉ m'.tables → ∀ i < 512,
      entryAt m'.mem (f * PAGE_SIZE) i = entryAt m.mem (s * PAGE_SIZE) i

/-- The clone function copies the table it is given. -/
def Clones (r : Bool) (Live : σ → List Extent → Prop) (L : List Extent)
    (clone : Nat → Machine σ → Run (Nat × Machine σ)) : Prop :=
  ∀ {tbl m ptr m'}, Sound r Live L m → clone tbl m = .ok (ptr, m') →
    Copied r Live L tbl m ptr m'

/-- Copying a whole table into a frame writes only that frame. -/
theorem grows_memcpy (m : Machine σ) {dest f : Nat} (hf : m.phys dest = f * PAGE_SIZE)
    (src : Nat) : m.Grows [f] (m.memcpy dest src SIZEOF_PAGE_TABLE) := by
  refine ⟨⟨[], rfl, fun a _ ha => ?_⟩, rfl, rfl, rfl⟩
  rw [List.mem_singleton] at ha
  show copyBytes m.mem (m.phys dest) (m.phys src) SIZEOF_PAGE_TABLE a = m.mem a
  rw [hf]
  apply copyBytes_apply_of_not_mem
  simp only [PAGE_SIZE, SIZEOF_PAGE_TABLE, NUM_TABLE_ENTRIES] at *
  omega

/-- The entries of a table copied from another frame. -/
theorem entryAt_memcpy (m : Machine σ) {dest src f s : Nat} (hf : m.phys dest = f * PAGE_SIZE)
    (hsrc : m.phys src = s * PAGE_SIZE) (hne : f ≠ s) {i : Nat} (hi : i < 512) :
    entryAt (m.memcpy dest src SIZEOF_PAGE_TABLE).mem (f * PAGE_SIZE) i
      = entryAt m.mem (s * PAGE_SIZE) i := by
  show load64 (copyBytes m.mem (m.phys dest) (m.phys src) SIZEOF_PAGE_TABLE) _ = _
  rw [hf, hsrc]
  apply load64_copyBytes
  · simp only [PAGE_SIZE, SIZEOF_PAGE_TABLE, NUM_TABLE_ENTRIES] at *
    omega
  · simp only [SIZEOF_PAGE_TABLE, NUM_TABLE_ENTRIES]
    omega

/-- `allocate_table` followed by the `memcpy` that every clone function starts with. -/
theorem copied_memcpy (hlaw : ops.Lawful r Live) (tbl : Nat) {m m' : Machine σ} {ptr : Nat}
    (hs : Sound r Live L m) (hrun : allocateTable ops m = .ok (ptr, m')) :
    Copied r Live L tbl m ptr (m'.memcpy ptr tbl SIZEOF_PAGE_TABLE) := by
  obtain ⟨hs', hg, f, hptr, htables, -⟩ := allocateTable_spec hlaw hs hrun
  have hmem : f ∈ m'.tables := htables ▸ List.mem_cons_self
  have hnew : f ∉ m.tables := (List.nodup_cons.mp (htables ▸ hs'.nodup)).1
  have hphys : m'.phys ptr = f * PAGE_SIZE := hptr ▸ hs'.phys_phys2virt hmem
  refine ⟨hs'.write _ _ _, hg.trans (grows_memcpy m' hphys tbl) ?_, f, hptr, hmem, hnew, ?_⟩
  · intro g hg
    rw [List.mem_singleton] at hg
    exact .inr ⟨hg ▸ hmem, hg ▸ hnew⟩
  · -- The source is not the new frame, and `allocate_table` did not write it.
    intro s hsrc hnot i hi
    have hsrc' : m'.phys tbl = s * PAGE_SIZE := by
      rw [← hsrc, Machine.phys, hg.mode]
      rfl
    have hne : f ≠ s := fun heq => hnot (heq ▸ hmem)
    rw [entryAt_memcpy m' hphys hsrc' hne hi]
    exact hg.entryAt_of_not_mem hnot List.not_mem_nil hi

/-- `clone_lv1_table` copies a table. -/
theorem cloneLv1Table_clones (hlaw : ops.Lawful r Live) :
    Clones r Live L (cloneLv1Table ops) := by
  intro tbl m ptr m' hs hrun
  obtain ⟨⟨p, m1⟩, halloc, hrest⟩ := Run.bind_eq_ok.mp hrun
  obtain ⟨rfl, rfl⟩ := Prod.mk.inj (Except.ok.inj hrest)
  exact copied_memcpy hlaw tbl hs halloc

/-- One round of the clone loop clones at most one table below. -/
theorem cloneEntry_spec {cloneChild : Nat → Machine σ → Run (Nat × Machine σ)}
    (hchild : Clones r Live L cloneChild) {newTbl i : Nat} {m m' : Machine σ}
    (hs : Sound r Live L m) (hrun : cloneEntry cloneChild newTbl i m = .ok m') :
    Sound r Live L m' ∧ m.Grows [] m' := by
  simp only [cloneEntry] at hrun
  -- An entry that is not present, or a page, is left alone.
  split at hrun
  · cases hrun
    exact ⟨hs, .refl [] m⟩
  split at hrun
  · cases hrun
    exact ⟨hs, .refl [] m⟩
  obtain ⟨⟨c, m1⟩, hclone, hrest⟩ := Run.bind_eq_ok.mp hrun
  cases hrest
  exact ⟨(hchild hs hclone).sound, (hchild hs hclone).grows⟩

/-- `clone_lv2_table` and `clone_lv3_table` copy a table when the clone function below does. -/
theorem cloneTable_clones (hlaw : ops.Lawful r Live)
    {cloneChild : Nat → Machine σ → Run (Nat × Machine σ)}
    (hchild : Clones r Live L cloneChild) : Clones r Live L (cloneTable ops cloneChild) := by
  intro tbl m ptr m' hs hrun
  obtain ⟨⟨p, m1⟩, halloc, hrest⟩ := Run.bind_eq_ok.mp hrun
  obtain ⟨m2, hloop, hret⟩ := Run.bind_eq_ok.mp hrest
  obtain ⟨rfl, rfl⟩ := Prod.mk.inj (Except.ok.inj hret)
  have hcopy := copied_memcpy hlaw tbl hs halloc
  -- The loop only obtains further frames: the new table keeps the entries just copied.
  obtain ⟨hs2, hg2⟩ := Run.forRange_invariant
    (fun _ b => Sound r Live L b ∧ (m1.memcpy p tbl SIZEOF_PAGE_TABLE).Grows [] b)
    ⟨hcopy.sound, .refl [] _⟩ NUM_TABLE_ENTRIES
    (fun i _ b b' hb hbody => by
      obtain ⟨hsb, hgb⟩ := cloneEntry_spec hchild hb.1 hbody
      exact ⟨hsb, hb.2.trans hgb (by simp)⟩) hloop
  obtain ⟨f, hptr, hmem, hnew, hentries⟩ := hcopy.copy
  refine ⟨hs2, hcopy.grows.trans hg2 (by simp), f, hptr, hg2.subset f hmem, hnew, ?_⟩
  intro s hsrc hnot i hi
  rw [hg2.entryAt_of_mem hs2.nodup hmem List.not_mem_nil hi]
  exact hentries s hsrc (fun hin => hnot (hg2.subset s hin)) i hi

/-- `clone_lv3_table` copies a table. -/
theorem cloneLv3Table_clones (hlaw : ops.Lawful r Live) :
    Clones r Live L (cloneLv3Table ops) :=
  cloneTable_clones hlaw (cloneTable_clones hlaw (cloneLv1Table_clones hlaw))

end YmirC
