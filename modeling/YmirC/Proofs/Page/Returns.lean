import YmirC.Arch.X86.Page
import YmirC.Proofs.PageTable

/-!
# `YmirC.Proofs.Page.Returns`: how many frames `reconstruct` needs

`reconstruct` panics when the page allocator has no frame left. It obtains at most
`RECONSTRUCT_FRAMES` frames, so it returns when the allocator has that many
(`reconstruct_returns`), whatever the hierarchy CR3 refers to.
-/

set_option autoImplicit false

namespace YmirC

variable {σ : Type} {ops : PageAllocatorOps σ} {Stock : σ → Nat → Prop}

/-- The clone function takes at most `c` frames. -/
def TakesAtMost (Stock : σ → Nat → Prop) (c : Nat)
    (clone : Nat → Machine σ → Run (Nat × Machine σ)) : Prop :=
  ∀ tbl m n, Stock m.pa (c + n) → ∃ ptr m', clone tbl m = .ok (ptr, m') ∧ Stock m'.pa n

theorem cloneLv1Table_takes (h : ops.Stocked Stock) :
    TakesAtMost Stock 1 (cloneLv1Table ops) := by
  intro tbl m n hn
  obtain ⟨ptr, m', hrun, hm'⟩ := allocateTable_returns h hn
  exact ⟨ptr, m'.memcpy ptr tbl SIZEOF_PAGE_TABLE, Run.bind_eq_ok.mpr ⟨_, hrun, rfl⟩, hm'⟩

/-- A clone takes a frame for itself and what its 512 entries take. -/
theorem cloneTable_takes (h : ops.Stocked Stock) {c : Nat}
    {cloneChild : Nat → Machine σ → Run (Nat × Machine σ)}
    (hchild : TakesAtMost Stock c cloneChild) :
    TakesAtMost Stock (1 + 512 * c) (cloneTable ops cloneChild) := by
  intro tbl m n hn
  rw [Nat.add_assoc] at hn
  obtain ⟨ptr, m1, hrun, hm1⟩ := allocateTable_returns h hn
  have hentry : ∀ i b n, Stock b.pa (c + n) →
      ∃ b', cloneEntry cloneChild ptr i b = .ok b' ∧ Stock b'.pa n := by
    intro i b n hb
    simp only [cloneEntry]
    split
    · exact ⟨b, rfl, h.drop c hb⟩
    split
    · exact ⟨b, rfl, h.drop c hb⟩
    obtain ⟨p, b', hclone, hb'⟩ := hchild _ b n hb
    exact ⟨b', Run.bind_eq_ok.mpr ⟨_, hclone, rfl⟩, hb'⟩
  obtain ⟨m2, hloop, hm2⟩ := forRange_returns (m := m1.memcpy ptr tbl SIZEOF_PAGE_TABLE) hentry
    NUM_TABLE_ENTRIES n hm1
  exact ⟨ptr, m2, Run.bind_eq_ok.mpr ⟨_, hrun, Run.bind_eq_ok.mpr ⟨m2, hloop, rfl⟩⟩, hm2⟩

/-- The frames a level-3 clone takes at most. -/
def CLONE_LV3_FRAMES : Nat := 1 + 512 * (1 + 512 * 1)

/-- The frames `reconstruct` takes at most. -/
def RECONSTRUCT_FRAMES : Nat :=
  1 + ((lv4idxEnd - lv4idxStart) * 1 + (NUM_TABLE_ENTRIES - lv4idxEnd) * CLONE_LV3_FRAMES)

theorem mapDirect_returns (h : ops.Stocked Stock) (lv4tbl : Nat) :
    ∀ i m n, Stock m.pa (1 + n) → ∃ m', mapDirect ops lv4tbl i m = .ok m' ∧ Stock m'.pa n := by
  intro i m n hn
  obtain ⟨ptr, m1, hrun, hm1⟩ := allocateTable_returns h hn
  have hpage : ∀ j b k, Stock b.pa (0 + k) →
      ∃ b', mapDirectPage ptr i j b = .ok b' ∧ Stock b'.pa k := by
    intro j b k hb
    exact ⟨_, rfl, by rwa [Nat.zero_add] at hb⟩
  obtain ⟨m2, hloop, hm2⟩ := forRange_returns (m := m1) hpage NUM_TABLE_ENTRIES n
    (by rwa [Nat.mul_zero, Nat.zero_add])
  exact ⟨_, Run.bind_eq_ok.mpr ⟨_, hrun, Run.bind_eq_ok.mpr ⟨m2, hloop, rfl⟩⟩, hm2⟩

theorem cloneLv4Entry_returns (h : ops.Stocked Stock) (lv4tbl oldLv4tbl : Nat) :
    ∀ i m n, Stock m.pa (CLONE_LV3_FRAMES + n) →
      ∃ m', cloneLv4Entry ops lv4tbl oldLv4tbl i m = .ok m' ∧ Stock m'.pa n := by
  intro i m n hn
  simp only [cloneLv4Entry]
  split
  · obtain ⟨ptr, m1, hclone, hm1⟩ :=
      cloneTable_takes h (cloneTable_takes h (cloneLv1Table_takes h)) _ m n hn
    exact ⟨_, Run.bind_eq_ok.mpr ⟨_, hclone, rfl⟩, hm1⟩
  · exact ⟨m, rfl, h.drop _ hn⟩

/-- `reconstruct` returns when the allocator has `RECONSTRUCT_FRAMES` frames. -/
theorem reconstruct_returns (h : ops.Stocked Stock) {m : Machine σ}
    (hn : Stock m.pa RECONSTRUCT_FRAMES) : ∃ m', reconstruct ops m = .ok m' := by
  obtain ⟨ptr, m1, hrun, hm1⟩ := allocateTable_returns h hn
  obtain ⟨m2, hdirect, hm2⟩ := forRange_returns (m := m1) (mapDirect_returns h ptr) _ _ hm1
  rw [← Nat.add_zero ((NUM_TABLE_ENTRIES - lv4idxEnd) * CLONE_LV3_FRAMES)] at hm2
  obtain ⟨m3, hclone, -⟩ := forRange_returns (m := m2)
    (fun i => cloneLv4Entry_returns h ptr (phys2virt m2.mappingReconstructed m2.cr3)
      (lv4idxEnd + i)) _ 0 hm2
  exact ⟨_, Run.bind_eq_ok.mpr ⟨_, hrun, Run.bind_eq_ok.mpr ⟨m2, hdirect,
    Run.bind_eq_ok.mpr ⟨m3, hclone, rfl⟩⟩⟩⟩

end YmirC
