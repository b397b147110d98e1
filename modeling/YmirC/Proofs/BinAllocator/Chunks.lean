import Mathlib.Data.List.Perm.Basic
import Mathlib.Data.List.Nodup
import Mathlib.Data.List.Pairwise
import YmirC.BinAllocator
import YmirC.Lib.Extent
import YmirC.Lib.IntrusiveList
import YmirC.Proofs.Mem

/-!
# `YmirC.Proofs.BinAllocator.Chunks`: pages, chunks and free lists

A page of bin `i` is cut into `PAGE_SIZE / bin_sizes[i]` chunks. This module has the
geometry (the chunks of disjoint pages are disjoint, `chunk_disjoint`) and the effect of
`push`, `pop` and the loop of `init_bin_page` on the free lists in memory.
-/

set_option autoImplicit false

namespace YmirC

open ByteMemory IntrusiveList

/-! ### Sizes -/

theorem binSizes_ge (i : BinIndex) : 32 ≤ binSizes i := by
  revert i
  decide

theorem binSizes_dvd (i : BinIndex) : PAGE_SIZE / binSizes i * binSizes i = PAGE_SIZE := by
  revert i
  decide

/-- `bin_index` answers the first bin that is large enough. -/
theorem binIndex_le {n : Nat} {i : BinIndex} (h : binIndex n = some i) : n ≤ binSizes i := by
  have := List.find?_some h
  simpa using this

theorem binIndex_none {n : Nat} (h : binIndex n = none) : 0x800 < n := by
  have hlast := List.find?_eq_none.mp h 6 (List.mem_finRange 6)
  have hsize : binSizes 6 = 0x800 := rfl
  rw [hsize] at hlast
  simpa using hlast

/-! ### Geometry -/

/-- The chunks of a page of bin `i`, in ascending order. -/
def chunks (i : BinIndex) (page : Nat) : List Nat :=
  (List.range (PAGE_SIZE / binSizes i)).map fun k => page + k * binSizes i

/-- The bytes of a chunk of bin `i`. -/
def chunkBytes (i : BinIndex) (c : Nat) : Extent := ⟨c, binSizes i⟩

/-- The bytes of a page. -/
def pageBytes (page : Nat) : Extent := ⟨page, PAGE_SIZE⟩

theorem mem_chunks {i : BinIndex} {page c : Nat} :
    c ∈ chunks i page ↔ ∃ k < PAGE_SIZE / binSizes i, c = page + k * binSizes i := by
  simp only [chunks, List.mem_map, List.mem_range]
  constructor
  · intro ⟨k, hk, hc⟩
    exact ⟨k, hk, hc.symm⟩
  · intro ⟨k, hk, hc⟩
    exact ⟨k, hk, hc.symm⟩

theorem chunks_length (i : BinIndex) (page : Nat) :
    (chunks i page).length = PAGE_SIZE / binSizes i := by
  simp [chunks]

/-- The first chunk of a page is at its start. -/
theorem chunks_eq_cons (i : BinIndex) (page : Nat) : ∃ l, chunks i page = page :: l := by
  have hne : PAGE_SIZE / binSizes i ≠ 0 := by
    revert i
    decide
  obtain ⟨k, hk⟩ := Nat.exists_eq_succ_of_ne_zero hne
  simp only [chunks, hk, Nat.succ_eq_add_one, List.range_succ_eq_map, List.map_cons,
    Nat.zero_mul, Nat.add_zero]
  exact ⟨_, rfl⟩

/-- A chunk lies inside its page, aligned to its size. -/
theorem chunk_in_page {i : BinIndex} {page c : Nat} (hc : c ∈ chunks i page)
    (hal : page % PAGE_SIZE = 0) :
    page ≤ c ∧ c + binSizes i ≤ page + PAGE_SIZE ∧ c % PAGE_SIZE % binSizes i = 0 := by
  obtain ⟨k, hk, rfl⟩ := mem_chunks.mp hc
  have hpos : 0 < binSizes i := Nat.lt_of_lt_of_le (by decide) (binSizes_ge i)
  have hfit : (k + 1) * binSizes i ≤ PAGE_SIZE := by
    calc (k + 1) * binSizes i ≤ PAGE_SIZE / binSizes i * binSizes i :=
          Nat.mul_le_mul_right _ hk
      _ = PAGE_SIZE := binSizes_dvd i
  rw [Nat.add_mul, Nat.one_mul] at hfit
  refine ⟨Nat.le_add_right _ _, by omega, ?_⟩
  have hmod : (page + k * binSizes i) % PAGE_SIZE = k * binSizes i := by
    rw [Nat.add_mod, hal, Nat.zero_add, Nat.mod_mod, Nat.mod_eq_of_lt (by omega)]
  rw [hmod]
  exact Nat.mul_mod_left _ _

/-- Two chunks of one page are the same or disjoint. -/
theorem chunk_disjoint_same {i : BinIndex} {page c d : Nat} (hc : c ∈ chunks i page)
    (hd : d ∈ chunks i page) (hne : c ≠ d) : (chunkBytes i c).Disjoint (chunkBytes i d) := by
  obtain ⟨k, -, rfl⟩ := mem_chunks.mp hc
  obtain ⟨l, -, rfl⟩ := mem_chunks.mp hd
  intro x hxc hxd
  simp only [chunkBytes, Extent.mem_mk] at hxc hxd
  rcases Nat.lt_trichotomy k l with hlt | heq | hgt
  · have := Nat.mul_le_mul_right (binSizes i) (Nat.succ_le_of_lt hlt)
    rw [Nat.succ_mul] at this
    omega
  · exact hne (by rw [heq])
  · have := Nat.mul_le_mul_right (binSizes i) (Nat.succ_le_of_lt hgt)
    rw [Nat.succ_mul] at this
    omega

theorem chunks_nodup (i : BinIndex) (page : Nat) : (chunks i page).Nodup := by
  have hpos : 0 < binSizes i := Nat.lt_of_lt_of_le (by decide) (binSizes_ge i)
  refine List.Nodup.map (fun a b h => ?_) List.nodup_range
  exact Nat.eq_of_mul_eq_mul_right hpos (Nat.add_left_cancel h)

/-- The bytes of a chunk are bytes of its page. -/
theorem mem_pageBytes {i : BinIndex} {page c x : Nat} (hc : c ∈ chunks i page)
    (hal : page % PAGE_SIZE = 0) (hx : x ∈ chunkBytes i c) : x ∈ pageBytes page := by
  obtain ⟨h1, h2, -⟩ := chunk_in_page hc hal
  simp only [chunkBytes, pageBytes, Extent.mem_mk] at *
  omega

/-- Chunks of disjoint pages are disjoint. -/
theorem chunk_disjoint_pages {i j : BinIndex} {page page' c d : Nat} (hc : c ∈ chunks i page)
    (hd : d ∈ chunks j page') (hal : page % PAGE_SIZE = 0) (hal' : page' % PAGE_SIZE = 0)
    (hdisj : (pageBytes page).Disjoint (pageBytes page')) :
    (chunkBytes i c).Disjoint (chunkBytes j d) := fun x hxc hxd =>
  hdisj x (mem_pageBytes hc hal hxc) (mem_pageBytes hd hal' hxd)

/-! ### The free-list operations -/

namespace BinAllocator

variable {σ : Type} (ba : BinAllocator σ)

/-- Both branches of `push` store the old head, which is `NULL` in the second one. -/
theorem push_eq (node : Nat) (i : BinIndex) :
    ba.push node i = (ba.setNext node (ba.listHeads i)).setHead i node := by
  unfold push
  split
  · rfl
  · rename_i h0
    rw [Classical.not_not.mp h0]

@[simp] theorem push_pa (node : Nat) (i : BinIndex) : (ba.push node i).pa = ba.pa := by
  rw [push_eq]
  rfl

@[simp] theorem push_pages (node : Nat) (i : BinIndex) : (ba.push node i).pages = ba.pages := by
  rw [push_eq]
  rfl

theorem push_listHeads (node : Nat) (i j : BinIndex) :
    (ba.push node i).listHeads j = if j = i then node else ba.listHeads j := by
  rw [push_eq]
  rfl

/-- `push` writes the link word of the node and nothing else. -/
theorem push_mem (node : Nat) (i : BinIndex) :
    (ba.push node i).mem = store64 ba.mem node (BitVec.ofNat 64 (ba.listHeads i)) := by
  rw [push_eq]
  rfl

theorem push_mem_apply (node : Nat) (i : BinIndex) {a : Nat} (h : a < node ∨ node + 8 ≤ a) :
    (ba.push node i).mem a = ba.mem a := by
  rw [push_mem, store64_apply_of_disjoint _ _ _ _ h]

/-- The loop of `init_bin_page`: the first `k` chunks of the page end up in front of the free
list, nothing outside their bytes is written, and no other list changes. -/
theorem pushChunks_spec (page : Nat) (i : BinIndex) (h0 : page ≠ 0)
    (hend : page + PAGE_SIZE ≤ 2 ^ 64) :
    ∀ (k : Nat) (ba : BinAllocator σ) (l : List Nat), k ≤ PAGE_SIZE / binSizes i →
      Chain ba.mem (ba.listHeads i) l →
      (∀ d ∈ l, d + 8 ≤ page ∨ page + k * binSizes i ≤ d) →
      Chain (pushChunks page i k ba).mem ((pushChunks page i k ba).listHeads i)
          ((List.range k).map (fun j => page + j * binSizes i) ++ l) ∧
        (∀ a, a < page ∨ page + k * binSizes i ≤ a → (pushChunks page i k ba).mem a = ba.mem a) ∧
        (∀ j, j ≠ i → (pushChunks page i k ba).listHeads j = ba.listHeads j) ∧
        (pushChunks page i k ba).pa = ba.pa ∧ (pushChunks page i k ba).pages = ba.pages := by
  -- The loop runs from the last chunk to the first, so the induction generalises the list it
  -- pushes on.
  intro k
  induction k with
  | zero =>
      intro ba l _ hl _
      exact ⟨hl, fun _ _ => rfl, fun _ _ => rfl, rfl, rfl⟩
  | succ k ih =>
      intro ba l hk hl hsep
      have hsize := binSizes_ge i
      have hfit : (k + 1) * binSizes i ≤ PAGE_SIZE :=
        Nat.le_trans (Nat.mul_le_mul_right _ hk) (Nat.le_of_eq (binSizes_dvd i))
      rw [Nat.add_mul, Nat.one_mul] at hfit hsep
      have hu : u64 (page + k * binSizes i) = page + k * binSizes i := u64_of_lt (by omega)
      -- The chunk pushed in this round is the highest of those still to come.
      have hpush : Chain (ba.push (page + k * binSizes i) i).mem
          ((ba.push (page + k * binSizes i) i).listHeads i) ((page + k * binSizes i) :: l) := by
        rw [push_mem, push_listHeads, if_pos rfl]
        refine hl.push (by omega) (by omega) fun d hd => ?_
        have := hsep d hd
        omega
      have hrest := ih (ba.push (page + k * binSizes i) i) ((page + k * binSizes i) :: l)
        (by omega) hpush (by
          intro d hd
          rcases List.mem_cons.mp hd with rfl | hd
          · exact .inr (Nat.le_refl _)
          · have := hsep d hd
            omega)
      obtain ⟨hchain, hmem, hheads, hpa, hpages⟩ := hrest
      simp only [pushChunks, hu]
      refine ⟨?_, fun a ha => ?_, fun j hj => ?_, ?_, ?_⟩
      · rw [List.range_succ, List.map_append, List.append_assoc]
        exact hchain
      · rw [Nat.add_mul, Nat.one_mul] at ha
        -- The link word of the chunk is inside the chunk.
        rw [hmem a (by omega), push_mem_apply ba _ i (by omega)]
      · rw [hheads j hj, push_listHeads, if_neg hj]
      · rw [hpa, push_pa]
      · rw [hpages, push_pages]

end BinAllocator

end YmirC
