import YmirC.Lib.Extent
import YmirC.PageAllocatorIf
import YmirC.Proofs.Mem

/-!
# `YmirC.Proofs.PageAllocatorIf`: what a page allocator is for

The contract between a page allocator and its clients, in terms of the blocks of frames that
are live. `Lawful r ops Live` reads `Live s L` as "in state `s` the blocks `L` are live", and
says that every call returns: an allocation gives a block of frames disjoint from all live
ones, or `NULL` and nothing changes, and a live block can be given back.

The page tables and the nested page tables are proved over this contract and not over the
bitmap. `paOps_lawful` proves it of the bitmap allocator.

A client that only knows pointers sees less of it. `Supplies ops Held` is the contract in
terms of the blocks of bytes a client holds, each at the address and with the size it was
obtained with, and `Lawful.supplies` derives it. The bin allocator is proved over this one.
-/

set_option autoImplicit false

namespace YmirC

/-- The number of frames `n` bytes take. -/
def framesFor (n : Nat) : Nat := (n + PAGE_SIZE - 1) / PAGE_SIZE

/-- The frames of the direct map. -/
def DIRECT_MAP_FRAMES : Nat := DIRECT_MAP_SIZE / PAGE_SIZE

namespace PageAllocatorOps

variable {σ : Type}

/-- The answer to a request of `k` frames when the blocks `L` are live: `NULL`, with the same
blocks live, or a block of `k` frames of the direct map that is disjoint from them. -/
def Answer (reconstructed : Bool) (Live : σ → List Extent → Prop) (L : List Extent)
    (k : Nat) (ptr : Nat) (s' : σ) : Prop :=
  (ptr = 0 ∧ Live s' L) ∨
  (ptr ≠ 0 ∧ ∃ f, 1 ≤ f ∧ f + k ≤ DIRECT_MAP_FRAMES ∧
    ptr = phys2virt reconstructed (f * PAGE_SIZE) ∧
    (∀ b ∈ L, b.Disjoint ⟨f, k⟩) ∧ Live s' (⟨f, k⟩ :: L))

/-- The contract of a page allocator in the translation mode `reconstructed`. -/
structure Lawful (reconstructed : Bool) (ops : PageAllocatorOps σ)
    (Live : σ → List Extent → Prop) : Prop where
  alloc : ∀ {s L n}, Live s L → 1 ≤ n → n ≤ 2 ^ 64 - PAGE_SIZE →
    ∃ ptr s', ops.alloc n s = .ok (ptr, s') ∧ Answer reconstructed Live L (framesFor n) ptr s'
  allocAlignedPages : ∀ {s L k a}, Live s L → 1 ≤ k → 0 < a → a < 2 ^ 64 → a % PAGE_SIZE = 0 →
    ∃ ptr s', ops.allocAlignedPages k a s = .ok (ptr, s') ∧
      Answer reconstructed Live L k ptr s' ∧ (ptr ≠ 0 → virt2phys reconstructed ptr % a = 0)
  free : ∀ {s L f n}, Live s (⟨f, framesFor n⟩ :: L) → 1 ≤ n → n ≤ 2 ^ 64 - PAGE_SIZE →
    ∃ s', ops.free (phys2virt reconstructed (f * PAGE_SIZE)) n s = .ok s' ∧ Live s' L
  perm : ∀ {s L L'}, Live s L → L.Perm L' → Live s L'

/-- The contract of a page allocator in terms of the blocks of bytes its client holds. -/
structure Supplies (ops : PageAllocatorOps σ) (Held : σ → List Extent → Prop) : Prop where
  alloc : ∀ {s B n}, Held s B → 1 ≤ n → n ≤ 2 ^ 64 - PAGE_SIZE →
    ∃ ptr s', ops.alloc n s = .ok (ptr, s') ∧
      ((ptr = 0 ∧ Held s' B) ∨
       (ptr ≠ 0 ∧ ptr % PAGE_SIZE = 0 ∧ ptr + n ≤ 2 ^ 64 ∧ (∀ b ∈ B, b.Disjoint ⟨ptr, n⟩) ∧
        Held s' (⟨ptr, n⟩ :: B)))
  free : ∀ {s B ptr n}, Held s (⟨ptr, n⟩ :: B) → ∃ s', ops.free ptr n s = .ok s' ∧ Held s' B
  perm : ∀ {s B B'}, Held s B → B.Perm B' → Held s B'

/-- The frames of a block of bytes. -/
def blockFrames (reconstructed : Bool) (b : Extent) : Extent :=
  ⟨virt2phys reconstructed b.start / PAGE_SIZE, framesFor b.len⟩

/-- The client holds the blocks of bytes `B`: their frames are live, and each block starts at
the address of its first frame and has a valid size. -/
structure Held (reconstructed : Bool) (Live : σ → List Extent → Prop) (s : σ)
    (B : List Extent) : Prop where
  live : Live s (B.map (blockFrames reconstructed))
  blocks : ∀ b ∈ B, 1 ≤ b.len ∧ b.len ≤ 2 ^ 64 - PAGE_SIZE ∧
    (blockFrames reconstructed b).start + (blockFrames reconstructed b).len ≤ DIRECT_MAP_FRAMES ∧
    b.start = phys2virt reconstructed ((blockFrames reconstructed b).start * PAGE_SIZE)

variable {reconstructed : Bool} {ops : PageAllocatorOps σ} {Live : σ → List Extent → Prop}

theorem framesFor_pos {n : Nat} (hn : 1 ≤ n) : 0 < framesFor n := by
  simp only [framesFor, PAGE_SIZE]
  omega

theorem framesFor_pages (k : Nat) : framesFor (k * PAGE_SIZE) = k := by
  simp only [framesFor, PAGE_SIZE]
  omega

theorem frame_lt_direct {f : Nat} (hf : f < DIRECT_MAP_FRAMES) :
    f * PAGE_SIZE < DIRECT_MAP_SIZE := by
  simp only [DIRECT_MAP_FRAMES, DIRECT_MAP_SIZE, PAGE_SIZE] at *
  omega

/-- The frames of a block at the address of a frame of the direct map. -/
theorem blockFrames_phys2virt {f : Nat} (n : Nat) (hf : f < DIRECT_MAP_FRAMES) :
    blockFrames reconstructed ⟨phys2virt reconstructed (f * PAGE_SIZE), n⟩
      = ⟨f, framesFor n⟩ := by
  simp only [blockFrames, virt2phys_phys2virt reconstructed (frame_lt_direct hf)]
  rw [Nat.mul_div_cancel f (by decide)]

/-- A byte of a block of bytes is in one of its frames, at the same distance from the start of
the direct map in every block. -/
theorem mem_blockFrames {s : σ} {B : List Extent} (h : Held reconstructed Live s B)
    {b : Extent} (hb : b ∈ B) {x : Nat} (hx : x ∈ b) :
    phys2virt reconstructed 0 ≤ x ∧
      (x - phys2virt reconstructed 0) / PAGE_SIZE ∈ blockFrames reconstructed b := by
  obtain ⟨hpos, -, hend, hstart⟩ := h.blocks b hb
  generalize hg : blockFrames reconstructed b = g at *
  have hlen : g.len = framesFor b.len := by rw [← hg]; rfl
  have hgpos := framesFor_pos hpos
  have hdirect : g.start * PAGE_SIZE < DIRECT_MAP_SIZE := frame_lt_direct (by omega)
  -- Both modes of `phys2virt` shift by a constant.
  have hbase : phys2virt reconstructed (g.start * PAGE_SIZE)
      = g.start * PAGE_SIZE + phys2virt reconstructed 0 := by
    cases reconstructed with
    | false => simp only [phys2virt_false]; omega
    | true => rw [phys2virt_true hdirect, phys2virt_true (by decide)]; omega
  rw [hbase] at hstart
  rw [Extent.mem_def] at hx ⊢
  rw [hlen]
  generalize phys2virt reconstructed 0 = base at *
  simp only [framesFor, PAGE_SIZE] at *
  omega

/-- A block just answered to a request of `n` bytes is held. -/
theorem held_of_answer {s s' : σ} {B : List Extent} (h : Held reconstructed Live s B)
    {n ptr : Nat} (hn : 1 ≤ n) (hmax : n ≤ 2 ^ 64 - PAGE_SIZE)
    (hans : Answer reconstructed Live (B.map (blockFrames reconstructed)) (framesFor n) ptr s') :
    (ptr = 0 ∧ Held reconstructed Live s' B) ∨
    (ptr ≠ 0 ∧ ptr % PAGE_SIZE = 0 ∧ ptr + n ≤ 2 ^ 64 ∧ (∀ b ∈ B, b.Disjoint ⟨ptr, n⟩) ∧
      Held reconstructed Live s' (⟨ptr, n⟩ :: B)) := by
  rcases hans with ⟨hnull, hlive⟩ | ⟨hne, f, -, hle, hptr, hdisj, hlive⟩
  · exact .inl ⟨hnull, hlive, h.blocks⟩
  have hpos := framesFor_pos hn
  have hdirect : f * PAGE_SIZE < DIRECT_MAP_SIZE := frame_lt_direct (by omega)
  -- The block in bytes is the block in frames the allocator answered.
  have hframes : blockFrames reconstructed ⟨ptr, n⟩ = ⟨f, framesFor n⟩ := by
    rw [hptr]
    exact blockFrames_phys2virt n (by omega)
  have hheld : Held reconstructed Live s' (⟨ptr, n⟩ :: B) := by
    refine ⟨by rw [List.map_cons, hframes]; exact hlive, fun b hb => ?_⟩
    rcases List.mem_cons.mp hb with rfl | hb
    · rw [hframes]
      exact ⟨hn, hmax, hle, hptr⟩
    · exact h.blocks b hb
  refine .inr ⟨hne, ?_, ?_, ?_, hheld⟩
  · rw [hptr]
    exact phys2virt_mod_page reconstructed hdirect (Nat.mul_mod_left f PAGE_SIZE)
  · -- The direct map ends below 2^64, so the last byte has an address.
    have hsize : n ≤ framesFor n * PAGE_SIZE := by
      simp only [framesFor, PAGE_SIZE]
      omega
    have hbound : (f + framesFor n) * PAGE_SIZE ≤ DIRECT_MAP_SIZE := by
      simp only [DIRECT_MAP_FRAMES, DIRECT_MAP_SIZE, PAGE_SIZE] at *
      omega
    rw [Nat.add_mul] at hbound
    have hvirt : phys2virt reconstructed (f * PAGE_SIZE) ≤ f * PAGE_SIZE + DIRECT_MAP_BASE := by
      cases reconstructed with
      | false => rw [phys2virt_false]; omega
      | true => exact Nat.le_of_eq (phys2virt_true hdirect)
    have htop : DIRECT_MAP_BASE + DIRECT_MAP_SIZE ≤ 2 ^ 64 := by decide
    omega
  · intro b hb x hxb hx
    -- A common byte would be in a common frame.
    have h1 := (mem_blockFrames hheld (List.mem_cons_of_mem _ hb) hxb).2
    have h2 := (mem_blockFrames hheld List.mem_cons_self hx).2
    rw [hframes] at h2
    exact hdisj _ (List.mem_map_of_mem hb) _ h1 h2

theorem Answer.frame {L K : List Extent} {k ptr : Nat} {s' : σ}
    (h : Answer reconstructed Live (L ++ K) k ptr s') :
    Answer reconstructed (fun s L => Live s (L ++ K)) L k ptr s' := by
  rcases h with ⟨hnull, hlive⟩ | ⟨hne, f, hf, hdirect, hptr, hdisj, hlive⟩
  · exact .inl ⟨hnull, hlive⟩
  · exact .inr ⟨hne, f, hf, hdirect, hptr, fun b hb => hdisj b (List.mem_append_left K hb), hlive⟩

/-- The contract in frames gives the contract in bytes. -/
theorem Lawful.supplies (hlaw : Lawful reconstructed ops Live) :
    Supplies ops (Held reconstructed Live) where
  alloc := by
    intro s B n h hn hmax
    obtain ⟨ptr, s', hrun, hans⟩ := hlaw.alloc h.live hn hmax
    exact ⟨ptr, s', hrun, held_of_answer h hn hmax hans⟩
  free := by
    intro s B ptr n h
    obtain ⟨hn, hmax, -, hptr⟩ := h.blocks _ List.mem_cons_self
    obtain ⟨s', hrun, hlive⟩ := hlaw.free h.live hn hmax
    refine ⟨s', ?_, hlive, fun b hb => h.blocks b (List.mem_cons_of_mem _ hb)⟩
    rw [← hrun]
    exact congrArg (fun p => ops.free p n s) hptr
  perm := by
    intro s B B' h hp
    exact ⟨hlaw.perm h.live (hp.map _), fun b hb => h.blocks b (hp.mem_iff.mpr hb)⟩

/-- Blocks that no call releases can be left out of sight. -/
theorem Lawful.frame (hlaw : Lawful reconstructed ops Live) (K : List Extent) :
    Lawful reconstructed ops (fun s L => Live s (L ++ K)) where
  alloc := by
    intro s L n h hn hmax
    obtain ⟨ptr, s', hrun, hans⟩ := hlaw.alloc h hn hmax
    exact ⟨ptr, s', hrun, hans.frame⟩
  allocAlignedPages := by
    intro s L k a h hk hpos hsize hal
    obtain ⟨ptr, s', hrun, hans, haligned⟩ := hlaw.allocAlignedPages h hk hpos hsize hal
    exact ⟨ptr, s', hrun, hans.frame, haligned⟩
  free := by
    intro s L f n h hn hmax
    exact hlaw.free h hn hmax
  perm := by
    intro s L L' h hp
    exact hlaw.perm h (hp.append_right K)

/-- Blocks obtained one after the other are pairwise disjoint. -/
theorem Lawful.pairwise (hlaw : Lawful reconstructed ops Live) :
    Lawful reconstructed ops (fun s L => Live s L ∧ L.Pairwise Extent.Disjoint) := by
  -- The new block is disjoint from each of those there were.
  have hanswer : ∀ {L : List Extent} {k ptr : Nat} {s' : σ},
      Answer reconstructed Live L k ptr s' → L.Pairwise Extent.Disjoint →
      Answer reconstructed (fun s L => Live s L ∧ L.Pairwise Extent.Disjoint) L k ptr s' := by
    intro L k ptr s' hans hpair
    rcases hans with ⟨hnull, hlive⟩ | ⟨hne, f, hf, hdirect, hptr, hdisj, hlive⟩
    · exact .inl ⟨hnull, hlive, hpair⟩
    · exact .inr ⟨hne, f, hf, hdirect, hptr, hdisj, hlive,
        List.pairwise_cons.mpr ⟨fun b hb => (hdisj b hb).symm, hpair⟩⟩
  constructor
  · intro s L n h hn hmax
    obtain ⟨ptr, s', hrun, hans⟩ := hlaw.alloc h.1 hn hmax
    exact ⟨ptr, s', hrun, hanswer hans h.2⟩
  · intro s L k a h hk hpos hsize hal
    obtain ⟨ptr, s', hrun, hans, haligned⟩ := hlaw.allocAlignedPages h.1 hk hpos hsize hal
    exact ⟨ptr, s', hrun, hanswer hans h.2, haligned⟩
  · intro s L f n h hn hmax
    obtain ⟨s', hrun, hlive⟩ := hlaw.free h.1 hn hmax
    exact ⟨s', hrun, hlive, (List.pairwise_cons.mp h.2).2⟩
  · intro s L L' h hp
    exact ⟨hlaw.perm h.1 hp, h.2.perm hp Extent.Disjoint.symm⟩

end PageAllocatorOps

/-! ### Frames in stock -/

section Stock
variable {σ : Type} {ops : PageAllocatorOps σ} {Stock : σ → Nat → Prop}

/-- `Stock s n` says that in state `s` the allocator has `n` single frames to give. -/
structure PageAllocatorOps.Stocked (ops : PageAllocatorOps σ) (Stock : σ → Nat → Prop) :
    Prop where
  take : ∀ {s n}, Stock s (n + 1) → ∃ ptr s',
    ops.allocAlignedPages 1 PAGE_SIZE s = .ok (ptr, s') ∧ ptr ≠ 0 ∧ Stock s' n
  less : ∀ {s n}, Stock s (n + 1) → Stock s n

theorem PageAllocatorOps.Stocked.drop (h : ops.Stocked Stock) {s : σ} {n : Nat} :
    ∀ k, Stock s (k + n) → Stock s n := by
  intro k
  induction k with
  | zero => simp
  | succ k ih =>
      intro hk
      rw [Nat.add_right_comm] at hk
      exact ih (h.less hk)

end Stock

/-! ### The smallest allocator with the contract -/

/-- The next `k` frames from the first multiple of `align` at or after frame `next`. -/
def bumpTake (reconstructed : Bool) (k align next : Nat) : Nat × Nat :=
  let f := (next + (align - 1)) / align * align
  if f + k ≤ DIRECT_MAP_FRAMES then (phys2virt reconstructed (f * PAGE_SIZE), f + k) else (0, next)

/-- An allocator that gives out frames in order and takes none back: what the bitmap allocator
does as long as every frame from `next` on is unused. -/
def bumpOps (reconstructed : Bool) : PageAllocatorOps Nat where
  alloc n next := .ok (bumpTake reconstructed (framesFor n) 1 next)
  free _ _ next := .ok next
  allocAlignedPages numPages alignSize next :=
    .ok (bumpTake reconstructed numPages (alignSize / PAGE_SIZE) next)

/-- The live blocks of the allocator end at `next`. -/
def BumpLive (next : Nat) (L : List Extent) : Prop :=
  1 ≤ next ∧ ∀ b ∈ L, b.start + b.len ≤ next

/-- The first multiple of `align` at or after `next`. -/
theorem bump_aligned {align : Nat} (halign : 0 < align) (next : Nat) :
    next ≤ (next + (align - 1)) / align * align := by
  have hdiv := Nat.div_add_mod (next + (align - 1)) align
  have hmod := Nat.mod_lt (next + (align - 1)) halign
  rw [Nat.mul_comm] at hdiv
  omega

theorem bumpTake_answer (reconstructed : Bool) {k align next : Nat} {L : List Extent}
    (halign : 0 < align) (hk : 1 ≤ k) (h : BumpLive next L) :
    PageAllocatorOps.Answer reconstructed BumpLive L k (bumpTake reconstructed k align next).1
      (bumpTake reconstructed k align next).2 := by
  have hle := bump_aligned halign next
  unfold bumpTake
  generalize (next + (align - 1)) / align * align = f at hle
  have hf : 1 ≤ f := Nat.le_trans h.1 hle
  by_cases hfit : f + k ≤ DIRECT_MAP_FRAMES
  · simp only [if_pos hfit]
    refine .inr ⟨?_, f, hf, hfit, rfl, ?_, by omega, ?_⟩
    · apply phys2virt_ne_zero reconstructed (PageAllocatorOps.frame_lt_direct (by omega))
      simp only [PAGE_SIZE]
      omega
    · -- Live blocks end at `next`, where the new one starts or later.
      intro b hb x hxb hx
      have hend := h.2 b hb
      rw [Extent.mem_def] at hxb
      rw [Extent.mem_mk] at hx
      omega
    · intro b hb
      rcases List.mem_cons.mp hb with rfl | hb
      · exact Nat.le_refl _
      · exact Nat.le_trans (h.2 b hb) (by omega)
  · simp only [if_neg hfit]
    exact .inl ⟨rfl, h⟩

theorem bumpOps_lawful (reconstructed : Bool) :
    (bumpOps reconstructed).Lawful reconstructed BumpLive where
  alloc h hn _ := ⟨_, _, rfl, bumpTake_answer reconstructed (by decide)
    (PageAllocatorOps.framesFor_pos hn) h⟩
  allocAlignedPages := by
    intro next L k a h hk hpos _ hal
    have halign : 0 < a / PAGE_SIZE := Nat.div_pos (Nat.le_of_dvd hpos
      (Nat.dvd_of_mod_eq_zero hal)) (by decide)
    refine ⟨(bumpTake reconstructed k (a / PAGE_SIZE) next).1, _, rfl,
      bumpTake_answer reconstructed halign hk h, ?_⟩
    simp only [bumpTake]
    split
    · rename_i hfit
      intro _
      rw [virt2phys_phys2virt reconstructed (PageAllocatorOps.frame_lt_direct (by omega))]
      exact frame_mul_mod hal (Nat.mul_mod_left _ _)
    · intro hne
      exact absurd rfl hne
  free h _ _ := ⟨_, rfl, h.1, fun b hb => h.2 b (List.mem_cons_of_mem _ hb)⟩
  perm h hp := ⟨h.1, fun b hb => h.2 b (hp.mem_iff.mpr hb)⟩

/-- The frames the bump allocator has to give. -/
theorem bumpOps_stocked (reconstructed : Bool) : (bumpOps reconstructed).Stocked
    (fun next n => 1 ≤ next ∧ next + n ≤ DIRECT_MAP_FRAMES) where
  take := by
    intro next n h
    have hfit : next + 1 ≤ DIRECT_MAP_FRAMES := by omega
    have hpage : PAGE_SIZE / PAGE_SIZE = 1 := by decide
    refine ⟨phys2virt reconstructed (next * PAGE_SIZE), next + 1, ?_, ?_, by omega⟩
    · simp only [bumpOps, bumpTake, hpage, Nat.sub_self, Nat.add_zero, Nat.div_one, Nat.mul_one,
        if_pos hfit]
    · apply phys2virt_ne_zero reconstructed (PageAllocatorOps.frame_lt_direct (by omega))
      simp only [PAGE_SIZE]
      omega
  less := by
    intro next n h
    omega

end YmirC
