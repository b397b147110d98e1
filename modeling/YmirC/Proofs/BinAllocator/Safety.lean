import YmirC.Lib.Runs
import YmirC.Proofs.BinAllocator.Chunks
import YmirC.Proofs.PageAllocator.Safety

/-!
# `YmirC.Proofs.BinAllocator.Safety`: the bin allocator over whole runs

The state of a run is the allocator with its memory and the live blocks. A client may
allocate, release a live block with its size, and write any byte of a live block.

The invariant is one permutation per bin: the chunks on the free list together with the live
chunks of the bin are the chunks of the pages the bin got, each exactly once. From it and
the disjointness of the pages follow the counting law, that no chunk is twice on a list, and
that no client write reaches a link of a free list. `BinSys.Inv` states it,
`inv_newPage`, `inv_pop`, `inv_push`, `inv_write`, `inv_large` and `inv_freeLarge` are its
step lemmas, and `binAllocator_safe` is the result.
-/

set_option autoImplicit false

namespace YmirC

open ByteMemory IntrusiveList
open Runs (Reachable)

/-- The allocator with the live blocks, each the address and the size asked for. -/
structure BinSys (σ : Type) where
  ba : BinAllocator σ
  live : List Extent

/-- The number of bytes a block of size `n` has. -/
def capacity (n : Nat) : Nat :=
  match binIndex n with
  | some i => binSizes i
  | none => n

/-- The bytes of a live block. -/
def binBytes (b : Extent) : Extent := ⟨b.start, capacity b.len⟩

/-- The live chunks of bin `i`. -/
def liveOf (i : BinIndex) (live : List Extent) : List Nat :=
  (live.filter fun b => binIndex b.len = some i).map Extent.start

/-- The live blocks that are too large for a bin. -/
def largeOf (live : List Extent) : List Extent :=
  live.filter fun b => binIndex b.len = none

/-- The pages of bin `i`. -/
def pagesOf (i : BinIndex) (pages : List (BinIndex × Nat)) : List Nat :=
  (pages.filter fun p => p.1 = i).map Prod.snd

/-- A call of the allocator, or a client's write. -/
inductive BinCall where
  | alloc (n : Nat)
  | free (block : Extent)
  | write (addr : Nat) (value : BitVec 8)

namespace BinSys

variable {σ : Type}

/-- The calls in question: a size whose rounding does not wrap, the release of a live block
with its size, and a write inside a live block. -/
def Permitted (s : BinSys σ) : BinCall → Prop
  | .alloc n => n ≤ 2 ^ 64 - PAGE_SIZE
  | .free b => b ∈ s.live
  | .write a _ => ∃ b ∈ s.live, a ∈ binBytes b

/-- One call. `none` when it does not return. -/
def step (ops : PageAllocatorOps σ) (s : BinSys σ) : BinCall → Option (BinSys σ)
  | .alloc n => (s.ba.binAlloc ops n).toOption.map fun r =>
      { ba := r.2, live := if r.1 = 0 then s.live else ⟨r.1, n⟩ :: s.live }
  | .free b => (s.ba.binFree ops b.start b.len).toOption.map fun ba =>
      { ba := ba, live := s.live.erase b }
  | .write a v =>
      some { s with ba := { s.ba with mem := fun x => if x = a then v else s.ba.mem x } }

/-- Everything the allocator holds from the page allocator: the pages of the bins and the
large blocks. -/
def owned (s : BinSys σ) : List Extent :=
  s.ba.pages.map (fun p => pageBytes p.2) ++ largeOf s.live

/-- The invariant, with the free list of each bin. -/
structure Inv (Held : σ → List Extent → Prop) (s : BinSys σ) (free : BinIndex → List Nat) :
    Prop where
  chain : ∀ i, Chain s.ba.mem (s.ba.listHeads i) (free i)
  account : ∀ i, (free i ++ liveOf i s.live).Perm ((pagesOf i s.ba.pages).flatMap (chunks i))
  held : Held s.ba.pa s.owned
  disjoint : s.owned.Pairwise Extent.Disjoint
  pages : ∀ p ∈ s.ba.pages, p.2 ≠ 0 ∧ p.2 % PAGE_SIZE = 0 ∧ p.2 + PAGE_SIZE ≤ 2 ^ 64
  live : s.live.Pairwise fun b c => (binBytes b).Disjoint (binBytes c)

variable {Held : σ → List Extent → Prop} {s : BinSys σ} {free : BinIndex → List Nat}

/-! ### Chunks of the state -/

/-- `c` is a chunk of a page of bin `i`. -/
def IsChunk (s : BinSys σ) (i : BinIndex) (c : Nat) : Prop :=
  ∃ page, (i, page) ∈ s.ba.pages ∧ c ∈ chunks i page

theorem mem_pagesOf {i : BinIndex} {pages : List (BinIndex × Nat)} {page : Nat} :
    page ∈ pagesOf i pages ↔ (i, page) ∈ pages := by
  simp only [pagesOf, List.mem_map, List.mem_filter, decide_eq_true_eq]
  constructor
  · rintro ⟨⟨j, q⟩, ⟨hmem, rfl⟩, rfl⟩
    exact hmem
  · intro hmem
    exact ⟨(i, page), ⟨hmem, rfl⟩, rfl⟩

theorem mem_liveOf {i : BinIndex} {live : List Extent} {c : Nat} :
    c ∈ liveOf i live ↔ ∃ b ∈ live, binIndex b.len = some i ∧ b.start = c := by
  simp only [liveOf, List.mem_map, List.mem_filter, decide_eq_true_eq, and_assoc]

/-- The chunks on the free list and the live chunks of a bin are chunks of its pages. -/
theorem Inv.isChunk (h : Inv Held s free) {i : BinIndex} {c : Nat}
    (hc : c ∈ free i ++ liveOf i s.live) : s.IsChunk i c := by
  obtain ⟨page, hpage, hmem⟩ := List.mem_flatMap.mp ((h.account i).mem_iff.mp hc)
  exact ⟨page, mem_pagesOf.mp hpage, hmem⟩

theorem Inv.pages_pairwise (h : Inv Held s free) :
    s.ba.pages.Pairwise fun p q => (pageBytes p.2).Disjoint (pageBytes q.2) :=
  List.pairwise_map.mp (List.pairwise_append.mp h.disjoint).1

/-- Different chunks are disjoint, also in different bins. -/
theorem Inv.chunk_disjoint (h : Inv Held s free) {i j : BinIndex} {c d : Nat}
    (hc : s.IsChunk i c) (hd : s.IsChunk j d) (hne : (i, c) ≠ (j, d)) :
    (chunkBytes i c).Disjoint (chunkBytes j d) := by
  obtain ⟨page, hp, hcm⟩ := hc
  obtain ⟨page', hp', hdm⟩ := hd
  by_cases heq : (i, page) = (j, page')
  · cases heq
    exact chunk_disjoint_same hcm hdm fun hcd => hne (by rw [hcd])
  · have hsymm : Std.Symm fun p q : BinIndex × Nat =>
        (pageBytes p.2).Disjoint (pageBytes q.2) := ⟨fun _ _ hdis => hdis.symm⟩
    exact chunk_disjoint_pages hcm hdm (h.pages _ hp).2.1 (h.pages _ hp').2.1
      (h.pages_pairwise.forall hp hp' heq)

/-- A chunk is disjoint from every large block. -/
theorem Inv.chunk_disjoint_large (h : Inv Held s free) {i : BinIndex} {c : Nat}
    (hc : s.IsChunk i c) {b : Extent} (hb : b ∈ largeOf s.live) :
    (chunkBytes i c).Disjoint b := by
  obtain ⟨page, hp, hcm⟩ := hc
  intro x hx hxb
  exact (List.pairwise_append.mp h.disjoint).2.2 _
    (List.mem_map_of_mem (f := fun p : BinIndex × Nat => pageBytes p.2) hp) b hb x
    (mem_pageBytes hcm (h.pages _ hp).2.1 hx) hxb

/-- No chunk is twice on the free list, twice live, or both. -/
theorem Inv.nodup (h : Inv Held s free) (i : BinIndex) :
    (free i ++ liveOf i s.live).Nodup := by
  rw [(h.account i).nodup_iff, List.nodup_flatMap]
  refine ⟨fun page _ => chunks_nodup i page, ?_⟩
  -- Chunks of one page are distinct; those of two pages lie in disjoint bytes.
  refine List.pairwise_map.mpr ((h.pages_pairwise.filter _).imp_of_mem ?_)
  intro p q hp hq hdis c hcp hcq
  have halp := (h.pages p (List.mem_of_mem_filter hp)).2.1
  have halq := (h.pages q (List.mem_of_mem_filter hq)).2.1
  have hsize := binSizes_ge i
  -- The first byte of a common chunk would be in both pages.
  have hfirst : c ∈ chunkBytes i c := by
    simp only [chunkBytes, Extent.mem_mk]
    omega
  exact hdis c (mem_pageBytes hcp halp hfirst) (mem_pageBytes hcq halq hfirst)

/-- The bounds of a chunk. -/
theorem Inv.chunk_bounds (h : Inv Held s free) {i : BinIndex} {c : Nat} (hc : s.IsChunk i c) :
    c ≠ 0 ∧ c < 2 ^ 64 ∧ c % PAGE_SIZE % binSizes i = 0 := by
  obtain ⟨page, hp, hcm⟩ := hc
  obtain ⟨hne, hal, hend⟩ := h.pages _ hp
  obtain ⟨h1, h2, h3⟩ := chunk_in_page hcm hal
  have hsize := binSizes_ge i
  have hpage : PAGE_SIZE = 4096 := rfl
  exact ⟨by omega, by omega, h3⟩

theorem binBytes_some {b : Extent} {i : BinIndex} (hi : binIndex b.len = some i) :
    binBytes b = chunkBytes i b.start := by
  simp only [binBytes, capacity, hi, chunkBytes]

theorem binBytes_none {b : Extent} (hi : binIndex b.len = none) : binBytes b = b := by
  simp only [binBytes, capacity, hi]

/-- A free chunk is disjoint from every live block. -/
theorem Inv.free_disjoint_live (h : Inv Held s free) {i : BinIndex} {c : Nat} (hc : c ∈ free i)
    {b : Extent} (hb : b ∈ s.live) : (chunkBytes i c).Disjoint (binBytes b) := by
  have hchunk := h.isChunk (List.mem_append_left _ hc)
  cases hi : binIndex b.len with
  | some j =>
      rw [binBytes_some hi]
      have hlive : b.start ∈ liveOf j s.live := mem_liveOf.mpr ⟨b, hb, hi, rfl⟩
      refine h.chunk_disjoint hchunk (h.isChunk (List.mem_append_right _ hlive)) ?_
      -- The same chunk would be on the list and live.
      intro heq
      cases heq
      exact (List.nodup_append.mp (h.nodup i)).2.2 _ hc _ hlive rfl
  | none =>
      rw [binBytes_none hi]
      exact h.chunk_disjoint_large hchunk (List.mem_filter.mpr ⟨hb, by simp [hi]⟩)

/-- Free chunks of different places are disjoint. -/
theorem Inv.free_disjoint_free (h : Inv Held s free) {i j : BinIndex} {c d : Nat}
    (hc : c ∈ free i) (hd : d ∈ free j) (hne : (i, c) ≠ (j, d)) :
    (chunkBytes i c).Disjoint (chunkBytes j d) :=
  h.chunk_disjoint (h.isChunk (List.mem_append_left _ hc))
    (h.isChunk (List.mem_append_left _ hd)) hne

/-! ### The steps -/

/-- The free lists depend on the bytes of the free chunks only. -/
theorem chain_congr {m m' : Mem} {p : Nat} {i : BinIndex} {l : List Nat} (h : Chain m p l)
    (hsame : ∀ c ∈ l, ∀ x ∈ chunkBytes i c, m' x = m x) : Chain m' p l := by
  refine h.congr fun c hc k hk => hsame c hc (c + k) ?_
  have := binSizes_ge i
  simp only [chunkBytes, Extent.mem_mk]
  omega

/-- A client's write inside a live block keeps the invariant. -/
theorem inv_write (h : Inv Held s free) {a : Nat} {v : BitVec 8}
    (ha : ∃ b ∈ s.live, a ∈ binBytes b) :
    Inv Held { s with ba := { s.ba with mem := fun x => if x = a then v else s.ba.mem x } }
      free := by
  obtain ⟨b, hb, hab⟩ := ha
  refine ⟨fun i => ?_, h.account, h.held, h.disjoint, h.pages, h.live⟩
  refine chain_congr (i := i) (h.chain i) fun c hc x hx => if_neg ?_
  rintro rfl
  exact h.free_disjoint_live hc hb x hx hab

/-- A fresh page for a bin whose free list is empty. -/
theorem inv_newPage (h : Inv Held s free) {i : BinIndex} (hempty : free i = []) {page : Nat}
    {pa : σ} (h0 : page ≠ 0) (hal : page % PAGE_SIZE = 0) (hend : page + PAGE_SIZE ≤ 2 ^ 64)
    (hdisj : ∀ b ∈ s.owned, b.Disjoint (pageBytes page))
    (hheld : Held pa (pageBytes page :: s.owned)) :
    Inv Held
      { ba := (BinAllocator.pushChunks page i (PAGE_SIZE / binSizes i)
          { s.ba with pa := pa, pages := (i, page) :: s.ba.pages })
        live := s.live }
      (fun j => if j = i then chunks i page else free j) := by
  have hchain0 := h.chain i
  rw [hempty] at hchain0
  obtain ⟨hchain, hmem, hheads, hpa, hpages⟩ := BinAllocator.pushChunks_spec page i h0 hend
    (PAGE_SIZE / binSizes i) { s.ba with pa := pa, pages := (i, page) :: s.ba.pages } []
    (Nat.le_refl _) hchain0 (fun d hd => absurd hd List.not_mem_nil)
  rw [binSizes_dvd, List.append_nil] at *
  generalize BinAllocator.pushChunks page i (PAGE_SIZE / binSizes i)
    { s.ba with pa := pa, pages := (i, page) :: s.ba.pages } = ba' at *
  have howned : BinSys.owned { ba := ba', live := s.live } = pageBytes page :: s.owned := by
    simp only [owned, hpages, List.map_cons, List.cons_append]
  refine ⟨fun j => ?_, fun j => ?_, ?_, ?_, fun p hp => ?_, h.live⟩
  · -- The list of this bin is the chunks just linked; the other lists are in other pages.
    by_cases hj : j = i
    · subst hj
      simp only [if_true]
      exact hchain
    · simp only [hj, if_false, hheads j hj]
      refine chain_congr (i := j) (h.chain j) fun c hc x hx => hmem x ?_
      -- The chunk is in another page.
      obtain ⟨q, hq, hcq⟩ := h.isChunk (List.mem_append_left _ hc)
      have hxq := mem_pageBytes hcq (h.pages _ hq).2.1 hx
      have hsep := hdisj _ (List.mem_append_left _
        (List.mem_map_of_mem (f := fun p : BinIndex × Nat => pageBytes p.2) hq)) x hxq
      simp only [pageBytes, Extent.mem_mk] at hsep
      omega
  · show ((if j = i then chunks i page else free j) ++ liveOf j s.live).Perm
      ((pagesOf j ba'.pages).flatMap (chunks j))
    rw [hpages]
    -- The chunks of the new page are all free.
    by_cases hj : j = i
    · subst hj
      have hacc := h.account j
      rw [hempty, List.nil_append] at hacc
      have hcons : pagesOf j ((j, page) :: s.ba.pages) = page :: pagesOf j s.ba.pages := by
        simp [pagesOf]
      rw [if_pos rfl, hcons, List.flatMap_cons]
      exact hacc.append_left _
    · have hcons : pagesOf j ((i, page) :: s.ba.pages) = pagesOf j s.ba.pages := by
        simp [pagesOf, Ne.symm hj]
      rw [if_neg hj, hcons]
      exact h.account j
  · rw [howned]
    exact hpa ▸ hheld
  · rw [howned]
    exact List.pairwise_cons.mpr ⟨fun b hb => (hdisj b hb).symm, h.disjoint⟩
  · rw [hpages] at hp
    rcases List.mem_cons.mp hp with rfl | hp
    · exact ⟨h0, hal, hend⟩
    · exact h.pages p hp

theorem liveOf_cons (i j : BinIndex) (c n : Nat) (live : List Extent)
    (hi : binIndex n = some i) :
    liveOf j (⟨c, n⟩ :: live) = if j = i then c :: liveOf j live else liveOf j live := by
  by_cases hj : j = i
  · subst hj
    simp [liveOf, hi]
  · simp [liveOf, hi, hj, Ne.symm hj]

theorem largeOf_cons_some {i : BinIndex} (c n : Nat) (live : List Extent)
    (hi : binIndex n = some i) : largeOf (⟨c, n⟩ :: live) = largeOf live := by
  simp [largeOf, hi]

/-- The first chunk of a free list becomes a live block. -/
theorem inv_pop (h : Inv Held s free) {i : BinIndex} {c n : Nat} {l : List Nat}
    (hfree : free i = c :: l) (hi : binIndex n = some i) :
    Inv Held { ba := s.ba.setHead i (next s.ba.mem c), live := ⟨c, n⟩ :: s.live }
      (fun j => if j = i then l else free j) := by
  have hc : c ∈ free i := by
    rw [hfree]
    exact List.mem_cons_self
  have howned : BinSys.owned { ba := s.ba.setHead i (next s.ba.mem c), live := ⟨c, n⟩ :: s.live }
      = s.owned := by
    simp only [owned, largeOf_cons_some c n s.live hi]
    rfl
  refine ⟨fun j => ?_, fun j => ?_, howned ▸ h.held, howned ▸ h.disjoint, h.pages, ?_⟩
  · show Chain s.ba.mem (if j = i then next s.ba.mem c else s.ba.listHeads j)
      (if j = i then l else free j)
    -- The list goes on with the next link.
    by_cases hj : j = i
    · have hchain := h.chain i
      rw [hfree] at hchain
      rw [if_pos hj, if_pos hj]
      exact hchain.2.2.2
    · rw [if_neg hj, if_neg hj]
      exact h.chain j
  · show ((if j = i then l else free j) ++ liveOf j (⟨c, n⟩ :: s.live)).Perm _
    rw [liveOf_cons i j c n s.live hi]
    -- The chunk moves from the free ones to the live ones.
    by_cases hj : j = i
    · subst hj
      have hacc := h.account j
      rw [hfree] at hacc
      rw [if_pos rfl, if_pos rfl]
      exact List.perm_middle.trans hacc
    · rw [if_neg hj, if_neg hj]
      exact h.account j
  · refine List.pairwise_cons.mpr ⟨fun b hb => ?_, h.live⟩
    rw [binBytes_some (b := ⟨c, n⟩) hi]
    exact h.free_disjoint_live hc hb

/-- The live blocks of one kind without a live block. -/
theorem liveOf_erase {b : Extent} {live : List Extent} (hb : b ∈ live) {i : BinIndex}
    (hi : binIndex b.len = some i) (j : BinIndex) :
    (liveOf j live).Perm
      (if j = i then b.start :: liveOf j (live.erase b) else liveOf j (live.erase b)) := by
  have hperm : (liveOf j live).Perm (liveOf j (b :: live.erase b)) :=
    ((List.perm_cons_erase hb).filter _).map _
  rwa [show b = ⟨b.start, b.len⟩ from rfl, liveOf_cons i j _ _ _ hi] at hperm

theorem largeOf_erase_some {b : Extent} {live : List Extent} (hb : b ∈ live)
    {i : BinIndex} (hi : binIndex b.len = some i) :
    (largeOf live).Perm (largeOf (live.erase b)) := by
  have hperm : (largeOf live).Perm (largeOf (b :: live.erase b)) :=
    (List.perm_cons_erase hb).filter _
  rwa [show b = ⟨b.start, b.len⟩ from rfl, largeOf_cons_some _ _ _ hi] at hperm

variable {ops : PageAllocatorOps σ}

/-- A live chunk goes back to its free list. -/
theorem inv_push (hops : ops.Supplies Held) (h : Inv Held s free) {b : Extent}
    (hb : b ∈ s.live) {i : BinIndex} (hi : binIndex b.len = some i) :
    Inv Held { ba := s.ba.push b.start i, live := s.live.erase b }
      (fun j => if j = i then b.start :: free i else free j) := by
  have hlive : b.start ∈ liveOf i s.live := mem_liveOf.mpr ⟨b, hb, hi, rfl⟩
  have hchunk := h.isChunk (List.mem_append_right (free i) hlive)
  obtain ⟨hne, hlt, -⟩ := h.chunk_bounds hchunk
  -- The link word goes into the released block, which no free chunk meets.
  have hsep : ∀ {j : BinIndex} {c : Nat}, c ∈ free j →
      (chunkBytes j c).Disjoint (chunkBytes i b.start) := by
    intro j c hc
    have := h.free_disjoint_live hc hb
    rwa [binBytes_some hi] at this
  have hlink : ∀ k < 8, b.start + k ∈ chunkBytes i b.start := by
    intro k hk
    have := binSizes_ge i
    simp only [chunkBytes, Extent.mem_mk]
    omega
  have howned : s.owned.Perm
      (BinSys.owned { ba := s.ba.push b.start i, live := s.live.erase b }) := by
    simp only [owned, BinAllocator.push_pages]
    exact (largeOf_erase_some hb hi).append_left _
  refine ⟨fun j => ?_, fun j => ?_, ?_, ?_, ?_, ?_⟩
  · rw [BinAllocator.push_listHeads, BinAllocator.push_mem]
    -- The list of this bin starts with the block; the link word is in no chunk of the others.
    by_cases hj : j = i
    · subst hj
      rw [if_pos rfl, if_pos rfl]
      refine (h.chain j).push hne hlt fun d hd => ?_
      have hfirst := hsep hd
      have hd8 : 8 ≤ binSizes j := Nat.le_trans (by decide) (binSizes_ge j)
      -- Two chunks whose first eight bytes meet share a byte.
      by_contra hover
      rcases Nat.le_total d b.start with hle | hle
      · refine hfirst b.start ?_ (hlink 0 (by decide))
        simp only [chunkBytes, Extent.mem_mk]
        omega
      · refine hfirst d ?_ ?_
        · simp only [chunkBytes, Extent.mem_mk]
          omega
        · simp only [chunkBytes, Extent.mem_mk]
          omega
    · rw [if_neg hj, if_neg hj]
      refine chain_congr (i := j) (h.chain j) fun c hc x hx => ?_
      refine store64_apply_of_disjoint _ _ _ _ ?_
      by_contra hover
      refine hsep hc x hx ?_
      have := hlink (x - b.start) (by omega)
      rwa [show b.start + (x - b.start) = x by omega] at this
  · show ((if j = i then b.start :: free i else free j) ++ liveOf j (s.live.erase b)).Perm
      ((pagesOf j (s.ba.push b.start i).pages).flatMap (chunks j))
    rw [BinAllocator.push_pages]
    have hlv := liveOf_erase hb hi j
    -- The chunk moves back from the live ones to the free ones.
    by_cases hj : j = i
    · subst hj
      rw [if_pos rfl] at hlv ⊢
      refine List.Perm.trans ?_ (h.account j)
      rw [List.cons_append]
      exact List.perm_middle.symm.trans (hlv.symm.append_left _)
    · rw [if_neg hj] at hlv ⊢
      exact (hlv.symm.append_left _).trans (h.account j)
  · show Held (s.ba.push b.start i).pa _
    rw [BinAllocator.push_pa]
    exact hops.perm h.held howned
  · exact (howned.pairwise_iff fun hdis => hdis.symm).mp h.disjoint
  · intro p hp
    rw [BinAllocator.push_pages] at hp
    exact h.pages p hp
  · exact h.live.sublist List.erase_sublist

/-- A large block from the page allocator becomes a live block. -/
theorem inv_large (hops : ops.Supplies Held) (h : Inv Held s free) {n ptr : Nat} {pa : σ}
    (hi : binIndex n = none) (hdisj : ∀ b ∈ s.owned, b.Disjoint ⟨ptr, n⟩)
    (hheld : Held pa (⟨ptr, n⟩ :: s.owned)) :
    Inv Held { ba := { s.ba with pa := pa }, live := ⟨ptr, n⟩ :: s.live } free := by
  have hlargeOf : largeOf (⟨ptr, n⟩ :: s.live) = ⟨ptr, n⟩ :: largeOf s.live := by
    simp [largeOf, hi]
  have hliveOf : ∀ i, liveOf i (⟨ptr, n⟩ :: s.live) = liveOf i s.live := by
    intro i
    simp [liveOf, hi]
  have howned : (⟨ptr, n⟩ :: s.owned).Perm
      (BinSys.owned { ba := { s.ba with pa := pa }, live := ⟨ptr, n⟩ :: s.live }) := by
    simp only [owned, hlargeOf]
    exact List.perm_middle.symm
  refine ⟨h.chain, fun i => ?_, hops.perm hheld howned, ?_, h.pages, ?_⟩
  · show (free i ++ liveOf i (⟨ptr, n⟩ :: s.live)).Perm _
    rw [hliveOf i]
    exact h.account i
  · refine (howned.pairwise_iff fun hdis => hdis.symm).mp ?_
    exact List.pairwise_cons.mpr ⟨fun b hb => (hdisj b hb).symm, h.disjoint⟩
  · refine List.pairwise_cons.mpr ⟨fun b hb => ?_, h.live⟩
    rw [binBytes_none (b := ⟨ptr, n⟩) hi]
    -- A live block is a chunk of an owned page or an owned large block.
    cases hj : binIndex b.len with
    | some j =>
        rw [binBytes_some hj]
        obtain ⟨page, hp, hcm⟩ :=
          h.isChunk (List.mem_append_right (free j) (mem_liveOf.mpr ⟨b, hb, hj, rfl⟩))
        intro x hx hxb
        exact hdisj _ (List.mem_append_left _
          (List.mem_map_of_mem (f := fun p : BinIndex × Nat => pageBytes p.2) hp)) x
          (mem_pageBytes hcm (h.pages _ hp).2.1 hxb) hx
    | none =>
        rw [binBytes_none hj]
        exact (hdisj b (List.mem_append_right _ (List.mem_filter.mpr ⟨hb, by simp [hj]⟩))).symm

/-- A large block goes back to the page allocator. -/
theorem inv_freeLarge (hops : ops.Supplies Held) (h : Inv Held s free) {b : Extent}
    (hb : b ∈ s.live) (hi : binIndex b.len = none) :
    ∃ pa, ops.free b.start b.len s.ba.pa = .ok pa ∧
      Inv Held { ba := { s.ba with pa := pa }, live := s.live.erase b } free := by
  have hlarge : (largeOf s.live).Perm (b :: largeOf (s.live.erase b)) := by
    have hperm : (largeOf s.live).Perm (largeOf (b :: s.live.erase b)) :=
      (List.perm_cons_erase hb).filter _
    have hcons : largeOf (b :: s.live.erase b) = b :: largeOf (s.live.erase b) := by
      simp [largeOf, hi]
    rwa [hcons] at hperm
  have hliveOf : ∀ i, (liveOf i s.live).Perm (liveOf i (s.live.erase b)) := by
    intro i
    have hperm : (liveOf i s.live).Perm (liveOf i (b :: s.live.erase b)) :=
      ((List.perm_cons_erase hb).filter _).map _
    have hcons : liveOf i (b :: s.live.erase b) = liveOf i (s.live.erase b) := by
      simp [liveOf, hi]
    rwa [hcons] at hperm
  -- The block is one of those held from the page allocator, so it takes it back.
  have howned : s.owned.Perm (b :: (s.ba.pages.map (fun p => pageBytes p.2) ++
      largeOf (s.live.erase b))) :=
    (hlarge.append_left _).trans List.perm_middle
  obtain ⟨pa, hrun, hheld⟩ := hops.free (hops.perm h.held howned)
  refine ⟨pa, hrun, h.chain, fun i => ?_, hheld, ?_, h.pages, h.live.sublist List.erase_sublist⟩
  · exact ((hliveOf i).symm.append_left _).trans (h.account i)
  · exact ((howned.pairwise_iff fun hdis => hdis.symm).mp h.disjoint).of_cons

/-- `pop` takes the first chunk of a free list. -/
theorem pop_eq (h : Inv Held s free) {i : BinIndex} {c : Nat} {l : List Nat}
    (hfree : free i = c :: l) :
    c ≠ 0 ∧ s.ba.pop i = .ok (c, s.ba.setHead i (next s.ba.mem c)) := by
  have hchain := h.chain i
  rw [hfree] at hchain
  obtain ⟨hhead, hne, -, -⟩ := hchain
  refine ⟨hne, ?_⟩
  simp only [BinAllocator.pop, hhead, hne, ne_eq, not_false_eq_true, if_true]
  rfl

/-- `bin_free` of a live block of a bin. The block is aligned to the bin, so the check of
`bin_free` passes. -/
theorem binFree_eq (ops : PageAllocatorOps σ) (h : Inv Held s free) {b : Extent}
    (hb : b ∈ s.live) {i : BinIndex} (hi : binIndex b.len = some i) :
    s.ba.binFree ops b.start b.len = .ok (s.ba.push b.start i) := by
  have hlive : b.start ∈ liveOf i s.live := mem_liveOf.mpr ⟨b, hb, hi, rfl⟩
  have hal := (h.chunk_bounds (h.isChunk (List.mem_append_right (free i) hlive))).2.2
  simp only [BinAllocator.binFree, hi, isAlignedToBin, hal, decide_true, Bool.not_true,
    Bool.false_eq_true, if_false]
  rfl

/-- `bin_alloc` for a bin whose free list has a chunk. -/
theorem binAlloc_eq (ops : PageAllocatorOps σ) (h : Inv Held s free) {i : BinIndex} {c n : Nat}
    {l : List Nat} (hfree : free i = c :: l) (hi : binIndex n = some i) :
    s.ba.binAlloc ops n = .ok (c, s.ba.setHead i (next s.ba.mem c)) := by
  obtain ⟨hne, hpop⟩ := pop_eq h hfree
  have hchain := h.chain i
  rw [hfree] at hchain
  have hhead : s.ba.listHeads i ≠ 0 := hchain.1 ▸ hne
  simp only [BinAllocator.binAlloc, hi, BinAllocator.allocFromBin, if_neg hhead]
  exact hpop

/-- What `bin_alloc` does: it returns `NULL` and leaves lists and memory alone, or it returns
a new live block. -/
theorem binAlloc_spec (hops : ops.Supplies Held) (h : Inv Held s free) {n : Nat}
    (hn : n ≤ 2 ^ 64 - PAGE_SIZE) :
    ∃ ptr ba', s.ba.binAlloc ops n = .ok (ptr, ba') ∧
      ((ptr = 0 ∧ ba'.listHeads = s.ba.listHeads ∧ ba'.mem = s.ba.mem ∧
          Inv Held { ba := ba', live := s.live } free) ∨
       (ptr ≠ 0 ∧ ∃ free', Inv Held { ba := ba', live := ⟨ptr, n⟩ :: s.live } free')) := by
  have hfail : ∀ pa, Held pa s.owned →
      Inv Held { ba := { s.ba with pa := pa }, live := s.live } free := fun pa hheld =>
    ⟨h.chain, h.account, hheld, h.disjoint, h.pages, h.live⟩
  cases hi : binIndex n with
  | none =>
      -- A size above the largest bin goes to the page allocator.
      have hpos : 1 ≤ n := Nat.le_trans (by decide) (Nat.le_of_lt (binIndex_none hi))
      obtain ⟨ptr, pa, hrun, hans⟩ := hops.alloc h.held hpos hn
      refine ⟨ptr, { s.ba with pa := pa }, ?_, ?_⟩
      · simp only [BinAllocator.binAlloc, hi, hrun]
        rfl
      · rcases hans with ⟨hnull, hheld⟩ | ⟨hne, -, -, hdisj, hheld⟩
        · exact .inl ⟨hnull, rfl, rfl, hfail pa hheld⟩
        · exact .inr ⟨hne, free, inv_large hops h hi hdisj hheld⟩
  | some i =>
      simp only [BinAllocator.binAlloc, hi, BinAllocator.allocFromBin]
      by_cases hhead : s.ba.listHeads i = 0
      · rw [if_pos hhead]
        -- The list is empty: a page is needed, and the call fails when there is none.
        have hempty : free i = [] := by
          have hchain := h.chain i
          rw [hhead] at hchain
          exact hchain.eq_nil_of_zero
        obtain ⟨page, pa, hrun, hans⟩ := hops.alloc (n := PAGE_SIZE) h.held (by decide) (by decide)
        rcases hans with ⟨hnull, hheld⟩ | ⟨hne, hal, hend, hdisj, hheld⟩
        · refine ⟨0, { s.ba with pa := pa }, ?_, .inl ⟨rfl, rfl, rfl, hfail pa hheld⟩⟩
          simp only [BinAllocator.initBinPage, hrun, Run.bind_ok, hnull, if_true, Run.pure_eq]
          rfl
        · -- A fresh page: its first chunk is then popped.
          have hpage := inv_newPage h hempty hne hal hend hdisj hheld
          obtain ⟨l, hl⟩ := chunks_eq_cons i page
          have hfree : (if i = i then chunks i page else free i) = page :: l := by
            rw [if_pos rfl, hl]
          obtain ⟨hpne, hpop⟩ := pop_eq hpage hfree
          refine ⟨_, _, ?_, .inr ⟨hpne, _, inv_pop hpage hfree hi⟩⟩
          simp only [BinAllocator.initBinPage, hrun, Run.bind_ok, hne, if_false, Run.pure_eq,
            if_true]
          exact hpop
      · -- The list has a chunk.
        rw [if_neg hhead]
        obtain ⟨l, hfree, -, -⟩ := (h.chain i).cons_of_ne_zero hhead
        obtain ⟨hne, hpop⟩ := pop_eq h hfree
        exact ⟨_, _, hpop, .inr ⟨hne, _, inv_pop h hfree hi⟩⟩

/-- Every permitted call returns and keeps the invariant. -/
theorem step_spec (hops : ops.Supplies Held) (h : Inv Held s free) (c : BinCall)
    (hc : s.Permitted c) : ∃ s' free', s.step ops c = some s' ∧ Inv Held s' free' := by
  cases c with
  | alloc n =>
      obtain ⟨ptr, ba', hrun, hres⟩ := binAlloc_spec hops h (show n ≤ _ from hc)
      rcases hres with ⟨rfl, -, -, hinv⟩ | ⟨hne, free', hinv⟩
      · exact ⟨_, free, by rw [step, hrun]; rfl, hinv⟩
      · refine ⟨_, free', ?_, hinv⟩
        rw [step, hrun]
        simp only [Except.toOption, Option.map_some, hne, if_false]
  | free b =>
      cases hi : binIndex b.len with
      | some i =>
          refine ⟨_, _, ?_, inv_push hops h hc hi⟩
          rw [step, binFree_eq ops h hc hi]
          rfl
      | none =>
          obtain ⟨pa, hrun, hinv⟩ := inv_freeLarge hops h hc hi
          refine ⟨_, free, ?_, hinv⟩
          simp only [step, BinAllocator.binFree, hi, hrun]
          rfl
  | write a v => exact ⟨_, free, rfl, inv_write h hc⟩

/-- `bin_allocator.c` before the first call: empty lists, no page taken, nothing live. -/
def Start (Held : σ → List Extent → Prop) (s : BinSys σ) : Prop :=
  (∀ i, s.ba.listHeads i = 0) ∧ s.ba.pages = [] ∧ s.live = [] ∧ Held s.ba.pa []

theorem inv_start (hs : Start Held s) : Inv Held s fun _ => [] := by
  obtain ⟨hheads, hpages, hlive, hheld⟩ := hs
  have howned : s.owned = [] := by
    simp [owned, hpages, hlive, largeOf]
  refine ⟨hheads, fun i => ?_, howned ▸ hheld, howned ▸ List.Pairwise.nil, ?_, ?_⟩
  · rw [hpages, hlive]
    exact List.Perm.refl _
  · rw [hpages]
    exact fun p hp => absurd hp List.not_mem_nil
  · rw [hlive]
    exact List.Pairwise.nil

theorem inv_of_run (hops : ops.Supplies Held)
    (hs : Reachable (Start Held) (step ops) Permitted s) : ∃ free, Inv Held s free := by
  refine hs.invariant (P := fun s => ∃ free, Inv Held s free) ?_ ?_
  · intro s hs
    exact ⟨_, inv_start hs⟩
  · intro s c s' hinv hc hstep
    obtain ⟨free, hinv⟩ := hinv
    obtain ⟨s'', free', hrun, hinv'⟩ := step_spec hops hinv c hc
    rw [hstep] at hrun
    cases hrun
    exact ⟨free', hinv'⟩

end BinSys

theorem le_capacity (n : Nat) : n ≤ capacity n := by
  unfold capacity
  split
  · rename_i i hi
    exact binIndex_le hi
  · exact Nat.le_refl n

open BinSys in
/-- **Bin allocator safety.** Over a page allocator that supplies fresh page-aligned blocks,
in every state of every run: the live blocks are disjoint and large enough; following the
links in memory from each head gives a list of distinct chunks, aligned to the size of the
bin, disjoint from each other and from every live block; the chunks of a bin are counted
exactly; a `bin_alloc` that returns `NULL` changes neither the lists nor the memory; and
every permitted call returns. -/
theorem binAllocator_safe {σ : Type} {ops : PageAllocatorOps σ}
    {Held : σ → List Extent → Prop} (hops : ops.Supplies Held) {s : BinSys σ}
    (hs : Reachable (Start Held) (step ops) Permitted s) :
    s.live.Pairwise (fun b c => (binBytes b).Disjoint (binBytes c)) ∧
    (∀ b ∈ s.live, b.len ≤ (binBytes b).len) ∧
    (∃ free : BinIndex → List Nat, ∀ i,
      Chain s.ba.mem (s.ba.listHeads i) (free i) ∧
      (free i).Nodup ∧
      (∀ c ∈ free i, c % PAGE_SIZE % binSizes i = 0 ∧
        (∀ j, ∀ d ∈ free j, (i, c) ≠ (j, d) → (chunkBytes i c).Disjoint (chunkBytes j d)) ∧
        ∀ b ∈ s.live, (chunkBytes i c).Disjoint (binBytes b)) ∧
      (free i).length + (liveOf i s.live).length
        = (pagesOf i s.ba.pages).length * (PAGE_SIZE / binSizes i)) ∧
    (∀ n ≤ 2 ^ 64 - PAGE_SIZE, ∀ ba', s.ba.binAlloc ops n = .ok (0, ba') →
      ba'.listHeads = s.ba.listHeads ∧ ba'.mem = s.ba.mem) ∧
    (∀ c, s.Permitted c → ∃ s', s.step ops c = some s') := by
  obtain ⟨free, hinv⟩ := inv_of_run hops hs
  refine ⟨hinv.live, fun b _ => le_capacity b.len, ⟨free, fun i => ⟨hinv.chain i, ?_, ?_, ?_⟩⟩,
    ?_, ?_⟩
  · exact (List.nodup_append.mp (hinv.nodup i)).1
  · intro c hc
    refine ⟨(hinv.chunk_bounds (hinv.isChunk (List.mem_append_left _ hc))).2.2, ?_, ?_⟩
    · intro j d hd hne
      exact hinv.free_disjoint_free hc hd hne
    · intro b hb
      exact hinv.free_disjoint_live hc hb
  · -- The chunks of a bin are those of its pages, each of which has as many as fit.
    have hlen := (hinv.account i).length_eq
    rw [List.length_append, List.length_flatMap] at hlen
    rw [hlen]
    simp only [chunks_length, List.map_const', List.sum_replicate_nat]
  · intro n hn ba' hrun
    obtain ⟨ptr, ba'', hrun', hres⟩ := binAlloc_spec hops hinv hn
    rw [hrun] at hrun'
    cases hrun'
    rcases hres with ⟨-, hheads, hmem, -⟩ | ⟨hne, -⟩
    · exact ⟨hheads, hmem⟩
    · exact absurd rfl hne
  · intro c hc
    obtain ⟨s', -, hrun, -⟩ := step_spec hops hinv c hc
    exact ⟨s', hrun⟩

instance {σ : Type} (s : BinSys σ) : ∀ c, Decidable (s.Permitted c)
  | .alloc _ => inferInstanceAs (Decidable (_ ≤ _))
  | .free b => inferInstanceAs (Decidable (b ∈ s.live))
  | .write a _ => inferInstanceAs (Decidable (∃ b ∈ s.live, a ∈ binBytes b))

/-- The bin allocator over the bitmap allocator of the test map, with cleared memory. -/
def testBins : BinSys PageAllocator where
  ba := { listHeads := fun _ => 0, mem := fun _ => 0#8, pa := testPa, pages := [] }
  live := []

open PageAllocatorOps in
/-- The bitmap allocator after `page_allocator_init` supplies the bins. -/
theorem testBins_supplies :
    (paOps false).Supplies (Held false (PageAllocator.Owns testPa)) :=
  (paOps_lawful false (initOk_of_pageAllocatorInit testMap_sorted
    (show pageAllocatorInit testMap = .ok testPa from rfl)).consistent).supplies

open BinSys PageAllocatorOps in
theorem testBins_start : Start (Held false (PageAllocator.Owns testPa)) testBins :=
  ⟨fun _ => rfl, rfl, rfl, PageAllocator.owns_init testPa, fun _ hb => absurd hb List.not_mem_nil⟩

open BinSys PageAllocatorOps in
/-- A run over the bitmap allocator: two chunks of one page, a write into the first, its
release, and a large block. -/
theorem binAllocator_safe_testBins :
    ∃ s : BinSys PageAllocator,
      s.live = [⟨0x5000, 0x1500⟩, ⟨0x1800, 0x700⟩] ∧ s.ba.listHeads 6 = 0x1000 ∧
      s.live.Pairwise (fun b c => (binBytes b).Disjoint (binBytes c)) := by
  obtain ⟨s, hs, hlive, hhead⟩ := Reachable.exists_of_exec (step (paOps false)) Permitted
    (fun s => s.live = [⟨0x5000, 0x1500⟩, ⟨0x1800, 0x700⟩] ∧ s.ba.listHeads 6 = 0x1000)
    [.alloc 0x800, .write 0x1000 0xFF, .alloc 0x700, .free ⟨0x1000, 0x800⟩, .alloc 0x1500]
    testBins_start (by decide)
  exact ⟨s, hlive, hhead, (binAllocator_safe testBins_supplies hs).1⟩

end YmirC
