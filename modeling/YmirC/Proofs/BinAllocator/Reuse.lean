import YmirC.Proofs.BinAllocator.Safety

/-!
# `YmirC.Proofs.BinAllocator.Reuse`: freed blocks come back, last one first

A free list is a stack. Freeing blocks of one bin puts their addresses in front of its list in
reverse order (`freeMany_spec`), and as many allocations from the bin take them off again
(`allocMany_spec`). Neither calls the page allocator, so both run in the same way over any
page allocator, and together they leave every list as it was (`binAllocator_reuse`).
-/

set_option autoImplicit false

namespace YmirC

open ByteMemory IntrusiveList
open Runs (Reachable)

variable {σ : Type}

namespace BinAllocator

/-- `bin_free` of the blocks with their sizes, in this order. -/
def freeMany (ops : PageAllocatorOps σ) : List Extent → BinAllocator σ → Run (BinAllocator σ)
  | [], ba => .ok ba
  | b :: blocks, ba => (ba.binFree ops b.start b.len).bind (freeMany ops blocks)

/-- `bin_alloc` of the sizes, in this order, with the pointers it returns. -/
def allocMany (ops : PageAllocatorOps σ) :
    List Nat → BinAllocator σ → Run (List Nat × BinAllocator σ)
  | [], ba => .ok ([], ba)
  | n :: sizes, ba =>
      (ba.binAlloc ops n).bind fun (ptr, ba) =>
        (allocMany ops sizes ba).map fun (ptrs, ba) => (ptr :: ptrs, ba)

/-- Nothing but the list of bin `i` and the memory is different. -/
structure KeepsOthers (i : BinIndex) (ba ba' : BinAllocator σ) : Prop where
  pa : ba'.pa = ba.pa
  pages : ba'.pages = ba.pages
  heads : ∀ j, j ≠ i → ba'.listHeads j = ba.listHeads j

theorem KeepsOthers.trans {i : BinIndex} {ba ba' ba'' : BinAllocator σ}
    (h : KeepsOthers i ba ba') (h' : KeepsOthers i ba' ba'') : KeepsOthers i ba ba'' :=
  ⟨h'.pa.trans h.pa, h'.pages.trans h.pages, fun j hj => (h'.heads j hj).trans (h.heads j hj)⟩

theorem keepsOthers_push (ba : BinAllocator σ) (node : Nat) (i : BinIndex) :
    KeepsOthers i ba (ba.push node i) :=
  ⟨push_pa ba node i, push_pages ba node i, fun j hj => by rw [push_listHeads, if_neg hj]⟩

theorem keepsOthers_setHead (ba : BinAllocator σ) (p : Nat) (i : BinIndex) :
    KeepsOthers i ba (ba.setHead i p) :=
  ⟨rfl, rfl, fun _ hj => if_neg hj⟩

end BinAllocator

open BinAllocator

namespace BinSys

variable {Held : σ → List Extent → Prop} {ops : PageAllocatorOps σ} {s : BinSys σ}
  {free : BinIndex → List Nat} {i : BinIndex}

/-- The free lists with that of bin `i` replaced. -/
def withList (free : BinIndex → List Nat) (i : BinIndex) (l : List Nat) : BinIndex → List Nat :=
  fun j => if j = i then l else free j

theorem withList_withList (l l' : List Nat) :
    withList (withList free i l) i l' = withList free i l' := by
  funext j
  unfold withList
  split <;> rfl

theorem withList_self {l : List Nat} (h : l = free i) : withList free i l = free := by
  funext j
  unfold withList
  split
  · next hj => rw [hj, h]
  · rfl

/-- Freeing live blocks of one bin puts them in front of its list, the last one first. Only
their link words are written. -/
theorem freeMany_spec (hops : ops.Supplies Held) {blocks : List Extent} (h : Inv Held s free)
    (hnodup : blocks.Nodup) (hlive : ∀ b ∈ blocks, b ∈ s.live)
    (hclass : ∀ b ∈ blocks, binIndex b.len = some i) :
    ∃ ba live, (∀ anyOps, s.ba.freeMany anyOps blocks = .ok ba) ∧ KeepsOthers i s.ba ba ∧
      (∀ x, (∀ b ∈ blocks, ¬ (b.start ≤ x ∧ x < b.start + 8)) → ba.mem x = s.ba.mem x) ∧
      Inv Held { ba := ba, live := live }
        (withList free i ((blocks.map Extent.start).reverse ++ free i)) := by
  induction blocks generalizing s free with
  | nil =>
      refine ⟨s.ba, s.live, fun _ => rfl, ⟨rfl, rfl, fun _ _ => rfl⟩, fun _ _ => rfl, ?_⟩
      rw [withList_self (show ([].map Extent.start).reverse ++ free i = free i from rfl)]
      exact h
  | cons b blocks ih =>
      obtain ⟨hb, hnodup'⟩ := List.nodup_cons.mp hnodup
      have hmem := hlive b List.mem_cons_self
      have hi := hclass b List.mem_cons_self
      have hpush : Inv Held { ba := s.ba.push b.start i, live := s.live.erase b }
          (withList free i (b.start :: free i)) := inv_push hops h hmem hi
      -- The other blocks are still live.
      have hlive' : ∀ c ∈ blocks, c ∈ s.live.erase b := fun c hc =>
        (List.mem_erase_of_ne (show c ≠ b from fun heq => hb (heq ▸ hc))).mpr
          (hlive c (List.mem_cons_of_mem b hc))
      obtain ⟨ba, live, hrun, hkeeps, hframe, hinv⟩ :=
        ih hpush hnodup' hlive' fun c hc => hclass c (List.mem_cons_of_mem b hc)
      refine ⟨ba, live, fun anyOps => ?_, (keepsOthers_push s.ba b.start i).trans hkeeps,
        fun x hx => ?_, ?_⟩
      · show (s.ba.binFree anyOps b.start b.len).bind (BinAllocator.freeMany anyOps blocks) = .ok ba
        rw [binFree_eq anyOps h hmem hi]
        exact hrun anyOps
      · have hout := hx b List.mem_cons_self
        rw [hframe x fun c hc => hx c (List.mem_cons_of_mem b hc)]
        exact push_mem_apply s.ba b.start i (by omega)
      · have hlist : (blocks.map Extent.start).reverse ++ withList free i (b.start :: free i) i
            = ((b :: blocks).map Extent.start).reverse ++ free i := by
          simp [withList]
        rwa [withList_withList, hlist] at hinv

/-- Allocations from a bin take the chunks off its list in order. The memory is not written. -/
theorem allocMany_spec {ptrs l : List Nat} {sizes : List Nat} (h : Inv Held s free)
    (hfree : free i = ptrs ++ l) (hlen : sizes.length = ptrs.length)
    (hclass : ∀ n ∈ sizes, binIndex n = some i) :
    ∃ ba live, (∀ anyOps, s.ba.allocMany anyOps sizes = .ok (ptrs, ba)) ∧
      KeepsOthers i s.ba ba ∧ ba.mem = s.ba.mem ∧
      Inv Held { ba := ba, live := live } (withList free i l) := by
  induction ptrs generalizing s free sizes with
  | nil =>
      obtain rfl := List.length_eq_zero_iff.mp hlen
      refine ⟨s.ba, s.live, fun _ => rfl, ⟨rfl, rfl, fun _ _ => rfl⟩, rfl, ?_⟩
      rw [withList_self (show l = free i from hfree.symm)]
      exact h
  | cons c ptrs ih =>
      obtain ⟨n, sizes, rfl⟩ := List.exists_cons_of_length_eq_add_one hlen
      have hi := hclass n List.mem_cons_self
      have hpop : Inv Held { ba := s.ba.setHead i (next s.ba.mem c), live := ⟨c, n⟩ :: s.live }
          (withList free i (ptrs ++ l)) := inv_pop h hfree hi
      obtain ⟨ba, live, hrun, hkeeps, hmem, hinv⟩ := ih hpop (if_pos rfl)
        (Nat.succ.inj hlen) fun m hm => hclass m (List.mem_cons_of_mem n hm)
      refine ⟨ba, live, fun anyOps => ?_, (keepsOthers_setHead s.ba _ i).trans hkeeps, hmem, ?_⟩
      · show (s.ba.binAlloc anyOps n).bind _ = _
        rw [binAlloc_eq anyOps h hfree hi]
        show (BinAllocator.allocMany anyOps sizes (s.ba.setHead i (next s.ba.mem c))).map _ = _
        rw [hrun anyOps]
        rfl
      · rwa [withList_withList] at hinv

end BinSys

open BinSys in
/-- In every state of every run, freeing live blocks of one bin and then allocating as often
from the bin returns the blocks in reverse order, over any page allocator at all, and leaves
the lists and the memory outside the blocks' link words as they were. -/
theorem binAllocator_reuse {ops : PageAllocatorOps σ} {Held : σ → List Extent → Prop}
    (hops : ops.Supplies Held) {s : BinSys σ}
    (hs : Reachable (Start Held) (step ops) Permitted s) (i : BinIndex) (blocks : List Extent)
    (hnodup : blocks.Nodup) (hlive : ∀ b ∈ blocks, b ∈ s.live)
    (hclass : ∀ b ∈ blocks, binIndex b.len = some i) (sizes : List Nat)
    (hlen : sizes.length = blocks.length) (hsizes : ∀ n ∈ sizes, binIndex n = some i) :
    ∃ freed reused,
      (∀ anyOps, s.ba.freeMany anyOps blocks = .ok freed ∧
        freed.allocMany anyOps sizes = .ok ((blocks.map Extent.start).reverse, reused)) ∧
      reused.pa = s.ba.pa ∧ reused.pages = s.ba.pages ∧ reused.listHeads = s.ba.listHeads ∧
      (∀ j l, Chain reused.mem (reused.listHeads j) l ↔ Chain s.ba.mem (s.ba.listHeads j) l) ∧
      ∀ x, (∀ b ∈ blocks, ¬ (b.start ≤ x ∧ x < b.start + 8)) → reused.mem x = s.ba.mem x := by
  obtain ⟨free, hinv⟩ := inv_of_run hops hs
  obtain ⟨freed, live, hfreed, hkeeps, hframe, hinv'⟩ :=
    freeMany_spec hops hinv hnodup hlive hclass
  obtain ⟨reused, live', hreused, hkeeps', hmem, hinv''⟩ := allocMany_spec hinv' (if_pos rfl)
    (by rw [List.length_reverse, List.length_map, hlen]) hsizes
  have hothers := hkeeps.trans hkeeps'
  -- The lists of the last state are those of the first.
  rw [withList_withList, withList_self rfl] at hinv''
  refine ⟨freed, reused, fun anyOps => ⟨hfreed anyOps, hreused anyOps⟩, hothers.pa,
    hothers.pages, ?_, fun j l => ?_, fun x hx => ?_⟩
  · funext j
    exact (hinv''.chain j).first_eq (hinv.chain j)
  · constructor
    · intro hl
      exact hl.unique (hinv''.chain j) ▸ hinv.chain j
    · intro hl
      exact hl.unique (hinv.chain j) ▸ hinv''.chain j
  · rw [hmem, hframe x hx]

open BinSys PageAllocatorOps in
/-- Two blocks of the bin of 2048 bytes, freed in the order of their allocation, come back in
the other order for two other sizes. -/
theorem binAllocator_reuse_testBins :
    ∃ (s : BinSys PageAllocator) (freed reused : BinAllocator PageAllocator),
      s.live = [⟨0x1800, 0x700⟩, ⟨0x1000, 0x800⟩] ∧
      (∀ anyOps, s.ba.freeMany anyOps [⟨0x1000, 0x800⟩, ⟨0x1800, 0x700⟩] = .ok freed ∧
        freed.allocMany anyOps [0x600, 0x500] = .ok ([0x1800, 0x1000], reused)) ∧
      reused.listHeads = s.ba.listHeads := by
  obtain ⟨s, hs, hlive⟩ := Reachable.exists_of_exec (step (paOps false)) Permitted
    (fun s => s.live = [⟨0x1800, 0x700⟩, ⟨0x1000, 0x800⟩]) [.alloc 0x800, .alloc 0x700]
    testBins_start (by decide)
  obtain ⟨freed, reused, hrun, -, -, hheads, -⟩ :=
    binAllocator_reuse testBins_supplies hs 6 [⟨0x1000, 0x800⟩, ⟨0x1800, 0x700⟩] (by decide)
      (by rw [hlive]; decide) (by decide) [0x600, 0x500] rfl (by decide)
  exact ⟨s, freed, reused, hlive, hrun, hheads⟩

end YmirC
