import YmirC.Proofs.BinAllocator.Chunks
import YmirC.Proofs.PageAllocator.FirstFit
import YmirC.Proofs.PageAllocator.Reserved

/-!
# `YmirC.Proofs.PageAllocator.Sizes`: an allocation against the size asked for

`alloc` rounds `n` up to frames in 64 bits, and its loop takes a count of 0 frames for found at
once. Up to `2^64 - PAGE_SIZE` the sum does not wrap and the block is as large as `n`. Above, the
count is 0: the call answers with frame 1, used or not, and marks nothing (`alloc_of_gt`).
`bin_alloc` hands every size above its largest bin on, and is right exactly where `alloc` is.

The states are those of any run: `page_allocator_init` on any map, then any calls.
-/

set_option autoImplicit false

namespace YmirC

open Runs (Reachable)

namespace PageAllocator

variable {pa pa' : PageAllocator}

/-! ### The states of a run -/

/-- The allocator after `page_allocator_init` on some map and any calls. -/
def Reached (pa : PageAllocator) : Prop :=
  Reachable (fun s => ∃ map, pageAllocatorInit map = .ok s) callStep (fun _ _ => True) pa

/-- The loop of `page_allocator_init` raises `avail_end` only to values below
`MAX_PHYSICAL_SIZE`. -/
theorem initLoop_availEnd {map : List EfiMemoryDescriptor} {physEnd availEnd : Nat}
    {res : Nat × PageAllocator} (hrun : initLoop map physEnd availEnd pa = .ok res)
    (h : availEnd < MAX_PHYSICAL_SIZE) : res.1 < MAX_PHYSICAL_SIZE := by
  induction map generalizing physEnd availEnd pa with
  | nil =>
      cases hrun
      exact h
  | cons desc rest ih =>
      simp only [initLoop] at hrun
      split at hrun
      · obtain ⟨_, -, hret⟩ := Run.bind_eq_ok.mp hrun
        cases hret
        exact h
      · obtain ⟨pa₁, -, hrest⟩ := Run.bind_eq_ok.mp hrun
        -- Behind the break the end of the descriptor is below the limit.
        split at hrest
        · obtain ⟨_, -, hret⟩ := Run.bind_eq_ok.mp hrest
          cases hret
          exact h
        · rename_i hlt
          split at hrest
          · exact ih hrest (Nat.not_le.mp hlt)
          · obtain ⟨pa₂, -, hrest⟩ := Run.bind_eq_ok.mp hrest
            exact ih hrest h

theorem frameEnd_le_of_init {map : List EfiMemoryDescriptor}
    (hrun : pageAllocatorInit map = .ok pa) : pa.frameEnd ≤ FRAME_COUNT := by
  obtain ⟨⟨availEnd, pa₁⟩, hloop, hret⟩ := Run.bind_eq_ok.mp hrun
  cases hret
  have hlt := initLoop_availEnd hloop (by decide)
  exact Nat.div_le_div_right (Nat.le_of_lt hlt)

theorem take_frameEnd (reconstructed : Bool) (numFrames : Nat) (found : Option Nat) :
    (pa.take reconstructed numFrames found).2.frameEnd = pa.frameEnd := by
  cases found with
  | none => rfl
  | some f => exact pa.mark_frameEnd .used f numFrames

theorem callStep_frameEnd {c : AnyCall} (hstep : callStep pa c = some pa') :
    pa'.frameEnd = pa.frameEnd := by
  cases c with
  | alloc reconstructed n =>
      obtain ⟨x, hx, rfl⟩ := Option.map_eq_some_iff.mp hstep
      obtain ⟨numFrames, found, rfl⟩ := alloc_eq_take (Run.toOption_eq_some.mp hx)
      exact take_frameEnd reconstructed numFrames found
  | allocAlignedPages reconstructed k a =>
      obtain ⟨x, hx, rfl⟩ := Option.map_eq_some_iff.mp hstep
      obtain ⟨numFrames, found, rfl⟩ := allocAlignedPages_eq_take (Run.toOption_eq_some.mp hx)
      exact take_frameEnd reconstructed numFrames found
  | free reconstructed ptr n =>
      simp only [callStep, freeM_run] at hstep
      split at hstep
      · rename_i hrun
        split at hrun
        · cases hrun
        · cases hrun
          cases hstep
          exact pa.mark_frameEnd .unused _ _
      · rename_i hrun
        split at hrun
        · cases hrun
          cases hstep
          rfl
        · cases hrun

theorem Reached.frameEnd_le (h : Reached pa) : pa.frameEnd ≤ FRAME_COUNT := by
  refine Reachable.invariant (P := fun s => s.frameEnd ≤ FRAME_COUNT) ?_ ?_ h
  · rintro s ⟨map, hrun⟩
    exact frameEnd_le_of_init hrun
  · intro s c s' hle _ hstep
    rw [callStep_frameEnd hstep]
    exact hle

/-! ### `alloc` -/

/-- From `ptr` on there are `n` bytes of frames between 1 and `frame_end` that were unused before
the call and are used after it. -/
def Holds (reconstructed : Bool) (n : Nat) (pa : PageAllocator) (ptr : Nat)
    (pa' : PageAllocator) : Prop :=
  ∃ f k, ptr = phys2virt reconstructed (f * PAGE_SIZE) ∧ n ≤ k * PAGE_SIZE ∧
    1 ≤ f ∧ f + k ≤ pa.frameEnd ∧
    ∀ g ∈ Extent.mk f k, pa.frameStatusAt g = .unused ∧ pa'.frameStatusAt g = .used

/-- `alloc` returns, and what it returns holds `n` bytes unless it is `NULL`. -/
def AllocHolds (reconstructed : Bool) (n : Nat) (pa : PageAllocator) : Prop :=
  ∃ ptr pa', pa.alloc reconstructed n = .ok (ptr, pa') ∧
    (ptr ≠ 0 → Holds reconstructed n pa ptr pa')

/-- `bin_alloc` returns, and what it returns holds `n` bytes of the page allocator's frames unless
it is `NULL`. -/
def BinAllocHolds (reconstructed : Bool) (n : Nat) (ba : BinAllocator PageAllocator) : Prop :=
  ∃ ptr ba', ba.binAlloc (paOps reconstructed) n = .ok (ptr, ba') ∧
    (ptr ≠ 0 → Holds reconstructed n ba.pa ptr ba'.pa)

/-- A size whose rounding wraps asks for no frames, and the search is over at frame 1. -/
theorem alloc_of_gt (reconstructed : Bool) {n : Nat} (hn : n < 2 ^ 64) (hgt : 2 ^ 64 - 4096 < n) :
    pa.alloc reconstructed n = .ok (phys2virt reconstructed PAGE_SIZE, pa) := by
  have hzero : u64 (n + PAGE_SIZE - 1) / PAGE_SIZE = 0 := by
    simp only [u64, PAGE_SIZE]
    omega
  simp only [alloc, hzero]
  rfl

theorem not_allocHolds_of_gt (reconstructed : Bool) {n : Nat} (hn : n < 2 ^ 64)
    (hgt : 2 ^ 64 - 4096 < n) {ptr : Nat}
    (hrun : pa.alloc reconstructed n = .ok (ptr, pa')) :
    ptr ≠ 0 ∧ ¬ Holds reconstructed n pa ptr pa' := by
  rw [alloc_of_gt reconstructed hn hgt] at hrun
  cases hrun
  refine ⟨by cases reconstructed <;> decide, ?_⟩
  -- A frame of the block would be unused and used in one state.
  rintro ⟨f, k, -, hle, -, -, hframes⟩
  have hk : 0 < k := by
    simp only [PAGE_SIZE] at hle
    omega
  obtain ⟨hunused, hused⟩ := hframes f ((Extent.mem_mk ..).mpr ⟨Nat.le_refl f, by omega⟩)
  rw [hunused] at hused
  cases hused

theorem allocHolds_of_le (reconstructed : Bool) (hend : pa.frameEnd ≤ FRAME_COUNT) {n : Nat}
    (hn : 1 ≤ n) (hle : n ≤ 2 ^ 64 - 4096) : AllocHolds reconstructed n pa := by
  obtain ⟨ptr, pa', hrun, hfit⟩ := alloc_firstFit reconstructed pa hend hn hle
  refine ⟨ptr, pa', hrun, fun hne => ?_⟩
  have hfree : ∃ f, pa.Free (1 ≤ ·) (framesFor n) f := by
    by_contra hnone
    exact hne (hfit.null_iff.mpr hnone)
  obtain ⟨f, hf⟩ := exists_isLeast_free hfree
  obtain ⟨hptr, hmarks⟩ := hfit.least f hf
  refine ⟨f, framesFor n, hptr, ?_, hf.1.candidate, hf.1.end_le, fun g hg => ⟨hf.1.unused g hg, ?_⟩⟩
  · simp only [framesFor, PAGE_SIZE]
    omega
  · rw [hmarks.status g, if_pos hg]

theorem allocHolds_iff (reconstructed : Bool) (hend : pa.frameEnd ≤ FRAME_COUNT) {n : Nat}
    (hn : 1 ≤ n) (hsize : n < 2 ^ 64) : AllocHolds reconstructed n pa ↔ n ≤ 2 ^ 64 - 4096 := by
  refine ⟨?_, allocHolds_of_le reconstructed hend hn⟩
  rintro ⟨ptr, pa', hrun, hholds⟩
  by_contra hgt
  obtain ⟨hne, hnot⟩ := not_allocHolds_of_gt reconstructed hsize (Nat.not_le.mp hgt) hrun
  exact hnot (hholds hne)

/-- Above the largest bin `bin_alloc` is `alloc`. -/
theorem binAllocHolds_iff_allocHolds (reconstructed : Bool) (ba : BinAllocator PageAllocator)
    {n : Nat} (hlarge : 0x800 < n) :
    BinAllocHolds reconstructed n ba ↔ AllocHolds reconstructed n ba.pa := by
  have hindex : binIndex n = none := by
    cases hi : binIndex n with
    | none => rfl
    | some i =>
        have hle := binIndex_le hi
        have hmax : ∀ j, binSizes j ≤ 0x800 := by decide
        have := hmax i
        omega
  simp only [BinAllocHolds, AllocHolds, BinAllocator.binAlloc, hindex]
  constructor
  · rintro ⟨ptr, ba', hrun, hholds⟩
    obtain ⟨⟨ptr', pa'⟩, halloc, hret⟩ := Run.bind_eq_ok.mp hrun
    cases hret
    exact ⟨_, _, halloc, hholds⟩
  · rintro ⟨ptr, pa', hrun, hholds⟩
    refine ⟨ptr, { ba with pa := pa' }, ?_, hholds⟩
    exact Run.bind_eq_ok.mpr ⟨(ptr, pa'), hrun, rfl⟩

/-- **No allocation is smaller than asked for, up to `2^64 - PAGE_SIZE` bytes.** In every state of
every run, `alloc` and, above its largest bin, `bin_alloc` hand out at least the bytes asked for if
and only if the rounding to frames does not wrap. -/
theorem allocation_holds_iff (reconstructed : Bool) {pa : PageAllocator} (hpa : Reached pa)
    {n : Nat} (hn : 1 ≤ n) (hsize : n < 2 ^ 64) :
    (AllocHolds reconstructed n pa ↔ n ≤ 2 ^ 64 - 4096) ∧
      ∀ ba : BinAllocator PageAllocator, ba.pa = pa → 0x800 < n →
        (BinAllocHolds reconstructed n ba ↔ n ≤ 2 ^ 64 - 4096) := by
  have halloc := allocHolds_iff reconstructed hpa.frameEnd_le hn hsize
  refine ⟨halloc, ?_⟩
  rintro ba rfl hlarge
  rw [binAllocHolds_iff_allocHolds reconstructed ba hlarge, halloc]

theorem reached_testPa : Reached testPa := .start ⟨testMap, rfl⟩

/-- Three pages of the test map, from both allocators. -/
theorem allocation_holds_testPa :
    AllocHolds false 0x3000 testPa ∧
      BinAllocHolds false 0x3000 ⟨fun _ => 0, fun _ => 0, testPa, []⟩ := by
  obtain ⟨halloc, hbin⟩ := allocation_holds_iff false reached_testPa (n := 0x3000) (by decide)
    (by decide)
  exact ⟨halloc.mpr (by decide), (hbin _ rfl (by decide)).mpr (by decide)⟩

/-- The largest size of all: both calls answer with frame 1 of the test map, and it is not
marked. -/
theorem not_allocation_holds :
    testPa.alloc false (2 ^ 64 - 1) = .ok (0x1000, testPa) ∧
      testPa.frameStatusAt 1 = .unused ∧ ¬ AllocHolds false (2 ^ 64 - 1) testPa ∧
      ¬ BinAllocHolds false (2 ^ 64 - 1) ⟨fun _ => 0, fun _ => 0, testPa, []⟩ := by
  have hnot : ¬ AllocHolds false (2 ^ 64 - 1) testPa := by
    rw [allocHolds_iff false (by decide) (by decide) (by decide)]
    decide
  refine ⟨alloc_of_gt false (by decide) (by decide), by decide, hnot, ?_⟩
  rw [binAllocHolds_iff_allocHolds false _ (by decide)]
  exact hnot

end PageAllocator

end YmirC
