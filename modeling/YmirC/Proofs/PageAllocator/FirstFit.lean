import Mathlib.Order.Bounds.Basic
import YmirC.Proofs.PageAllocator.Progress

/-!
# `YmirC.Proofs.PageAllocator.FirstFit`: the two searches against first fit

What both searches are for is said without a loop: of the candidates at which `k` unused frames
below `frame_end` start, the answer is the least, and `NULL` when there is none. `FirstFit` states
it together with what the call may change.

`alloc` is first fit over all frames but 0. Neither its jump behind a used frame nor its early end
can miss a block, since `search_finds` returns a candidate at or before any that fits.

`alloc_aligned_pages` is first fit over the multiples of its alignment, but for one block: behind
the first candidate it only tries those that end before `frame_end`, not the one that ends there.
With the alignment 0, which its check lets through, all candidates are frame 0 and the loop either
takes it or does not end.
-/

set_option autoImplicit false

namespace YmirC

namespace PageAllocator

variable {pa pa' : PageAllocator} {C : Nat → Prop} {k : Nat}

/-! ### First fit -/

/-- At the candidate `f` start `k` unused frames below `frame_end`. -/
structure Free (pa : PageAllocator) (C : Nat → Prop) (k f : Nat) : Prop where
  candidate : C f
  end_le : f + k ≤ pa.frameEnd
  unused : ∀ g ∈ Extent.mk f k, pa.frameStatusAt g = .unused

/-- The `k` frames from `f` on are used in `pa'`, and nothing else differs from `pa`. -/
structure Marks (pa : PageAllocator) (f k : Nat) (pa' : PageAllocator) : Prop where
  frameEnd : pa'.frameEnd = pa.frameEnd
  regions : pa'.reservedRegions = pa.reservedRegions
  status : ∀ g, pa'.frameStatusAt g
    = if g ∈ Extent.mk f k then .used else pa.frameStatusAt g

/-- `ptr` and `pa'` are the answer of first fit over the candidates `C`: `NULL` exactly when no
candidate is free, and then nothing changes, else the least free one, which is marked. -/
structure FirstFit (reconstructed : Bool) (pa : PageAllocator) (C : Nat → Prop) (k ptr : Nat)
    (pa' : PageAllocator) : Prop where
  null_iff : ptr = 0 ↔ ¬ ∃ f, pa.Free C k f
  unchanged : ptr = 0 → pa' = pa
  least : ∀ f, IsLeast {f | pa.Free C k f} f →
    ptr = phys2virt reconstructed (f * PAGE_SIZE) ∧ Marks pa f k pa'

theorem free_iff_fits (hk : 1 ≤ k) {f : Nat} : pa.Free C k f ↔ C f ∧ pa.Fits f k := by
  constructor
  · intro h
    have hend := h.end_le
    refine ⟨h.candidate, fun j hj => ⟨by omega, h.unused _ ?_⟩⟩
    rw [Extent.mem_mk]
    omega
  · rintro ⟨hC, hfits⟩
    exact ⟨hC, hfits.end_le hk, fun g hg => hfits.unused hg⟩

/-- When a candidate is free, there is a least one. -/
theorem exists_isLeast_free (h : ∃ f, pa.Free C k f) : ∃ f, IsLeast {f | pa.Free C k f} f := by
  classical
  exact ⟨Nat.find h, Nat.find_spec h, fun g hg => Nat.find_min' h hg⟩

theorem firstFit_none (reconstructed : Bool) (h : ¬ ∃ f, pa.Free C k f) :
    FirstFit reconstructed pa C k (pa.take reconstructed k none).1
      (pa.take reconstructed k none).2 where
  null_iff := iff_of_true rfl h
  unchanged _ := rfl
  least f hf := absurd ⟨f, hf.1⟩ h

theorem marks_markAllocated {f : Nat} (hf : f + k ≤ 2 ^ 64) :
    Marks pa f k (pa.markAllocated f k) where
  frameEnd := pa.mark_frameEnd .used f k
  regions := pa.mark_reservedRegions .used f k
  status g := pa.frameStatusAt_mark .used f k g hf

/-- The address of a frame other than 0 is not `NULL`. -/
theorem take_some (pa : PageAllocator) (k : Nat) (reconstructed : Bool) {f : Nat} (hpos : 1 ≤ f)
    (hf : f < FRAME_COUNT) :
    (pa.take reconstructed k (some f)).1 = phys2virt reconstructed (f * PAGE_SIZE) ∧
      (pa.take reconstructed k (some f)).1 ≠ 0 ∧
      virt2phys reconstructed (pa.take reconstructed k (some f)).1 = f * PAGE_SIZE := by
  obtain ⟨hphys, hdirect⟩ := frame2phys_of_lt hf
  have hptr : (pa.take reconstructed k (some f)).1 = phys2virt reconstructed (f * PAGE_SIZE) :=
    congrArg (phys2virt reconstructed) hphys
  rw [hptr]
  refine ⟨rfl, phys2virt_ne_zero reconstructed hdirect ?_,
    virt2phys_phys2virt reconstructed hdirect⟩
  simp only [PAGE_SIZE]
  omega

/-- Taking the least free candidate is first fit. -/
theorem firstFit_some (reconstructed : Bool) (hend : pa.frameEnd ≤ FRAME_COUNT) (hk : 1 ≤ k)
    (hC : ∀ f, C f → 1 ≤ f) {f : Nat} (hf : IsLeast {f | pa.Free C k f} f) :
    FirstFit reconstructed pa C k (pa.take reconstructed k (some f)).1
      (pa.take reconstructed k (some f)).2 := by
  have hcount : FRAME_COUNT < 2 ^ 64 := by decide
  have hle := hf.1.end_le
  obtain ⟨hptr, hne, -⟩ := pa.take_some k reconstructed (hC f hf.1.candidate)
    (show f < FRAME_COUNT by omega)
  refine ⟨iff_of_false hne (fun hnone => hnone ⟨f, hf.1⟩), fun hnull => absurd hnull hne, ?_⟩
  intro g hg
  rw [hg.unique hf]
  exact ⟨hptr, marks_markAllocated (by omega)⟩

/-! ### `alloc` -/

/-- **`alloc` is first fit.** Over every bitmap, a request of `n` bytes is answered with the least
frame from 1 on at which `⌈n / PAGE_SIZE⌉` unused frames below `frame_end` start. -/
theorem alloc_firstFit (reconstructed : Bool) (pa : PageAllocator)
    (hend : pa.frameEnd ≤ FRAME_COUNT) {n : Nat} (hn : 1 ≤ n) (hmax : n ≤ 2 ^ 64 - 4096) :
    ∃ ptr pa', pa.alloc reconstructed n = .ok (ptr, pa') ∧
      FirstFit reconstructed pa (1 ≤ ·) (framesFor n) ptr pa' := by
  have hpos := PageAllocatorOps.framesFor_pos hn
  by_cases hfree : ∃ f, pa.Free (1 ≤ ·) (framesFor n) f
  · obtain ⟨c, hc⟩ := exists_isLeast_free hfree
    obtain ⟨hC, hfit⟩ := (free_iff_fits hpos).mp hc.1
    obtain ⟨f, hfc, hf, hfits, hrun⟩ := alloc_finds reconstructed hn hmax hend hC hfit
    -- The search does not stop behind the least candidate, nor can it before.
    have heq : f = c := Nat.le_antisymm hfc (hc.2 ((free_iff_fits hpos).mpr ⟨hf, hfits⟩))
    subst heq
    exact ⟨_, _, hrun, firstFit_some reconstructed hend hpos (fun _ h => h) hc⟩
  · obtain ⟨found, hrun, hfound⟩ := pa.alloc_spec reconstructed n hmax hend
    cases found with
    | none => exact ⟨_, _, hrun, firstFit_none reconstructed hfree⟩
    | some f => exact absurd ⟨f, (free_iff_fits hpos).mpr (hfound f rfl)⟩ hfree

/-- Ten pages of the test map, whose last ten frames are the only block of that size. -/
theorem alloc_firstFit_testPa : ∃ pa', testPa.alloc false 0xA000 = .ok (0x5000, pa') ∧
    FirstFit false testPa (1 ≤ ·) 10 0x5000 pa' := by
  obtain ⟨ptr, pa', hrun, hfit⟩ := alloc_firstFit false testPa (by decide)
    (show 1 ≤ 0xA000 by decide) (by decide)
  have hptr : (testPa.alloc false 0xA000).toOption.map Prod.fst = some 0x5000 := by decide
  rw [hrun] at hptr
  obtain rfl : ptr = 0x5000 := Option.some.inj hptr
  exact ⟨pa', hrun, hfit⟩

/-! ### `alloc_aligned_pages` -/

/-- The candidates of `alloc_aligned_pages`: the positive multiples of the alignment in frames. -/
def AlignedFrame (d f : Nat) : Prop := 0 < f ∧ f % d = 0

/-- `alloc_aligned_pages` is first fit over the multiples of the alignment, and the physical
address of its answer is one. -/
def AlignedFirstFit (reconstructed : Bool) (pa : PageAllocator) (k a : Nat) : Prop :=
  ∃ ptr pa', pa.allocAlignedPages reconstructed k a = .ok (ptr, pa') ∧
    FirstFit reconstructed pa (AlignedFrame (a / PAGE_SIZE)) k ptr pa' ∧
    (ptr ≠ 0 → virt2phys reconstructed ptr % a = 0)

/-- What a search found is the candidate it started with or came from its step. -/
theorem search_found {next : Nat → Nat → Option Nat} {f : Nat} :
    ∀ gas start, pa.search k next gas start = .ok (some f) →
      f = start ∨ ∃ s i, next s i = some f := by
  intro gas
  induction gas with
  | zero =>
      intro start h
      cases h
  | succ gas ih =>
      intro start h
      simp only [search] at h
      cases hscan : pa.scan start 0 k with
      | outOfFrames =>
          rw [hscan] at h
          cases h
      | allUnused =>
          rw [hscan] at h
          cases h
          exact .inl rfl
      | usedAt i =>
          rw [hscan] at h
          dsimp only at h
          cases hn : next start i with
          | none =>
              rw [hn] at h
              cases h
          | some s' =>
              rw [hn] at h
              rcases ih s' h with rfl | hlater
              · exact .inr ⟨start, i, hn⟩
              · exact .inr hlater

/-- The step of `alloc_aligned_pages` gives up at the block that ends at `frame_end`. -/
theorem alignedNext_lt {d s i f : Nat} (h : pa.alignedNext k d s i = some f) :
    u64 (f + k) < pa.frameEnd := by
  simp only [alignedNext] at h
  split at h
  · cases h
  · rename_i hroom
    cases h
    exact Nat.not_le.mp hroom

/-- **`alloc_aligned_pages` is first fit but for one block.** It answers as first fit does if and
only if the least free block does not end at `frame_end`, or starts at the first candidate. -/
theorem allocAlignedPages_firstFit_iff (reconstructed : Bool) (pa : PageAllocator)
    (hend : pa.frameEnd ≤ FRAME_COUNT) {k a : Nat} (hk : 1 ≤ k) (hpos : 0 < a)
    (hsize : a < 2 ^ 64) (hal : a % PAGE_SIZE = 0) :
    AlignedFirstFit reconstructed pa k a ↔
      ∀ f, IsLeast {f | pa.Free (AlignedFrame (a / PAGE_SIZE)) k f} f →
        f + k = pa.frameEnd → f = a / PAGE_SIZE := by
  have hcount : FRAME_COUNT < 2 ^ 64 := by decide
  obtain ⟨hd, hlt⟩ := alignFrames_bounds hpos hal hsize
  obtain ⟨found, hsearch, hfound⟩ := pa.alignedSearch_spec k hd hlt hend
  have hrun : pa.allocAlignedPages reconstructed k a = .ok (pa.take reconstructed k found) := by
    rw [pa.allocAlignedPages_eq reconstructed k hal hsize, hsearch]
    rfl
  have hfree : ∀ f, found = some f → pa.Free (AlignedFrame (a / PAGE_SIZE)) k f := by
    intro f hf
    obtain ⟨h1, h2, h3⟩ := hfound f hf
    exact (free_iff_fits hk).mpr ⟨⟨h1, h2⟩, h3⟩
  constructor
  · rintro ⟨ptr, pa', hrun', hfit, -⟩ c hc hlast
    rw [hrun] at hrun'
    cases found with
    | none =>
        -- First fit would not answer `NULL`.
        cases hrun'
        exact absurd ⟨c, hc.1⟩ (hfit.null_iff.mp rfl)
    | some f =>
        -- A block that ends at `frame_end` is the last one, so the search found this one, and
        -- it came from the start and not from the step.
        have hf := hfree f rfl
        have heq : f = c := by
          have hle := hc.2 hf
          have hflast := hf.end_le
          omega
        rcases search_found _ _ hsearch with hstart | ⟨s, i, hnext⟩
        · rw [← heq, hstart]
        · have hroom := alignedNext_lt hnext
          rw [heq, hlast, u64_of_lt (by omega)] at hroom
          omega
  · intro hcond
    by_cases hany : ∃ f, pa.Free (AlignedFrame (a / PAGE_SIZE)) k f
    · obtain ⟨c, hc⟩ := exists_isLeast_free hany
      obtain ⟨⟨hcpos, hmod⟩, hfit⟩ := (free_iff_fits hk).mp hc.1
      have hroom : c + k < pa.frameEnd ∨ c = a / PAGE_SIZE := by
        rcases Nat.lt_or_eq_of_le hc.1.end_le with hbefore | hlast
        · exact .inl hbefore
        · exact .inr (hcond c hc hlast)
      obtain ⟨f, hfc, hf, hfmod, hfits, hruns⟩ := allocAlignedPages_finds reconstructed hk hpos
        hsize hal hend hcpos hmod hfit hroom
      have heq : f = c :=
        Nat.le_antisymm hfc (hc.2 ((free_iff_fits hk).mpr ⟨⟨hf, hfmod⟩, hfits⟩))
      subst heq
      refine ⟨_, _, hruns, firstFit_some reconstructed hend hk (fun _ h => h.1) hc, fun _ => ?_⟩
      have hle := hc.1.end_le
      obtain ⟨-, -, hphys⟩ := pa.take_some k reconstructed hf
        (show f < FRAME_COUNT by omega)
      show virt2phys reconstructed (pa.take reconstructed k (some f)).1 % a = 0
      rw [hphys]
      exact frame_mul_mod hal hfmod
    · cases found with
      | none => exact ⟨_, _, hrun, firstFit_none reconstructed hany, fun h => absurd rfl h⟩
      | some f => exact absurd ⟨f, hfree f rfl⟩ hany

/-- Pages aligned to 8 frames: frame 8 is free and far from the end. -/
theorem allocAlignedPages_firstFit_testPa : AlignedFirstFit false testPa 2 0x8000 := by
  refine (allocAlignedPages_firstFit_iff false testPa (by decide) (by decide) (by decide)
    (by decide) (by decide)).mpr ?_
  intro f hf hlast
  have hfirst : testPa.Free (AlignedFrame 8) 2 8 :=
    (free_iff_fits (by decide)).mpr ⟨⟨by decide, by decide⟩, by unfold Fits; decide⟩
  have hle : f ≤ 8 := hf.2 hfirst
  have hframes : testPa.frameEnd = 15 := by decide
  omega

/-- The last ten frames of the test map are free, and `alloc_aligned_pages` does not find them. -/
theorem not_allocAlignedPages_firstFit :
    testPa.frameEnd ≤ FRAME_COUNT ∧ testPa.Free (AlignedFrame 1) 10 5 ∧
      ¬ AlignedFirstFit false testPa 10 0x1000 := by
  have hfree : testPa.Free (AlignedFrame 1) 10 5 :=
    (free_iff_fits (by decide)).mpr ⟨⟨by decide, by decide⟩, by unfold Fits; decide⟩
  refine ⟨by decide, hfree, ?_⟩
  rintro ⟨ptr, pa', hrun, hfit, -⟩
  have hnull : (testPa.allocAlignedPages false 10 0x1000).toOption.map Prod.fst = some 0 := by
    decide
  rw [hrun] at hnull
  exact hfit.null_iff.mp (Option.some.inj hnull) ⟨5, hfree⟩

/-! ### The alignment 0 -/

/-- The loop of `alloc_aligned_pages` ends after some number of rounds, the call answers with what
it found, and the block found does not hold frame 0. -/
def EndsWithoutFrameZero (reconstructed : Bool) (pa : PageAllocator) (k a : Nat) : Prop :=
  ∃ gas found, pa.search k (pa.alignedNext k (a / PAGE_SIZE)) gas (a / PAGE_SIZE) = .ok found ∧
    pa.allocAlignedPages reconstructed k a = .ok (pa.take reconstructed k found) ∧
    ∀ f, found = some f → 0 ∉ Extent.mk f k

/-- With the alignment 0 the candidate behind frame 0 is frame 0, unless the block is as large as
memory. -/
theorem alignedNext_zero (hk : k < 2 ^ 64) (i : Nat) :
    pa.alignedNext k 0 0 i = if pa.frameEnd ≤ k then none else some 0 := by
  have hzero : u64 0 = 0 := rfl
  simp only [alignedNext, Nat.add_zero, Nat.zero_add, hzero, u64_of_lt hk]

/-- A used frame sends the search back to frame 0, for ever when the block is smaller than
memory. -/
theorem search_zero_loops (hk : k < 2 ^ 64) (hlt : k < pa.frameEnd) {i : Nat}
    (hused : pa.scan 0 0 k = .usedAt i) :
    ∀ gas, pa.search k (pa.alignedNext k 0) gas 0 = .error .loop := by
  intro gas
  induction gas with
  | zero => rfl
  | succ gas ih =>
      simp only [search, hused, alignedNext_zero hk, if_neg (Nat.not_le.mpr hlt)]
      exact ih

theorem search_zero_null (hk : k < 2 ^ 64) (hle : pa.frameEnd ≤ k)
    (hscan : pa.scan 0 0 k ≠ .allUnused) (gas : Nat) :
    pa.search k (pa.alignedNext k 0) (gas + 1) 0 = .ok none := by
  simp only [search]
  cases h : pa.scan 0 0 k with
  | outOfFrames => rfl
  | allUnused => exact absurd h hscan
  | usedAt i => simp only [alignedNext_zero hk, if_pos hle]

/-- With the alignment 0 the call returns, and not frame 0, exactly when the block does not fit into
memory. -/
theorem endsWithoutFrameZero_zero (reconstructed : Bool) (hend : pa.frameEnd ≤ FRAME_COUNT)
    (hk : 1 ≤ k) (hsize : k < 2 ^ 64) :
    EndsWithoutFrameZero reconstructed pa k 0 ↔
      pa.frameEnd < k ∨ k = pa.frameEnd ∧ ∃ f < pa.frameEnd, pa.frameStatusAt f = .used := by
  have hcount : FRAME_COUNT < 2 ^ 64 := by decide
  have hscan := pa.scan_spec 0 (by decide) (by omega) k 0 (by simp)
  simp only [Nat.zero_add] at hscan
  constructor
  · rintro ⟨gas, found, hrun, -, hzero⟩
    rw [Nat.zero_div] at hrun
    cases hres : pa.scan 0 0 k with
    | outOfFrames =>
        rw [hres] at hscan
        obtain ⟨j, hj, hle⟩ := hscan
        omega
    | allUnused =>
        -- The block found starts with frame 0.
        cases gas with
        | zero => cases hrun
        | succ gas =>
            simp only [search, hres] at hrun
            cases hrun
            exact absurd ((Extent.mem_mk ..).mpr ⟨Nat.le_refl 0, by omega⟩) (hzero 0 rfl)
    | usedAt i =>
        rw [hres] at hscan
        obtain ⟨-, hi, hused⟩ := hscan
        rcases Nat.lt_trichotomy k pa.frameEnd with hlt | heq | hgt
        · rw [search_zero_loops hsize hlt hres gas] at hrun
          cases hrun
        · exact .inr ⟨heq, i, hi, hused⟩
        · exact .inl hgt
  · intro hcond
    have hle : pa.frameEnd ≤ k := by
      rcases hcond with h | ⟨h, -⟩ <;> omega
    have hne : pa.scan 0 0 k ≠ .allUnused := by
      intro hall
      rw [hall] at hscan
      have hroom := Fits.end_le hscan hk
      rcases hcond with h | ⟨-, f, hf, hused⟩
      · omega
      · rw [← Nat.zero_add f, (hscan f (by omega)).2] at hused
        cases hused
    have hrun := search_zero_null hsize hle hne pa.frameEnd
    refine ⟨pa.frameEnd + 1, none, by rwa [Nat.zero_div], ?_, by simp⟩
    rw [pa.allocAlignedPages_eq reconstructed k (Nat.zero_mod _) (by decide), Nat.zero_div, hrun]
    rfl

/-- **When `alloc_aligned_pages` ends and spares frame 0.** Of all alignments its check lets
through it is the 0 alone that breaks this, for every block that memory has room for. -/
theorem allocAlignedPages_ends_iff (reconstructed : Bool) (pa : PageAllocator)
    (hend : pa.frameEnd ≤ FRAME_COUNT) {k a : Nat} (hk : 1 ≤ k) (hksize : k < 2 ^ 64)
    (hal : a % PAGE_SIZE = 0) (hsize : a < 2 ^ 64) :
    EndsWithoutFrameZero reconstructed pa k a ↔
      a ≠ 0 ∨ pa.frameEnd < k ∨
        k = pa.frameEnd ∧ ∃ f < pa.frameEnd, pa.frameStatusAt f = .used := by
  rcases Nat.eq_zero_or_pos a with rfl | hpos
  · rw [endsWithoutFrameZero_zero reconstructed hend hk hksize]
    simp
  · refine iff_of_true ?_ (.inl (by omega))
    obtain ⟨hd, hlt⟩ := alignFrames_bounds hpos hal hsize
    obtain ⟨found, hsearch, hfound⟩ := pa.alignedSearch_spec k hd hlt hend
    refine ⟨pa.frameEnd + 1, found, hsearch, ?_, ?_⟩
    · rw [pa.allocAlignedPages_eq reconstructed k hal hsize, hsearch]
      rfl
    · intro f hf hmem
      have hge := (hfound f hf).1
      rw [Extent.mem_mk] at hmem
      omega

/-- The alignment of one page, at the test map. -/
theorem allocAlignedPages_ends_testPa : EndsWithoutFrameZero false testPa 3 0x1000 :=
  (allocAlignedPages_ends_iff false testPa (by decide) (by decide) (by decide) (by decide)
    (by decide)).mpr (.inl (by decide))

/-- At the test map the alignment 0 passes the check; one page is then frame 0, and for three pages
the loop does not end. -/
theorem not_allocAlignedPages_ends :
    (0 % PAGE_SIZE = 0 ∧ ¬ EndsWithoutFrameZero false testPa 1 0 ∧
      (testPa.allocAlignedPages false 1 0).toOption.map (fun r => r.2.frameStatusAt 0)
        = some .used) ∧
    ¬ EndsWithoutFrameZero false testPa 3 0 ∧
      ∀ gas, testPa.search 3 (testPa.alignedNext 3 0) gas 0 = .error .loop := by
  have hframes : testPa.frameEnd = 15 := by decide
  have hcount : testPa.frameEnd ≤ FRAME_COUNT := by decide
  have hend : ∀ k, 1 ≤ k → k < 15 → ¬ EndsWithoutFrameZero false testPa k 0 := by
    intro k hk hlt
    rw [endsWithoutFrameZero_zero false hcount hk (by omega), hframes]
    omega
  refine ⟨⟨rfl, hend 1 (by decide) (by decide), by decide⟩,
    hend 3 (by decide) (by decide), ?_⟩
  exact search_zero_loops (i := 2) (by decide) (by omega) (by decide)

end PageAllocator

end YmirC
