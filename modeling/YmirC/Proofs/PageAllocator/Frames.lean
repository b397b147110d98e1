import YmirC.PageAllocator
import YmirC.Proofs.Bits
import YmirC.Proofs.Mem
import YmirC.Proofs.PageAllocatorIf

/-!
# `YmirC.Proofs.PageAllocator.Frames`: frames, marks and the two searches

The bitmap is read and written through `frameStatusAt` only. `frameStatusAt_setFrameStatus`
is the one fact about bits; everything above it speaks of the status of frames.

`Fits pa f k` says that `k` unused frames below `frame_end` start at `f`. `search_spec` is
the one statement about the search loops: a search whose step moves forward returns, and
what it found fits. `alloc_spec` and `allocAlignedPages_spec` are its two uses.
-/

set_option autoImplicit false

namespace YmirC

namespace PageAllocator

variable (pa : PageAllocator)

/-! ### Status of single frames -/

theorem frameStatusAt_eq (frame : Nat) :
    pa.frameStatusAt frame =
      if (pa.bitmap (frame / BITS_PER_MAPLINE)).getLsbD (frame % BITS_PER_MAPLINE) then .used
      else .unused := by
  have hbit : frame % BITS_PER_MAPLINE < 64 := Nat.mod_lt _ (by decide)
  have hzero := and_tobit_eq_zero (pa.bitmap (frame / BITS_PER_MAPLINE)) _ hbit
  simp only [frameStatusAt, ne_eq, hzero]
  cases (pa.bitmap (frame / BITS_PER_MAPLINE)).getLsbD (frame % BITS_PER_MAPLINE) <;> rfl

theorem frameStatusAt_ne_used (frame : Nat) :
    pa.frameStatusAt frame ≠ .used ↔ pa.frameStatusAt frame = .unused := by
  cases pa.frameStatusAt frame <;> simp

/-- Setting the status of one frame sets it and no other. -/
theorem frameStatusAt_setFrameStatus (f g : Nat) (status : FrameStatus) :
    (pa.setFrameStatus f status).frameStatusAt g
      = if g = f then status else pa.frameStatusAt g := by
  rw [frameStatusAt_eq, frameStatusAt_eq]
  have hbit : g % BITS_PER_MAPLINE < 64 := Nat.mod_lt _ (by decide)
  have hfbit : f % BITS_PER_MAPLINE < 64 := Nat.mod_lt _ (by decide)
  -- A frame is its line of the bitmap and its bit in the line.
  have hsame : g = f ↔
      g / BITS_PER_MAPLINE = f / BITS_PER_MAPLINE ∧
        g % BITS_PER_MAPLINE = f % BITS_PER_MAPLINE := by
    constructor
    · intro h
      rw [h]
      exact ⟨rfl, rfl⟩
    · intro ⟨hd, hm⟩
      rw [← Nat.div_add_mod g BITS_PER_MAPLINE, hd, hm, Nat.div_add_mod]
  simp only [setFrameStatus]
  by_cases hline : g / BITS_PER_MAPLINE = f / BITS_PER_MAPLINE
  · cases status with
    | used =>
        simp only [hline, if_true, BitVec.getLsbD_or, getLsbD_tobit, hfbit, true_and]
        by_cases hb : g % BITS_PER_MAPLINE = f % BITS_PER_MAPLINE
        · rw [if_pos (hsame.mpr ⟨hline, hb⟩)]
          simp [hb]
        · rw [if_neg (fun h => hb (hsame.mp h).2)]
          simp [hb]
    | unused =>
        simp only [hline, if_true, reduceCtorEq, if_false, BitVec.getLsbD_and,
          BitVec.getLsbD_not, getLsbD_tobit, hfbit, true_and, hbit, decide_true, Bool.true_and]
        by_cases hb : g % BITS_PER_MAPLINE = f % BITS_PER_MAPLINE
        · rw [if_pos (hsame.mpr ⟨hline, hb⟩)]
          simp [hb]
        · rw [if_neg (fun h => hb (hsame.mp h).2)]
          simp [hb]
  · -- Another line is not written at all.
    rw [if_neg (fun h => hline (hsame.mp h).1)]
    simp only [hline, if_false]

/-- Two allocators that give every frame the same status have the same bitmap. -/
theorem bitmap_ext {pa pa' : PageAllocator}
    (h : ∀ f, pa.frameStatusAt f = pa'.frameStatusAt f) : pa.bitmap = pa'.bitmap := by
  funext line
  apply BitVec.eq_of_getLsbD_eq
  intro i hi
  have hline : (BITS_PER_MAPLINE * line + i) / BITS_PER_MAPLINE = line := by
    simp only [BITS_PER_MAPLINE]
    omega
  have hbit : (BITS_PER_MAPLINE * line + i) % BITS_PER_MAPLINE = i := by
    simp only [BITS_PER_MAPLINE]
    omega
  have hf := h (BITS_PER_MAPLINE * line + i)
  rw [frameStatusAt_eq, frameStatusAt_eq, hline, hbit] at hf
  cases h1 : (pa.bitmap line).getLsbD i <;> cases h2 : (pa'.bitmap line).getLsbD i <;>
    simp_all

/-! ### Marking ranges -/

theorem mark_frameEnd (status : FrameStatus) (frame n : Nat) :
    (mark status pa frame n).frameEnd = pa.frameEnd := by
  induction n with
  | zero => rfl
  | succ n ih => exact ih

theorem mark_reservedRegions (status : FrameStatus) (frame n : Nat) :
    (mark status pa frame n).reservedRegions = pa.reservedRegions := by
  induction n with
  | zero => rfl
  | succ n ih => exact ih

/-- Marking a range that does not wrap sets the status of its frames and of no other. -/
theorem frameStatusAt_mark (status : FrameStatus) (frame n g : Nat) (hn : frame + n ≤ 2 ^ 64) :
    (mark status pa frame n).frameStatusAt g
      = if g ∈ Extent.mk frame n then status else pa.frameStatusAt g := by
  induction n with
  | zero =>
      rw [if_neg (by simp [Extent.mem_def])]
      rfl
  | succ n ih =>
      have hu : u64 (frame + n) = frame + n := u64_of_lt (by omega)
      show ((mark status pa frame n).setFrameStatus (u64 (frame + n)) status).frameStatusAt g = _
      rw [frameStatusAt_setFrameStatus, hu, ih (by omega)]
      simp only [Extent.mem_def]
      by_cases hg : g = frame + n
      · rw [if_pos hg, if_pos (by omega)]
      · have hiff : (frame ≤ g ∧ g < frame + n) ↔ (frame ≤ g ∧ g < frame + (n + 1)) := by omega
        rw [if_neg hg, if_congr hiff rfl rfl]

/-! ### Searching -/

/-- `k` unused frames below `frame_end` start at `f`. -/
def Fits (f k : Nat) : Prop := ∀ j < k, f + j < pa.frameEnd ∧ pa.frameStatusAt (f + j) = .unused

variable {pa} in
theorem Fits.end_le {f k : Nat} (h : pa.Fits f k) (hk : 0 < k) : f + k ≤ pa.frameEnd := by
  have hlast := (h (k - 1) (by omega)).1
  omega

variable {pa} in
theorem Fits.unused {f k g : Nat} (h : pa.Fits f k) (hg : g ∈ Extent.mk f k) :
    pa.frameStatusAt g = .unused := by
  rw [Extent.mem_mk] at hg
  have hg' := (h (g - f) (by omega)).2
  rwa [show f + (g - f) = g by omega] at hg'

/-- The inner loop, from round `i` on: what each of its answers means. -/
theorem scan_spec (start : Nat) (hstart : start < 2 ^ 64) (hend : pa.frameEnd < 2 ^ 64) :
    ∀ remaining i, (∀ j < i, start + j < pa.frameEnd ∧ pa.frameStatusAt (start + j) = .unused) →
      match pa.scan start i remaining with
      | .allUnused => pa.Fits start (i + remaining)
      | .usedAt j => j < i + remaining ∧ start + j < pa.frameEnd ∧
          pa.frameStatusAt (start + j) = .used
      | .outOfFrames => ∃ j < i + remaining, pa.frameEnd ≤ start + j := by
  intro remaining
  induction remaining with
  | zero =>
      intro i hi
      exact hi
  | succ remaining ih =>
      intro i hi
      -- No wrap: the previous round was still below `frame_end`.
      have hlt : start + i < 2 ^ 64 := by
        rcases Nat.eq_zero_or_pos i with h0 | hpos
        · omega
        · have := (hi (i - 1) (by omega)).1
          omega
      simp only [scan, u64_of_lt hlt]
      -- The tests of the loop body in order: the end of memory, then the bitmap.
      by_cases hout : start + i ≥ pa.frameEnd
      · rw [if_pos hout]
        exact ⟨i, by omega, hout⟩
      · rw [if_neg hout]
        by_cases hused : pa.frameStatusAt (start + i) = .used
        · rw [if_pos hused]
          exact ⟨by omega, by omega, hused⟩
        · rw [if_neg hused]
          have hunused := (pa.frameStatusAt_ne_used _).mp hused
          -- One more frame is known to be unused.
          have hnext := ih (i + 1) (by
            intro j hj
            by_cases hji : j = i
            · rw [hji]
              exact ⟨by omega, hunused⟩
            · exact hi j (by omega))
          rw [show i + 1 + remaining = i + (remaining + 1) by omega] at hnext
          exact hnext

/-- A search whose step moves forward along the frames of `C` returns, and what it found is
in `C` and fits. -/
theorem search_spec (numFrames : Nat) (next : Nat → Nat → Option Nat) (C : Nat → Prop)
    (hend : pa.frameEnd < 2 ^ 64) (hC : ∀ f, C f → f < 2 ^ 64)
    (hnext : ∀ s i s', C s → s < pa.frameEnd → i < numFrames → s + i < pa.frameEnd →
      next s i = some s' → s < s' ∧ C s') :
    ∀ gas start, C start → pa.frameEnd < gas + start → 0 < gas →
      ∃ found, pa.search numFrames next gas start = .ok found ∧
        ∀ f, found = some f → C f ∧ pa.Fits f numFrames := by
  intro gas
  induction gas with
  | zero =>
      intro _ _ _ h
      omega
  | succ gas ih =>
      intro start hstart hgas _
      have hscan := pa.scan_spec start (hC start hstart) hend numFrames 0 (by simp)
      simp only [search]
      cases hres : pa.scan start 0 numFrames with
      | outOfFrames => exact ⟨none, rfl, by simp⟩
      | allUnused =>
          rw [hres, Nat.zero_add] at hscan
          refine ⟨some start, rfl, ?_⟩
          intro f hf
          cases hf
          exact ⟨hstart, hscan⟩
      | usedAt i =>
          rw [hres, Nat.zero_add] at hscan
          obtain ⟨hi, hlt, -⟩ := hscan
          dsimp only
          cases hn : next start i with
          | none => exact ⟨none, rfl, by simp⟩
          | some s' =>
              -- The next candidate is behind this one, so the distance to `frame_end` shrinks
              -- with the gas.
              obtain ⟨hgt, hs'⟩ := hnext start i s' hstart (by omega) hi hlt hn
              exact ih s' hs' (by omega) (by omega)

/-- What a search found fits, whether or not its step moves forward. -/
theorem search_fits {numFrames : Nat} {next : Nat → Nat → Option Nat} {f : Nat}
    (hend : pa.frameEnd < 2 ^ 64) (hnext : ∀ {s i s'}, next s i = some s' → s' < 2 ^ 64) :
    ∀ gas start, start < 2 ^ 64 → pa.search numFrames next gas start = .ok (some f) →
      pa.Fits f numFrames := by
  intro gas
  induction gas with
  | zero =>
      intro start _ hrun
      cases hrun
  | succ gas ih =>
      intro start hstart hrun
      have hscan := pa.scan_spec start hstart hend numFrames 0 (by simp)
      simp only [search] at hrun
      cases hres : pa.scan start 0 numFrames with
      | outOfFrames =>
          rw [hres] at hrun
          cases hrun
      | allUnused =>
          rw [hres] at hrun hscan
          -- Only a scan over unused frames ends the search with a frame.
          cases hrun
          rw [Nat.zero_add] at hscan
          exact hscan
      | usedAt i =>
          rw [hres] at hrun
          dsimp only at hrun
          cases hn : next start i with
          | none =>
              rw [hn] at hrun
              cases hrun
          | some s' =>
              rw [hn] at hrun
              exact ih s' (hnext hn) hrun

/-- The number of frames `alloc` and `free` compute. -/
theorem u64_framesFor {n : Nat} (hn : n ≤ 2 ^ 64 - PAGE_SIZE) :
    u64 (n + PAGE_SIZE - 1) / PAGE_SIZE = framesFor n := by
  have hlt : n + PAGE_SIZE - 1 < 2 ^ 64 := by
    simp only [PAGE_SIZE] at *
    omega
  rw [u64_of_lt hlt, framesFor]

/-- `alloc` returns, and what it found fits and does not hold frame 0. -/
theorem alloc_spec (reconstructed : Bool) (n : Nat) (hn : n ≤ 2 ^ 64 - PAGE_SIZE)
    (hend : pa.frameEnd ≤ FRAME_COUNT) :
    ∃ found, pa.alloc reconstructed n = .ok (pa.take reconstructed (framesFor n) found) ∧
      ∀ f, found = some f → 1 ≤ f ∧ pa.Fits f (framesFor n) := by
  have hcount : FRAME_COUNT < 2 ^ 64 := by decide
  obtain ⟨found, hrun, hfound⟩ := pa.search_spec (framesFor n) allocNext
    (fun f => 1 ≤ f ∧ f < 2 ^ 64) (by omega) (fun f hf => hf.2) (by
      intro s i s' hs hlt hi hsi hnext
      have hu : u64 (s + (i + 1)) = s + (i + 1) := u64_of_lt (by omega)
      simp only [allocNext, hu, Option.some.injEq] at hnext
      omega)
    (pa.frameEnd + 1) frameBegin (by decide) (by unfold frameBegin; omega) (by omega)
  refine ⟨found, ?_, fun f hf => ⟨(hfound f hf).1.1, (hfound f hf).2⟩⟩
  simp only [alloc, u64_framesFor hn, hrun]
  rfl

/-- The alignment in frames that `alloc_aligned_pages` computes. -/
theorem u64_alignFrames {a : Nat} (hal : a % PAGE_SIZE = 0) (hsize : a < 2 ^ 64) :
    u64 (a + PAGE_SIZE - 1) / PAGE_SIZE = a / PAGE_SIZE := by
  simp only [PAGE_SIZE] at *
  have hlt : a + 4096 - 1 < 2 ^ 64 := by omega
  rw [u64_of_lt hlt]
  omega

/-- `alloc_aligned_pages` with a valid alignment is its search. -/
theorem allocAlignedPages_eq (reconstructed : Bool) (numPages : Nat) {a : Nat}
    (hal : a % PAGE_SIZE = 0) (hsize : a < 2 ^ 64) :
    pa.allocAlignedPages reconstructed numPages a
      = (pa.search numPages (pa.alignedNext numPages (a / PAGE_SIZE)) (pa.frameEnd + 1)
          (a / PAGE_SIZE)) >>= fun found => .ok (pa.take reconstructed numPages found) := by
  unfold allocAlignedPages
  rw [if_neg (not_not.mpr hal), u64_alignFrames hal hsize]
  rfl

/-- The search of `alloc_aligned_pages` returns, and what it found fits and is aligned. -/
theorem alignedSearch_spec (numPages : Nat) {d : Nat} (hpos : 1 ≤ d) (hd : d < 2 ^ 63)
    (hend : pa.frameEnd ≤ FRAME_COUNT) :
    ∃ found, pa.search numPages (pa.alignedNext numPages d) (pa.frameEnd + 1) d = .ok found ∧
      ∀ f, found = some f → 1 ≤ f ∧ f % d = 0 ∧ pa.Fits f numPages := by
  have hcount : FRAME_COUNT < 2 ^ 63 := by decide
  obtain ⟨found, hrun, hfound⟩ := pa.search_spec numPages (pa.alignedNext numPages d)
    (fun f => 1 ≤ f ∧ f % d = 0 ∧ f < 2 ^ 64) (by omega) (fun f hf => hf.2.2) (by
      intro s i s' hs hlt _ _ hnext
      have hu : u64 (s + d) = s + d := u64_of_lt (by omega)
      simp only [alignedNext, hu] at hnext
      -- The step gives up when the block would reach `frame_end`; else it goes to the next
      -- multiple.
      split at hnext
      · cases hnext
      · cases hnext
        refine ⟨by omega, by omega, ?_, by omega⟩
        rw [Nat.add_mod_right]
        exact hs.2.1)
    (pa.frameEnd + 1) d ⟨hpos, Nat.mod_self d, by omega⟩ (by omega) (by omega)
  exact ⟨found, hrun, fun f hf => ⟨(hfound f hf).1.1, (hfound f hf).1.2.1, (hfound f hf).2⟩⟩

/-- The alignment in frames of a valid alignment. -/
theorem alignFrames_bounds {a : Nat} (hpos : 0 < a) (hal : a % PAGE_SIZE = 0)
    (hsize : a < 2 ^ 64) : 1 ≤ a / PAGE_SIZE ∧ a / PAGE_SIZE < 2 ^ 63 := by
  simp only [PAGE_SIZE] at *
  omega

/-- `alloc_aligned_pages` with a valid alignment returns, and what it found fits and is
aligned. -/
theorem allocAlignedPages_spec (reconstructed : Bool) (numPages alignSize : Nat)
    (hpos : 0 < alignSize) (hal : alignSize % PAGE_SIZE = 0) (hsize : alignSize < 2 ^ 64)
    (hend : pa.frameEnd ≤ FRAME_COUNT) :
    ∃ found, pa.allocAlignedPages reconstructed numPages alignSize
        = .ok (pa.take reconstructed numPages found) ∧
      ∀ f, found = some f → 1 ≤ f ∧ f % (alignSize / PAGE_SIZE) = 0 ∧ pa.Fits f numPages := by
  obtain ⟨hd, hlt⟩ := alignFrames_bounds hpos hal hsize
  obtain ⟨found, hrun, hfound⟩ := pa.alignedSearch_spec numPages hd hlt hend
  refine ⟨found, ?_, hfound⟩
  rw [pa.allocAlignedPages_eq reconstructed numPages hal hsize, hrun]
  rfl

end PageAllocator

end YmirC
