import YmirC.Proofs.PageAllocator.Events
import YmirC.Proofs.PageAllocator.Reserved

/-!
# `YmirC.Proofs.PageAllocator.Order`: when a memory map may come in any order

The allocating calls look at the bitmap and `free` at the table of regions. On a map that is not
sorted the two can disagree: a hole is recorded as a region, and a usable descriptor that comes
later and lies in the hole is unmarked, while the region stays in the table. Its frames can be
allocated, and their release panics.

`ReleasedFrame map f` is this situation in terms of the map: `f` is in a usable descriptor, the
loop passed over it on the way there, and does not pass over it again behind. `released_iff`
says that these are exactly the unused frames in a recorded region, and `free_returns_iff` that
the release of live blocks never panics exactly when there is no such frame that can be
allocated.
-/

set_option autoImplicit false

namespace YmirC

open Runs (Reachable)

namespace PageAllocator

/-- The loop of `page_allocator_init`, starting at `physEnd`, marks frame `f` as part of a hole:
one in front of a descriptor, or the rest of memory at the descriptor that ends the loop. -/
def passesOver : Nat → List EfiMemoryDescriptor → Nat → Bool
  | _, [], _ => false
  | physEnd, d :: rest, f =>
      if d.physicalEnd ≥ MAX_PHYSICAL_SIZE then
        decide (min physEnd d.physicalStart ≤ f * PAGE_SIZE ∧ f * PAGE_SIZE < MAX_PHYSICAL_SIZE)
      else decide (physEnd ≤ f * PAGE_SIZE ∧ f * PAGE_SIZE < d.physicalStart) ||
        passesOver d.physicalEnd rest f

/-- Frame `f` of a usable descriptor was passed over in front of the descriptor and is not
passed over behind it. -/
def ReleasedFrame (map : List EfiMemoryDescriptor) (f : Nat) : Prop :=
  ∃ pre d post, map = pre ++ d :: post ∧ (∀ e ∈ pre ++ [d], e.physicalEnd < MAX_PHYSICAL_SIZE) ∧
    isUsableMemory d = true ∧ f ∈ d.frames ∧ passesOver 0 pre f = true ∧
    passesOver d.physicalEnd post f = false

/-- The reserving events hold the frames passed over and those of the descriptors that are not
usable. -/
theorem exists_reserve_iff {physEnd f : Nat} {map : List EfiMemoryDescriptor}
    (h : LoopAt physEnd map) :
    (∃ e ∈ initEvents physEnd map, e.status = .used ∧ f ∈ e.frames) ↔
      passesOver physEnd map f = true ∨
        ∃ d ∈ readDescs map, isUsableMemory d = false ∧ f ∈ d.frames := by
  induction map generalizing physEnd with
  | nil => simp [initEvents, passesOver, readDescs]
  | cons d rest ih =>
      have hd := h.head
      by_cases hlt : d.physicalEnd < MAX_PHYSICAL_SIZE
      · have hword : MAX_PHYSICAL_SIZE < 2 ^ 64 := by decide
        have hstart : d.physicalStart ≤ d.physicalEnd := Nat.le_add_right _ _
        -- The three kinds of events of a descriptor that is read, each in terms of its frames.
        have hhole : (∃ e ∈ holeEvent physEnd d.physicalStart, e.status = .used ∧ f ∈ e.frames) ↔
            physEnd ≤ f * PAGE_SIZE ∧ f * PAGE_SIZE < d.physicalStart := by
          rw [← mem_holeEvent h.aligned hd.aligned (by omega)]
          constructor
          · rintro ⟨e, he, -, hfe⟩
            exact ⟨e, he, hfe⟩
          · rintro ⟨e, he, hfe⟩
            exact ⟨e, he, status_of_mem_holeEvent he, hfe⟩
        have hown : ((ownEvent d).status = .used ∧ f ∈ (ownEvent d).frames) ↔
            isUsableMemory d = false ∧ f ∈ d.frames := by
          rw [ownEvent_status, ownEvent_frames]
          cases isUsableMemory d <;> simp
        rw [initEvents_of_lt hlt, readDescs_of_lt hlt, passesOver, if_neg (Nat.not_le.mpr hlt)]
        simp only [List.mem_append, List.mem_cons, or_and_right, exists_or, exists_eq_left, hhole,
          hown, ih (h.next hlt), Bool.or_eq_true, decide_eq_true_eq]
        constructor
        · rintro (hf | hf | hf | hf)
          · exact .inl (.inl hf)
          · exact .inr (.inl hf)
          · exact .inl (.inr hf)
          · exact .inr (.inr hf)
        · rintro ((hf | hf) | hf | hf)
          · exact .inl hf
          · exact .inr (.inr (.inl hf))
          · exact .inr (.inl hf)
          · exact .inr (.inr (.inr hf))
      · have hge := Nat.not_lt.mp hlt
        -- The descriptor that ends the loop reserves the rest of memory, and is not read.
        rw [initEvents_of_ge hge, readDescs_of_ge hge, passesOver, if_pos hge, decide_eq_true_eq,
          ← mem_lastEvents hd h.aligned h.inRange]
        constructor
        · rintro ⟨e, he, -, hfe⟩
          exact .inl ⟨e, he, hfe⟩
        · rintro (⟨e, he, hfe⟩ | ⟨d', hd', -⟩)
          · exact ⟨e, he, status_of_mem_lastEvents he, hfe⟩
          · cases hd'

/-- The events of a map around one of the descriptors that were read. -/
theorem initEvents_split {physEnd : Nat} {pre post : List EfiMemoryDescriptor}
    {d : EfiMemoryDescriptor} (h : LoopAt physEnd (pre ++ d :: post))
    (hread : ∀ e ∈ pre ++ [d], e.physicalEnd < MAX_PHYSICAL_SIZE) :
    ∃ q, LoopAt q (d :: post) ∧ initEvents physEnd (pre ++ d :: post) =
      initEvents physEnd pre ++
        (holeEvent q d.physicalStart ++ ownEvent d :: initEvents d.physicalEnd post) := by
  induction pre generalizing physEnd with
  | nil => exact ⟨physEnd, h, initEvents_of_lt (hread d (by simp))⟩
  | cons d₀ pre ih =>
      have hlt : d₀.physicalEnd < MAX_PHYSICAL_SIZE := hread d₀ (by simp)
      -- `q` is where the loop stands when it comes to `d`.
      obtain ⟨q, hq, heq⟩ := ih (h.next hlt) (fun e he => hread e (List.mem_cons_of_mem d₀ he))
      refine ⟨q, hq, ?_⟩
      rw [List.cons_append, initEvents_of_lt hlt, initEvents_of_lt hlt, heq]
      simp only [List.append_assoc, List.cons_append]

/-- A descriptor that was read, with those in front of it and behind it. -/
theorem exists_split_of_mem_readDescs {map : List EfiMemoryDescriptor} {d : EfiMemoryDescriptor}
    (h : d ∈ readDescs map) :
    ∃ pre post, map = pre ++ d :: post ∧
      ∀ e ∈ pre ++ [d], e.physicalEnd < MAX_PHYSICAL_SIZE := by
  obtain ⟨pre, post, hsplit⟩ := List.append_of_mem h
  refine ⟨pre, post ++ map.dropWhile fun d => d.physicalEnd < MAX_PHYSICAL_SIZE, ?_, ?_⟩
  · have hall : readDescs map ++ map.dropWhile (fun d => d.physicalEnd < MAX_PHYSICAL_SIZE) = map :=
      List.takeWhile_append_dropWhile
    rw [hsplit] at hall
    simpa using hall.symm
  · intro e he
    have hmem : e ∈ readDescs map := by
      rw [hsplit]
      rcases List.mem_append.mp he with he | he
      · exact List.mem_append_left _ he
      · rw [List.mem_singleton.mp he]
        exact List.mem_append_right _ List.mem_cons_self
    exact (mem_of_mem_readDescs hmem).2

/-- A frame of one descriptor is in none of the others. -/
theorem notMem_of_split {pre post : List EfiMemoryDescriptor} {d : EfiMemoryDescriptor}
    (hmap : DisjointMap (pre ++ d :: post)) {f : Nat} (hf : f ∈ d.frames) :
    ∀ e ∈ pre ++ post, f ∉ e.frames := by
  have hdm : d ∈ pre ++ d :: post := List.mem_append_right _ List.mem_cons_self
  obtain ⟨-, htail, hcross⟩ := List.pairwise_append.mp hmap.disjoint
  rw [(hmap.placed d hdm).mem_bytes] at hf
  intro e he hfe
  rcases List.mem_append.mp he with he | he
  · rw [(hmap.placed e (List.mem_append_left _ he)).mem_bytes] at hfe
    exact hcross e he d List.mem_cons_self _ hfe hf
  · rw [(hmap.placed e (List.mem_append_right _ (List.mem_cons_of_mem d he))).mem_bytes] at hfe
    exact (List.pairwise_cons.mp htail).1 e he _ hf hfe

/-- Behind its own descriptor, a frame is only held by reserving events, and by one exactly when
it is passed over there. -/
theorem mem_events_behind {physEnd : Nat} {post : List EfiMemoryDescriptor}
    (hat : LoopAt physEnd post) {f : Nat} (hfree : ∀ e ∈ post, f ∉ e.frames) :
    (∀ e ∈ initEvents physEnd post, f ∈ e.frames → e.status = .used) ∧
      ((∃ e ∈ initEvents physEnd post, e.status = .used ∧ f ∈ e.frames) ↔
        passesOver physEnd post f = true) := by
  constructor
  · intro e he hfe
    cases hs : e.status with
    | used => rfl
    | unused =>
        obtain ⟨d', hd', -, rfl⟩ := exists_desc_of_release he hs
        rw [ownEvent_frames] at hfe
        exact absurd hfe (hfree d' (mem_of_mem_readDescs hd').1)
  · rw [exists_reserve_iff hat]
    constructor
    · rintro (hpass | ⟨d', hd', -, hfd'⟩)
      · exact hpass
      · exact absurd hfd' (hfree d' (mem_of_mem_readDescs hd').1)
    · exact .inl

/-- The status of a frame of a usable descriptor is decided behind that descriptor. -/
theorem status_of_split {pre post : List EfiMemoryDescriptor} {d : EfiMemoryDescriptor}
    (hmap : DisjointMap (pre ++ d :: post))
    (hread : ∀ e ∈ pre ++ [d], e.physicalEnd < MAX_PHYSICAL_SIZE)
    (hu : isUsableMemory d = true) {f : Nat} (hf : f ∈ d.frames) {pa : PageAllocator}
    (h : Replayed (pre ++ d :: post) pa) :
    pa.frameStatusAt f = .unused ↔ passesOver d.physicalEnd post f = false := by
  obtain ⟨q, hq, hsplit⟩ := initEvents_split (.start hmap.placed) hread
  have hnot := notMem_of_split hmap hf
  obtain ⟨honly, hpass⟩ := mem_events_behind (hq.next (hread d (by simp)))
    (fun e he => hnot e (List.mem_append_right _ he))
  -- The event of the descriptor releases `f`, whatever happened to it before.
  have hstatus : pa.frameStatusAt f =
      Overwrite.after ((initEvents d.physicalEnd post).map InitEvent.write) .unused f := by
    have hown : (ownEvent d).write = (d.frames, .unused) := by
      rw [InitEvent.write, ownEvent_frames, ownEvent_status, if_pos hu]
    rw [h.status f, hsplit, List.map_append, List.map_append, List.map_cons,
      Overwrite.after_append, Overwrite.after_append, Overwrite.after_cons, hown, if_pos hf]
  rw [hstatus]
  constructor
  · intro hunused
    rw [Bool.eq_false_iff, ne_eq, ← hpass]
    rintro ⟨e, he, -, hfe⟩
    -- Some event holds `f`, so the last one that does reserves it.
    rcases Overwrite.after_eq ((initEvents d.physicalEnd post).map InitEvent.write) .unused f with
      ⟨pre', w, post', hws, hfw, hval, -⟩ | ⟨-, hnone⟩
    · have hw : w ∈ (initEvents d.physicalEnd post).map InitEvent.write := by
        rw [hws]
        exact List.mem_append_right _ List.mem_cons_self
      obtain ⟨e', he', rfl⟩ := List.mem_map.mp hw
      have hused : e'.write.2 = .used := honly e' he' hfw
      rw [hunused, hused] at hval
      cases hval
    · exact hnone _ (List.mem_map_of_mem he) hfe
  · intro hno
    refine Overwrite.after_of_notMem ?_
    intro w hw hfw
    obtain ⟨e, he, rfl⟩ := List.mem_map.mp hw
    have hcontra := hpass.mp ⟨e, he, honly e he hfw, hfw⟩
    rw [hno] at hcontra
    cases hcontra

/-- A frame of a usable descriptor that is unused is in a recorded region exactly when it was
passed over in front of the descriptor. -/
theorem region_of_split {pre post : List EfiMemoryDescriptor} {d : EfiMemoryDescriptor}
    (hmap : DisjointMap (pre ++ d :: post))
    (hread : ∀ e ∈ pre ++ [d], e.physicalEnd < MAX_PHYSICAL_SIZE)
    (hu : isUsableMemory d = true) {f : Nat} (hf : f ∈ d.frames)
    (hbehind : passesOver d.physicalEnd post f = false) {pa : PageAllocator}
    (h : Replayed (pre ++ d :: post) pa) :
    (∃ r ∈ pa.reservedRegions, f ∈ r.frames) ↔ passesOver 0 pre f = true := by
  obtain ⟨q, hq, hsplit⟩ := initEvents_split (.start hmap.placed) hread
  have hnot := notMem_of_split hmap hf
  have hpre : LoopAt 0 pre :=
    .start fun e he => hmap.placed e (List.mem_append_left _ he)
  obtain ⟨-, hpass⟩ := mem_events_behind (hq.next (hread d (by simp)))
    (fun e he => hnot e (List.mem_append_right _ he))
  obtain ⟨-, hpassPre⟩ := mem_events_behind hpre (fun e he => hnot e (List.mem_append_left _ he))
  rw [h.regions, ← hpassPre]
  constructor
  · rintro ⟨r, hr, hfr⟩
    obtain ⟨e, he, hs, rfl⟩ := mem_regions.mp hr
    have hfe : f ∈ e.frames := hfr
    rw [hsplit, List.mem_append, List.mem_append, List.mem_cons] at he
    -- A region of `f` comes from an event in front of `d`, or else contradicts something.
    rcases he with he | he | rfl | he
    · exact ⟨e, he, hs, hfe⟩
    · -- The hole right in front of the descriptor ends where the descriptor starts.
      have hword : MAX_PHYSICAL_SIZE < 2 ^ 64 := by decide
      have hend := hread d (by simp)
      have hstart : d.physicalStart ≤ d.physicalEnd := Nat.le_add_right _ _
      have hlow := (mem_holeEvent hq.aligned hq.head.aligned (by omega)).mp ⟨e, he, hfe⟩
      have hhigh := hq.head.mem_frames.mp hf
      omega
    · rw [ownEvent_status, if_pos hu] at hs
      cases hs
    · have hcontra := hpass.mp ⟨e, he, hs, hfe⟩
      rw [hbehind] at hcontra
      cases hcontra
  · rintro ⟨e, he, hs, hfe⟩
    refine ⟨⟨e.frames.start, e.frames.len⟩, ?_, hfe⟩
    refine mem_regions.mpr ⟨e, ?_, hs, rfl⟩
    rw [hsplit]
    exact List.mem_append_left _ he

/-- The unused frames below `frame_end` that are in a recorded region. -/
theorem released_iff {map : List EfiMemoryDescriptor} (hmap : DisjointMap map)
    {pa : PageAllocator} (h : Replayed map pa) {f : Nat} (hf : f < pa.frameEnd) :
    (pa.frameStatusAt f = .unused ∧ ∃ r ∈ pa.reservedRegions, f ∈ r.frames) ↔
      ReleasedFrame map f := by
  constructor
  · rintro ⟨hunused, hregion⟩
    obtain ⟨d, hd, hu, hfd⟩ := h.unused hmap.placed hf hunused
    obtain ⟨pre, post, rfl, hread⟩ := exists_split_of_mem_readDescs hd
    have hbehind := (status_of_split hmap hread hu hfd h).mp hunused
    exact ⟨pre, d, post, rfl, hread, hu, hfd,
      (region_of_split hmap hread hu hfd hbehind h).mp hregion, hbehind⟩
  · rintro ⟨pre, d, post, rfl, hread, hu, hfd, hbefore, hbehind⟩
    exact ⟨(status_of_split hmap hread hu hfd h).mpr hbehind,
      (region_of_split hmap hread hu hfd hbehind h).mpr hbefore⟩

/-- `alloc_aligned_pages(1, f * PAGE_SIZE)` takes frame `f` when it is unused. -/
theorem allocAlignedPages_at (pa : PageAllocator) (reconstructed : Bool) {f : Nat}
    (hend : f < pa.frameEnd) (hcount : pa.frameEnd ≤ FRAME_COUNT)
    (hunused : pa.frameStatusAt f = .unused) :
    pa.allocAlignedPages reconstructed 1 (f * PAGE_SIZE) =
      .ok (phys2virt reconstructed (f * PAGE_SIZE), pa.markAllocated f 1) := by
  have hlt : f < FRAME_COUNT := by omega
  obtain ⟨hphys, -⟩ := frame2phys_of_lt hlt
  have halign : u64 (f * PAGE_SIZE + PAGE_SIZE - 1) / PAGE_SIZE = f := by
    simp only [FRAME_COUNT, MAX_PHYSICAL_SIZE, PAGE_SIZE] at *
    rw [u64_of_lt (by omega)]
    omega
  have hframe : u64 (f + 0) = f := by
    simp only [FRAME_COUNT, MAX_PHYSICAL_SIZE, PAGE_SIZE] at *
    exact u64_of_lt (by omega)
  -- The search starts at the frame of the alignment and finds it at once.
  have hscan : pa.scan f 0 1 = .allUnused := by
    simp only [scan, hframe, if_neg (Nat.not_le.mpr hend), hunused, reduceCtorEq, if_false]
  have hsearch : pa.search 1 (pa.alignedNext 1 f) (pa.frameEnd + 1) f = .ok (some f) := by
    simp only [search, hscan]
  have hmod : f * PAGE_SIZE % PAGE_SIZE = 0 := Nat.mul_mod_left _ _
  simp only [allocAlignedPages, hmod, ne_eq, not_true, if_false, halign, hsearch]
  show Except.ok (phys2virt reconstructed (frame2phys f), pa.markAllocated f 1) = _
  rw [hphys]

/-! ### Runs -/

/-- The block holds a frame. The results of `alloc(0)`, of `alloc_aligned_pages(0, a)` and of a
size whose rounding wraps do not. -/
def HoldsFrame (b : Extent) : Prop := 0 < u64 (b.len + PAGE_SIZE - 1) / PAGE_SIZE

instance (b : Extent) : Decidable (HoldsFrame b) := inferInstanceAs (Decidable (0 < _))

/-- The allocating calls have any arguments, and `free` is called for a live block. -/
def AnyArguments (s : PaSys) : PaCall → Prop
  | .alloc n => n < 2 ^ 64
  | .allocAlignedPages k a => k < 2 ^ 64 ∧ a < 2 ^ 64
  | .free b => b ∈ s.live ∧ HoldsFrame b

instance (s : PaSys) : ∀ c, Decidable (AnyArguments s c)
  | .alloc _ => inferInstanceAs (Decidable (_ < _))
  | .allocAlignedPages _ _ => inferInstanceAs (Decidable (_ ∧ _))
  | .free b => inferInstanceAs (Decidable (b ∈ s.live ∧ HoldsFrame b))

/-- The states reached by such calls after `page_allocator_init` left `pa₀`. -/
def AnyRun (reconstructed : Bool) (pa₀ : PageAllocator) (s : PaSys) : Prop :=
  Reachable (PaSys.Start pa₀) (PaSys.step reconstructed) AnyArguments s

/-- The address of frame `f` is not `NULL`, which frame 0 has before the reconstruction. -/
def HasAddress (reconstructed : Bool) (f : Nat) : Prop :=
  phys2virt reconstructed (f * PAGE_SIZE) ≠ 0

/-- The block consists of frames below `frame_end` that were unused right after the
initialization. -/
def FromUnused (reconstructed : Bool) (pa₀ : PageAllocator) (b : Extent) : Prop :=
  ∃ f, b.start = phys2virt reconstructed (f * PAGE_SIZE) ∧
    f + u64 (b.len + PAGE_SIZE - 1) / PAGE_SIZE ≤ pa₀.frameEnd ∧
    ∀ g ∈ Extent.mk f (u64 (b.len + PAGE_SIZE - 1) / PAGE_SIZE),
      HasAddress reconstructed g ∧ pa₀.frameStatusAt g = .unused

/-- The run invariant. Unlike `Owns` it says nothing of how the live blocks lie to each other. -/
structure Grants (reconstructed : Bool) (pa₀ : PageAllocator) (s : PaSys) : Prop where
  frameEnd : s.pa.frameEnd = pa₀.frameEnd
  regions : s.pa.reservedRegions = pa₀.reservedRegions
  unused : ∀ f, s.pa.frameStatusAt f = .unused → pa₀.frameStatusAt f = .unused
  blocks : ∀ b ∈ s.live, HoldsFrame b → FromUnused reconstructed pa₀ b

section Runs
variable {reconstructed : Bool} {pa₀ : PageAllocator} {s s' : PaSys}

/-- The frames `free` computes for such a block. -/
theorem freeFrames_of_fromUnused (hend : pa₀.frameEnd ≤ FRAME_COUNT) {b : Extent}
    (hb : HoldsFrame b) {f : Nat} (hptr : b.start = phys2virt reconstructed (f * PAGE_SIZE))
    (hle : f + u64 (b.len + PAGE_SIZE - 1) / PAGE_SIZE ≤ pa₀.frameEnd) :
    freeFrames reconstructed b.start b.len = ⟨f, u64 (b.len + PAGE_SIZE - 1) / PAGE_SIZE⟩ := by
  unfold HoldsFrame at hb
  obtain ⟨-, hdirect⟩ := frame2phys_of_lt (show f < FRAME_COUNT by omega)
  unfold freeFrames
  rw [hptr, phys2virt_mod_page reconstructed hdirect (Nat.mul_mod_left f PAGE_SIZE), Nat.sub_zero,
    virt2phys_phys2virt reconstructed hdirect]
  have hf : phys2frame (f * PAGE_SIZE) = f := Nat.mul_div_cancel f (by decide)
  rw [hf]

/-- A live block after a result is an earlier one or the result. -/
theorem mem_live_grant {live : List Extent} {size ptr : Nat} {pa : PageAllocator} {b : Extent}
    (h : b ∈ (PaSys.grant live size (ptr, pa)).live) : b ∈ live ∨ (ptr ≠ 0 ∧ b = ⟨ptr, size⟩) := by
  unfold PaSys.grant at h
  by_cases hnull : ptr = 0
  · simp only [if_pos hnull] at h
    exact .inl h
  · simp only [if_neg hnull] at h
    rcases List.mem_cons.mp h with rfl | h
    · exact .inr ⟨hnull, rfl⟩
    · exact .inl h

/-- The frames of a block that is not `NULL` have an address: only frame 0 may have none. -/
theorem hasAddress_of_start (hend : pa₀.frameEnd ≤ FRAME_COUNT) {f k g : Nat}
    (hne : HasAddress reconstructed f) (hle : f + k ≤ pa₀.frameEnd) (hg : g ∈ Extent.mk f k) :
    HasAddress reconstructed g := by
  rw [Extent.mem_mk] at hg
  rcases Nat.eq_zero_or_pos g with rfl | hpos
  · rwa [show f = 0 by omega] at hne
  · obtain ⟨-, hdirect⟩ := frame2phys_of_lt (show g < FRAME_COUNT by omega)
    refine phys2virt_ne_zero reconstructed hdirect ?_
    simp only [PAGE_SIZE]
    omega

/-- The answer of a search keeps the invariant. -/
theorem Grants.take (h : Grants reconstructed pa₀ s) (hend : pa₀.frameEnd ≤ FRAME_COUNT)
    {numFrames size : Nat} {found : Option Nat}
    (hfound : ∀ f, found = some f → s.pa.Fits f numFrames)
    (hsize : numFrames ≤ FRAME_COUNT → u64 (size + PAGE_SIZE - 1) / PAGE_SIZE = numFrames) :
    Grants reconstructed pa₀
      (PaSys.grant s.live size (s.pa.take reconstructed numFrames found)) := by
  cases found with
  | none => exact h
  | some f =>
      have hfits := hfound f rfl
      refine ⟨?_, ?_, ?_, ?_⟩
      · exact (mark_frameEnd s.pa .used f numFrames).trans h.frameEnd
      · exact (mark_reservedRegions s.pa .used f numFrames).trans h.regions
      · intro g hg
        apply h.unused g
        rw [← frameStatusAt_ne_used]
        intro hused
        -- Marking frames as used makes none of them unused.
        have hkept := mark_used_of_used hused f numFrames
        rw [show (mark .used s.pa f numFrames).frameStatusAt g = .unused from hg] at hkept
        cases hkept
      · intro b hb hholds
        rcases mem_live_grant hb with hb | ⟨hne, rfl⟩
        · exact h.blocks b hb hholds
        unfold HoldsFrame at hholds
        -- The result holds a frame, so at least one was taken, and they are below `frame_end`.
        rcases Nat.eq_zero_or_pos numFrames with rfl | hpos
        · rw [hsize (Nat.zero_le _)] at hholds
          omega
        have hle : f + numFrames ≤ pa₀.frameEnd := h.frameEnd ▸ hfits.end_le hpos
        obtain ⟨hphys, -⟩ := frame2phys_of_lt (show f < FRAME_COUNT by omega)
        rw [hphys] at hne
        refine ⟨f, congrArg (phys2virt reconstructed) hphys, ?_, ?_⟩
        · rw [hsize (by omega)]
          exact hle
        · rw [hsize (by omega)]
          intro g hg
          exact ⟨hasAddress_of_start hend hne hle hg, h.unused g (hfits.unused hg)⟩

theorem Grants.alloc (h : Grants reconstructed pa₀ s) (hend : pa₀.frameEnd ≤ FRAME_COUNT)
    {n : Nat} (hstep : s.step reconstructed (.alloc n) = some s') :
    Grants reconstructed pa₀ s' := by
  have hcount : FRAME_COUNT < 2 ^ 64 := by decide
  obtain ⟨x, hx, rfl⟩ := Option.map_eq_some_iff.mp hstep
  obtain ⟨found, hsearch, hret⟩ := Run.bind_eq_ok.mp (Run.toOption_eq_some.mp hx)
  cases hret
  refine h.take hend ?_ (fun _ => rfl)
  intro f hf
  rw [hf] at hsearch
  refine search_fits s.pa (by rw [h.frameEnd]; omega) ?_ _ _ (by decide) hsearch
  intro start i start' hnext
  cases hnext
  exact u64_lt _

theorem Grants.allocAlignedPages (h : Grants reconstructed pa₀ s)
    (hend : pa₀.frameEnd ≤ FRAME_COUNT) {k a : Nat}
    (hstep : s.step reconstructed (.allocAlignedPages k a) = some s') :
    Grants reconstructed pa₀ s' := by
  have hcount : FRAME_COUNT < 2 ^ 64 := by decide
  obtain ⟨x, hx, rfl⟩ := Option.map_eq_some_iff.mp hstep
  have hrun : s.pa.allocAlignedPages reconstructed k a = .ok x := Run.toOption_eq_some.mp hx
  unfold PageAllocator.allocAlignedPages at hrun
  -- An alignment that is not a multiple of the page size gives `NULL`.
  split at hrun
  · cases hrun
    exact h
  obtain ⟨found, hsearch, hret⟩ := Run.bind_eq_ok.mp hrun
  cases hret
  refine h.take hend ?_ ?_
  · intro f hf
    rw [hf] at hsearch
    refine search_fits s.pa (by rw [h.frameEnd]; omega) ?_ _ _ ?_ hsearch
    · intro start i start' hnext
      simp only [alignedNext] at hnext
      split at hnext
      · cases hnext
      · cases hnext
        exact u64_lt _
    · exact Nat.lt_of_le_of_lt (Nat.div_le_self _ _) (u64_lt _)
  · intro hk
    -- A number of pages that was found does not wrap in bytes.
    rw [u64_of_lt (by simp only [FRAME_COUNT, MAX_PHYSICAL_SIZE, PAGE_SIZE] at *; omega)]
    simp only [PAGE_SIZE]
    omega

/-- The frames of a released block were unused at first. -/
theorem Grants.release (h : Grants reconstructed pa₀ s) (hend : pa₀.frameEnd ≤ FRAME_COUNT)
    {b : Extent} (hb : b ∈ s.live) (hholds : HoldsFrame b)
    (hstep : s.step reconstructed (.free b) = some s') : Grants reconstructed pa₀ s' := by
  have hcount : FRAME_COUNT < 2 ^ 64 := by decide
  obtain ⟨f, hptr, hle, hunused⟩ := h.blocks b hb hholds
  have hframes := freeFrames_of_fromUnused hend hholds hptr hle
  obtain ⟨pa', hx, rfl⟩ := Option.map_eq_some_iff.mp hstep
  have hfree : s.pa.free reconstructed b.start b.len = .ok pa' := Run.toOption_eq_some.mp hx
  rw [free_eq, hframes] at hfree
  obtain ⟨-, hfree⟩ := Run.ite_error_eq_ok.mp hfree
  cases hfree
  refine ⟨?_, ?_, ?_, fun b' hb' => h.blocks b' (List.mem_of_mem_erase hb')⟩
  · exact (mark_frameEnd s.pa .unused f _).trans h.frameEnd
  · exact (mark_reservedRegions s.pa .unused f _).trans h.regions
  · intro g hg
    have hmark := frameStatusAt_mark s.pa .unused f
      (u64 (b.len + PAGE_SIZE - 1) / PAGE_SIZE) g (by omega)
    rw [show (mark .unused s.pa f _).frameStatusAt g = .unused from hg] at hmark
    -- An unused frame is one of the block, or was unused before.
    split at hmark
    · rename_i hmem
      exact (hunused g hmem).2
    · exact h.unused g hmark.symm

/-- The invariant holds along every run. -/
theorem grants_of_anyRun (hend : pa₀.frameEnd ≤ FRAME_COUNT)
    (hs : AnyRun reconstructed pa₀ s) : Grants reconstructed pa₀ s := by
  refine hs.invariant ?_ ?_
  · -- Nothing is live right after the initialization.
    rintro s0 rfl
    exact ⟨rfl, rfl, fun f hf => hf, fun b hb => absurd hb List.not_mem_nil⟩
  · intro s1 c s2 h1 hc hstep
    cases c with
    | alloc n => exact h1.alloc hend hstep
    | allocAlignedPages k a => exact h1.allocAlignedPages hend hstep
    | free b => exact h1.release hend hc.1 hc.2 hstep

/-- A live block is released when none of the frames that were unused at first and have an
address is in a recorded region. -/
theorem Grants.free (h : Grants reconstructed pa₀ s) (hend : pa₀.frameEnd ≤ FRAME_COUNT)
    (hregions : ∀ r ∈ pa₀.reservedRegions,
      0 < r.numFrames ∧ r.frame + r.numFrames ≤ FRAME_COUNT ∧
      ∀ g ∈ r.frames, g < pa₀.frameEnd → HasAddress reconstructed g →
        pa₀.frameStatusAt g = .used)
    {b : Extent} (hb : b ∈ s.live) (hholds : HoldsFrame b) :
    ∃ s', s.step reconstructed (.free b) = some s' := by
  obtain ⟨f, hptr, hle, hunused⟩ := h.blocks b hb hholds
  have hframes := freeFrames_of_fromUnused hend hholds hptr hle
  -- The frames of the block were unused at first, so none of them is in a region.
  have hover : s.pa.overlapsReserved f (u64 (b.len + PAGE_SIZE - 1) / PAGE_SIZE) = false := by
    refine overlapsReserved_eq_false hholds (by omega) ?_
    intro r hr
    rw [h.regions] at hr
    obtain ⟨hpos, hrend, hused⟩ := hregions r hr
    refine ⟨hpos, hrend, ?_⟩
    intro g hgr hg
    obtain ⟨haddr, hu⟩ := hunused g hg
    rw [Extent.mem_mk] at hg
    rw [hused g hgr (by omega) haddr] at hu
    cases hu
  refine ⟨{ pa := s.pa.markNotUsed f (u64 (b.len + PAGE_SIZE - 1) / PAGE_SIZE),
            live := s.live.erase b }, ?_⟩
  show ((s.pa.free reconstructed b.start b.len).toOption.map _) = _
  rw [free_eq, hframes, hover]
  rfl

end Runs

end PageAllocator

open PageAllocator Runs in
/-- An unused frame in a recorded region can be allocated, and then its release panics. -/
theorem exists_panic (reconstructed : Bool) {pa₀ : PageAllocator} {f : Nat}
    (hne : HasAddress reconstructed f) (hend : f < pa₀.frameEnd)
    (hcount : pa₀.frameEnd ≤ FRAME_COUNT) (hunused : pa₀.frameStatusAt f = .unused)
    {r : UefiReservedRegion} (hr : r ∈ pa₀.reservedRegions)
    (hrend : r.frame + r.numFrames ≤ FRAME_COUNT) (hfr : f ∈ r.frames) :
    ∃ s, AnyRun reconstructed pa₀ s ∧ ∃ b ∈ s.live, HoldsFrame b ∧
      s.step reconstructed (.free b) = none := by
  unfold HasAddress at hne
  obtain ⟨-, hdirect⟩ := frame2phys_of_lt (show f < FRAME_COUNT by omega)
  -- One call takes the frame alone: the alignment is its own address.
  have hstep : PaSys.step reconstructed ⟨pa₀, []⟩ (.allocAlignedPages 1 (f * PAGE_SIZE)) =
      some ⟨pa₀.markAllocated f 1, [⟨phys2virt reconstructed (f * PAGE_SIZE), PAGE_SIZE⟩]⟩ := by
    show ((pa₀.allocAlignedPages reconstructed 1 (f * PAGE_SIZE)).toOption.map _) = _
    rw [allocAlignedPages_at pa₀ reconstructed hend hcount hunused]
    simp only [Except.toOption, Option.map_some, PaSys.grant, if_neg hne, Nat.one_mul]
  have hargs : AnyArguments ⟨pa₀, []⟩ (.allocAlignedPages 1 (f * PAGE_SIZE)) := by
    refine ⟨by decide, ?_⟩
    simp only [DIRECT_MAP_SIZE] at hdirect
    omega
  have hholds : HoldsFrame ⟨phys2virt reconstructed (f * PAGE_SIZE), PAGE_SIZE⟩ := by
    show 0 < u64 (PAGE_SIZE + PAGE_SIZE - 1) / PAGE_SIZE
    decide
  refine ⟨_, .next (.start rfl) hargs hstep, _, List.mem_cons_self, hholds, ?_⟩
  -- The released frame is `f` itself, and the region that holds it is in the table.
  have hone : u64 (PAGE_SIZE + PAGE_SIZE - 1) / PAGE_SIZE = 1 := by decide
  have hframes := freeFrames_of_fromUnused hcount hholds rfl (by rw [hone]; exact hend)
  rw [hone] at hframes
  have hover : (pa₀.markAllocated f 1).overlapsReserved f 1 = true := by
    cases hres : (pa₀.markAllocated f 1).overlapsReserved f 1 with
    | true => rfl
    | false =>
        have hr' : r ∈ (pa₀.markAllocated f 1).reservedRegions := by
          rw [show (pa₀.markAllocated f 1).reservedRegions = pa₀.reservedRegions from
            mark_reservedRegions pa₀ .used f 1]
          exact hr
        exact absurd ⟨Nat.le_refl f, Nat.lt_succ_self f⟩
          (notMem_of_overlapsReserved hres (by omega) hr' hrend hfr)
  show ((pa₀.markAllocated f 1).free reconstructed (phys2virt reconstructed (f * PAGE_SIZE))
    PAGE_SIZE).toOption.map _ = none
  rw [free_eq, hframes, if_pos hover]
  rfl

open PageAllocator in
/-- **When the release of live blocks never panics.** After `page_allocator_init` on pairwise
disjoint, nonempty descriptors in any order, in every run of calls with any arguments every live
block can be released with its size, exactly when no frame below the end of the last usable
descriptor that was read, and with an address, is one of a usable descriptor that was passed over
in front of the descriptor and not again behind it. -/
theorem free_returns_iff (reconstructed : Bool) (map : List EfiMemoryDescriptor)
    (hmap : DisjointMap map) (hne : ∀ d ∈ map, 0 < d.numberOfPages) {pa₀ : PageAllocator}
    (hinit : pageAllocatorInit map = .ok pa₀) :
    (∀ s, AnyRun reconstructed pa₀ s → ∀ b ∈ s.live, HoldsFrame b →
      ∃ s', s.step reconstructed (.free b) = some s') ↔
    ∀ f < phys2frame ((lastUsableEnd (readDescs map)).getD 0), HasAddress reconstructed f →
      ¬ ReleasedFrame map f := by
  have hreplayed := replayed_of_pageAllocatorInit hmap.placed hinit
  have hat := LoopAt.start hmap.placed
  have hcount := frameEnd_le_of_replayed hreplayed
  rw [← hreplayed.frameEnd]
  constructor
  · intro hall f hend haddr hreleased
    -- Such a frame is unused and in a region, so there is a run in which its release panics.
    obtain ⟨hunused, r, hr, hfr⟩ := (released_iff hmap hreplayed hend).mpr hreleased
    have hr' := hr
    rw [hreplayed.regions] at hr'
    obtain ⟨e, he, -, rfl⟩ := mem_regions.mp hr'
    obtain ⟨s, hs, b, hb, hholds, hnone⟩ := exists_panic reconstructed haddr hend hcount hunused hr
      (initEvents_safe hat e he).end_le hfr
    obtain ⟨s', hsome⟩ := hall s hs b hb hholds
    rw [hnone] at hsome
    cases hsome
  · intro hno s hs b hb hholds
    refine (grants_of_anyRun hcount hs).free hcount ?_ hb hholds
    intro r hr
    have hr' := hr
    rw [hreplayed.regions] at hr'
    obtain ⟨e, he, -, rfl⟩ := mem_regions.mp hr'
    refine ⟨initEvents_nonempty hat hne e he, (initEvents_safe hat e he).end_le, ?_⟩
    -- An unused frame of a region would be a released one.
    intro g hg hend haddr
    by_contra hused
    have hunused := (pa₀.frameStatusAt_ne_used g).mp hused
    exact hno g hend haddr ((released_iff hmap hreplayed hend).mp ⟨hunused, _, hr, hg⟩)

/-- A map that is not sorted and whose usable descriptor comes first. -/
def usableFirstMap : List EfiMemoryDescriptor :=
  [⟨.conventionalMemory, 0x0, 2⟩, ⟨.reservedMemoryType, 0x4000, 2⟩,
   ⟨.runtimeServicesData, 0x2000, 2⟩]

theorem usableFirstMap_disjoint : DisjointMap usableFirstMap where
  disjoint := by
    have h : usableFirstMap.Pairwise fun d e =>
        d.physicalEnd ≤ e.physicalStart ∨ e.physicalEnd ≤ d.physicalStart := by decide
    exact h.imp fun hde => hde.elim bytes_disjoint_of_le fun hle => (bytes_disjoint_of_le hle).symm
  placed := by
    have h : ∀ d ∈ usableFirstMap,
        d.physicalStart % PAGE_SIZE = 0 ∧ d.physicalEnd < 2 ^ 64 := by decide
    exact fun d hd => ⟨(h d hd).1, (h d hd).2⟩

open PageAllocator Runs in
/-- A page is allocated and released on that map. -/
theorem free_returns_iff_usableFirstMap :
    ∃ pa₀ s, pageAllocatorInit usableFirstMap = .ok pa₀ ∧ AnyRun false pa₀ s ∧
      s.live = [⟨0x1000, 0x1000⟩] ∧ ∃ s', s.step false (.free ⟨0x1000, 0x1000⟩) = some s' := by
  let pa₀ : PageAllocator := (pageAllocatorInit usableFirstMap).toOption.getD {}
  have hinit : pageAllocatorInit usableFirstMap = .ok pa₀ := rfl
  have hstart : PaSys.Start pa₀ ⟨pa₀, []⟩ := rfl
  obtain ⟨s, hs, hlive⟩ := Reachable.exists_of_exec (PaSys.step false) AnyArguments
    (fun s => s.live = [⟨0x1000, 0x1000⟩]) [.alloc 0x1000] hstart (by decide)
  have hno : ∀ f < phys2frame ((lastUsableEnd (readDescs usableFirstMap)).getD 0),
      HasAddress false f → ¬ ReleasedFrame usableFirstMap f := by
    rintro f - - ⟨pre, d, post, hsplit, -, hu, -, hpass, -⟩
    cases pre with
    | nil => cases hpass
    | cons d₀ pre =>
        -- Only the first descriptor is usable, and `d` is another one.
        obtain ⟨-, htail⟩ := List.cons.inj hsplit
        have hd : d ∈ usableFirstMap.tail := by
          rw [show usableFirstMap.tail = pre ++ d :: post from htail]
          exact List.mem_append_right _ List.mem_cons_self
        have hnone : ∀ e ∈ usableFirstMap.tail, isUsableMemory e = false := by decide
        rw [hnone d hd] at hu
        cases hu
  have hall := (free_returns_iff false usableFirstMap usableFirstMap_disjoint (by decide)
    hinit).mpr hno
  exact ⟨pa₀, s, hinit, hs, hlive,
    hall s hs _ (by rw [hlive]; exact List.mem_cons_self) (by decide)⟩

open PageAllocator in
/-- On the shuffled map, frame 3 is in the first hole and in the third descriptor. -/
theorem not_free_returns :
    ¬ ∀ (reconstructed : Bool) (map : List EfiMemoryDescriptor) (pa₀ : PageAllocator),
      DisjointMap map → (∀ d ∈ map, 0 < d.numberOfPages) → pageAllocatorInit map = .ok pa₀ →
      ∀ s, AnyRun reconstructed pa₀ s → ∀ b ∈ s.live, HoldsFrame b →
        ∃ s', s.step reconstructed (.free b) = some s' := by
  intro hall
  obtain ⟨pa₀, hinit⟩ := pageAllocatorInit_returns shuffledMap_disjoint.placed (by decide)
  have hreplayed := replayed_of_pageAllocatorInit shuffledMap_disjoint.placed hinit
  have hend : pa₀.frameEnd = 12 := hreplayed.frameEnd
  have hunused : pa₀.frameStatusAt 3 = .unused := hreplayed.status 3
  have hregion : ⟨0, 5⟩ ∈ pa₀.reservedRegions := by
    rw [hreplayed.regions]
    decide
  have haddr : HasAddress true 3 := by
    show phys2virt true (3 * PAGE_SIZE) ≠ 0
    decide
  obtain ⟨s, hs, b, hb, hholds, hnone⟩ := exists_panic true haddr (by omega)
    (frameEnd_le_of_replayed hreplayed) hunused hregion (by decide) (by decide)
  obtain ⟨s', hsome⟩ :=
    hall true shuffledMap pa₀ shuffledMap_disjoint (by decide) hinit s hs b hb hholds
  rw [hnone] at hsome
  cases hsome

end YmirC
