import YmirC.Proofs.PageAllocator.Events
import YmirC.Proofs.PageAllocator.Safety

/-!
# `YmirC.Proofs.PageAllocator.Reserved`: reserved frames under arbitrary calls

The caller may be wrong here: `free` is called with any address and any size, and the
allocating calls with any arguments. The only thing that speaks for the frames of the firmware
is the overlap check of `free`.

Two facts carry the result. On a sorted map, no event of `page_allocator_init` releases a frame
that an earlier event reserved, since everything reserved lies below the descriptors to come or
in a descriptor of its own (`initEvents_reserved`). And a range `free` lets through shares no
frame with a recorded region (`notMem_of_overlapsReserved`). A call that allocates only ever
marks frames as used.
-/

set_option autoImplicit false

namespace YmirC

open Runs (Reachable)

namespace PageAllocator

/-! ### What the initialization reserved -/

/-- The later event does not release a frame of the earlier one, when that is a reserving
event. -/
def KeepsReserved (e e' : InitEvent) : Prop :=
  e.status = .used → e'.status = .unused → e.frames.Disjoint e'.frames

/-- On a sorted map no event releases what an earlier one reserved. -/
theorem initEvents_reserved {physEnd : Nat} {map : List EfiMemoryDescriptor}
    (h : LoopAt physEnd map)
    (hsorted : map.Pairwise fun d e => d.physicalStart ≤ e.physicalStart)
    (hdisj : map.Pairwise fun d e => d.bytes.Disjoint e.bytes) :
    (initEvents physEnd map).Pairwise KeepsReserved := by
  induction map generalizing physEnd with
  | nil => exact List.Pairwise.nil
  | cons d rest ih =>
      obtain ⟨habove, hsorted'⟩ := List.pairwise_cons.mp hsorted
      obtain ⟨hapart, hdisj'⟩ := List.pairwise_cons.mp hdisj
      have hd := h.head
      by_cases hlt : d.physicalEnd < MAX_PHYSICAL_SIZE
      · rw [initEvents_of_lt hlt]
        -- A frame of the hole lies below this descriptor, hence below those to come.
        have hhole : ∀ e ∈ holeEvent physEnd d.physicalStart, ∀ d' ∈ d :: rest,
            e.frames.Disjoint (ownEvent d').frames := by
          intro e he d' hd' f hfe hfd
          rw [ownEvent_frames, (h.placed d' hd').mem_frames] at hfd
          have hword : MAX_PHYSICAL_SIZE < 2 ^ 64 := by decide
          have hstart : d.physicalStart ≤ d.physicalEnd := Nat.le_add_right _ _
          have hbelow := (mem_holeEvent h.aligned hd.aligned (by omega)).mp ⟨e, he, hfe⟩
          rcases List.mem_cons.mp hd' with rfl | hd'
          · omega
          · have := habove d' hd'
            omega
        -- The frames of this descriptor belong to no other.
        have hown : ∀ d' ∈ rest, (ownEvent d).frames.Disjoint (ownEvent d').frames := by
          intro d' hd' f hfd hfd'
          rw [ownEvent_frames, hd.mem_bytes] at hfd
          rw [ownEvent_frames, (h.placed d' (List.mem_cons_of_mem d hd')).mem_bytes] at hfd'
          exact hapart d' hd' _ hfd hfd'
        refine List.pairwise_append.mpr ⟨?_, List.pairwise_cons.mpr ⟨?_, ?_⟩, ?_⟩
        · unfold holeEvent
          split
          · exact List.pairwise_singleton _ _
          · exact List.Pairwise.nil
        · intro e' he' _ hs'
          obtain ⟨d', hd', -, rfl⟩ := exists_desc_of_release he' hs'
          exact hown d' (mem_of_mem_readDescs hd').1
        · exact ih (h.next hlt) hsorted' hdisj'
        · intro e he e' he' _ hs'
          rcases List.mem_cons.mp he' with rfl | he'
          · exact hhole e he d List.mem_cons_self
          · obtain ⟨d', hd', -, rfl⟩ := exists_desc_of_release he' hs'
            exact hhole e he d' (List.mem_cons_of_mem d (mem_of_mem_readDescs hd').1)
      · rw [initEvents_of_ge (Nat.not_lt.mp hlt)]
        -- The last descriptor releases nothing.
        refine List.Pairwise.imp_of_mem ?_ (List.pairwise_of_forall (R := fun _ _ => True)
          fun _ _ => trivial)
        intro e e' _ he' _ _ hs'
        rw [status_of_mem_lastEvents he'] at hs'
        cases hs'

/-- The frames of every recorded region are used, and the region ends below `FRAME_COUNT`. -/
def RegionsUsed (regions : List UefiReservedRegion) (pa : PageAllocator) : Prop :=
  ∀ r ∈ regions, r.frame + r.numFrames ≤ FRAME_COUNT ∧
    ∀ f ∈ r.frames, pa.frameStatusAt f = .used

theorem regionsUsed_init {map : List EfiMemoryDescriptor} {pa : PageAllocator}
    (hmap : DisjointMap map)
    (hsorted : map.Pairwise fun d e => d.physicalStart ≤ e.physicalStart)
    (hrun : pageAllocatorInit map = .ok pa) : RegionsUsed pa.reservedRegions pa := by
  have hat := LoopAt.start hmap.placed
  have hreplayed := replayed_of_pageAllocatorInit hmap.placed hrun
  intro r hr
  rw [hreplayed.regions] at hr
  obtain ⟨e, he, hs, rfl⟩ := mem_regions.mp hr
  refine ⟨(initEvents_safe hat e he).end_le, ?_⟩
  intro f hf
  -- Behind the event that reserved `f`, every event that holds `f` reserves it too.
  obtain ⟨pre, post, hsplit⟩ := List.append_of_mem he
  have hpair := initEvents_reserved hat hsorted hmap.disjoint
  rw [hsplit] at hpair
  have hlater := (List.pairwise_cons.mp (List.pairwise_append.mp hpair).2.1).1
  rw [hreplayed.status f, hsplit, List.map_append, List.map_cons, Overwrite.after_append,
    Overwrite.after_cons, if_pos (show f ∈ e.write.1 from hf)]
  show Overwrite.after _ e.status f = _
  rw [hs]
  refine Overwrite.after_of_forall ?_
  intro w hw hfw
  obtain ⟨e', he', rfl⟩ := List.mem_map.mp hw
  show e'.status = .used
  cases hs' : e'.status with
  | used => rfl
  | unused => exact absurd hfw (hlater e' he' hs hs' f hf)

/-! ### One call -/

/-- Marking frames as used keeps the used ones. -/
theorem mark_used_of_used {pa : PageAllocator} {f : Nat} (h : pa.frameStatusAt f = .used)
    (frame n : Nat) : (mark .used pa frame n).frameStatusAt f = .used := by
  induction n with
  | zero => exact h
  | succ n ih =>
      show ((mark .used pa frame n).setFrameStatus _ .used).frameStatusAt f = _
      rw [frameStatusAt_setFrameStatus]
      split
      · rfl
      · exact ih

/-- A search ends with frames marked as used, or with nothing changed. -/
theorem take_used_of_used {pa : PageAllocator} {f : Nat} (h : pa.frameStatusAt f = .used)
    (reconstructed : Bool) (numFrames : Nat) (found : Option Nat) :
    (pa.take reconstructed numFrames found).2.frameStatusAt f = .used := by
  cases found with
  | none => exact h
  | some start => exact mark_used_of_used h start numFrames

theorem take_reservedRegions (pa : PageAllocator) (reconstructed : Bool) (numFrames : Nat)
    (found : Option Nat) :
    (pa.take reconstructed numFrames found).2.reservedRegions = pa.reservedRegions := by
  cases found with
  | none => rfl
  | some start => exact mark_reservedRegions pa .used start numFrames

/-- The frames `free` computes from its arguments. -/
def freeFrames (reconstructed : Bool) (ptr n : Nat) : Extent :=
  ⟨phys2frame (virt2phys reconstructed (ptr - ptr % PAGE_SIZE)),
    u64 (n + PAGE_SIZE - 1) / PAGE_SIZE⟩

/-- `free` in terms of these frames. -/
theorem free_eq (reconstructed : Bool) (ptr n : Nat) (pa : PageAllocator) :
    pa.free reconstructed ptr n =
      if pa.overlapsReserved (freeFrames reconstructed ptr n).start
          (freeFrames reconstructed ptr n).len then
        .error (.panic "Attempting to free memory reserved by UEFI firmware.")
      else .ok (pa.markNotUsed (freeFrames reconstructed ptr n).start
        (freeFrames reconstructed ptr n).len) :=
  rfl

/-- `free` either panics and leaves the variables alone, or unmarks its frames. -/
theorem freeM_run (reconstructed : Bool) (ptr n : Nat) (pa : PageAllocator) :
    (freeM reconstructed ptr n).run pa =
      if pa.overlapsReserved (freeFrames reconstructed ptr n).start
          (freeFrames reconstructed ptr n).len then
        .error (.panic "Attempting to free memory reserved by UEFI firmware.") pa
      else .ok () (pa.markNotUsed (freeFrames reconstructed ptr n).start
        (freeFrames reconstructed ptr n).len) := by
  unfold freeM EStateM.run
  dsimp only
  show (if pa.overlapsReserved (freeFrames reconstructed ptr n).start
    (freeFrames reconstructed ptr n).len then _ else _ : EStateM Halt PageAllocator Unit) pa = _
  split
  · rfl
  · rfl

/-- The two models of `free` agree. -/
theorem freeM_eq_free (reconstructed : Bool) (ptr n : Nat) (pa : PageAllocator) :
    (freeM reconstructed ptr n).run pa =
      match pa.free reconstructed ptr n with
      | .ok pa' => .ok () pa'
      | .error e => .error e pa := by
  rw [freeM_run, free_eq]
  by_cases hover : pa.overlapsReserved (freeFrames reconstructed ptr n).start
      (freeFrames reconstructed ptr n).len = true
  · rw [if_pos hover, if_pos hover]
  · rw [if_neg hover, if_neg hover]

/-- A range that `free` lets through shares no frame with a recorded region. -/
theorem notMem_of_overlapsReserved {pa : PageAllocator} {frame n : Nat}
    (hover : pa.overlapsReserved frame n = false) (hrange : frame + n ≤ FRAME_COUNT)
    {r : UefiReservedRegion} (hr : r ∈ pa.reservedRegions)
    (hend : r.frame + r.numFrames ≤ FRAME_COUNT) {f : Nat} (hf : f ∈ r.frames) :
    f ∉ Extent.mk frame n := by
  have hcount : FRAME_COUNT < 2 ^ 64 := by decide
  intro hmem
  have hno := List.any_eq_false.mp hover r hr
  rw [u64_of_lt (by omega), u64_of_lt (by omega), Bool.and_eq_true, decide_eq_true_eq,
    decide_eq_true_eq] at hno
  rw [Extent.mem_mk] at hmem
  have hlow : r.frame ≤ f := hf.1
  have hhigh : f < r.frame + r.numFrames := hf.2
  exact hno ⟨by omega, by omega⟩

/-- A `free` in range keeps the reserved frames used, whether it returns or panics. -/
theorem regionsUsed_freeM {pa : PageAllocator} (h : RegionsUsed pa.reservedRegions pa)
    {reconstructed : Bool} {ptr n : Nat}
    (hrange : ∀ f ∈ freeFrames reconstructed ptr n, f < FRAME_COUNT)
    (hover : pa.overlapsReserved (freeFrames reconstructed ptr n).start
      (freeFrames reconstructed ptr n).len = false) :
    RegionsUsed pa.reservedRegions (pa.markNotUsed (freeFrames reconstructed ptr n).start
      (freeFrames reconstructed ptr n).len) := by
  generalize freeFrames reconstructed ptr n = I at *
  rcases Nat.eq_zero_or_pos I.len with hzero | hpos
  · rw [hzero]
    exact h
  -- The last frame is in range, so the range ends below `FRAME_COUNT` and does not wrap.
  have hend : I.start + I.len ≤ FRAME_COUNT := by
    have := hrange (I.start + (I.len - 1)) ⟨by omega, by omega⟩
    omega
  have hcount : FRAME_COUNT ≤ 2 ^ 64 := by decide
  intro r hr
  obtain ⟨hrend, hused⟩ := h r hr
  refine ⟨hrend, ?_⟩
  intro f hf
  show (mark .unused pa I.start I.len).frameStatusAt f = .used
  rw [frameStatusAt_mark pa .unused _ _ f (by omega),
    if_neg (notMem_of_overlapsReserved hover hend hr hrend hf)]
  exact hused f hf

/-! ### Runs -/

/-- A call of the allocator with any arguments, in either translation mode. -/
inductive AnyCall where
  | alloc (reconstructed : Bool) (n : Nat)
  | allocAlignedPages (reconstructed : Bool) (numPages alignSize : Nat)
  | free (reconstructed : Bool) (ptr n : Nat)

/-- The static variables after a call, `none` when it never ends. After a `free` that panics
they are what it left. The processor is halted then, and the runs below that go on from there
only add to those of the source. -/
def callStep (pa : PageAllocator) : AnyCall → Option PageAllocator
  | .alloc reconstructed n => (pa.alloc reconstructed n).toOption.map Prod.snd
  | .allocAlignedPages reconstructed k a =>
      (pa.allocAlignedPages reconstructed k a).toOption.map Prod.snd
  | .free reconstructed ptr n =>
      match (freeM reconstructed ptr n).run pa with
      | .ok _ pa' => some pa'
      | .error _ pa' => some pa'

/-- The frames a `free` is called for stay below `FRAME_COUNT`. -/
def InRange : AnyCall → Prop
  | .free reconstructed ptr n => ∀ f ∈ freeFrames reconstructed ptr n, f < FRAME_COUNT
  | _ => True

theorem RegionsUsed.take {pa : PageAllocator} (h : RegionsUsed pa.reservedRegions pa)
    (reconstructed : Bool) (numFrames : Nat) (found : Option Nat) :
    RegionsUsed pa.reservedRegions (pa.take reconstructed numFrames found).2 := by
  intro r hr
  obtain ⟨hend, hused⟩ := h r hr
  exact ⟨hend, fun f hf => take_used_of_used (hused f hf) reconstructed numFrames found⟩

/-- The allocating calls end with the answer of a search. -/
theorem alloc_eq_take {pa : PageAllocator} {reconstructed : Bool} {n : Nat}
    {x : Nat × PageAllocator} (h : pa.alloc reconstructed n = .ok x) :
    ∃ numFrames found, x = pa.take reconstructed numFrames found := by
  obtain ⟨found, -, hret⟩ := Run.bind_eq_ok.mp h
  cases hret
  exact ⟨_, found, rfl⟩

theorem allocAlignedPages_eq_take {pa : PageAllocator} {reconstructed : Bool} {k a : Nat}
    {x : Nat × PageAllocator} (h : pa.allocAlignedPages reconstructed k a = .ok x) :
    ∃ numFrames found, x = pa.take reconstructed numFrames found := by
  unfold allocAlignedPages at h
  split at h
  · cases h
    exact ⟨0, none, rfl⟩
  · obtain ⟨found, -, hret⟩ := Run.bind_eq_ok.mp h
    cases hret
    exact ⟨_, found, rfl⟩

/-- One call keeps the table of regions and the frames of every region used. -/
theorem callStep_reserved {pa pa' : PageAllocator} {c : AnyCall}
    (h : RegionsUsed pa.reservedRegions pa) (hc : InRange c) (hstep : callStep pa c = some pa') :
    pa'.reservedRegions = pa.reservedRegions ∧ RegionsUsed pa'.reservedRegions pa' := by
  -- What is left to show is that the table is the same and its frames are used.
  have hboth : pa'.reservedRegions = pa.reservedRegions ∧ RegionsUsed pa.reservedRegions pa' := by
    cases c with
    | alloc reconstructed n =>
        obtain ⟨x, hx, rfl⟩ := Option.map_eq_some_iff.mp hstep
        obtain ⟨numFrames, found, rfl⟩ := alloc_eq_take (Run.toOption_eq_some.mp hx)
        exact ⟨take_reservedRegions pa reconstructed numFrames found, h.take _ _ _⟩
    | allocAlignedPages reconstructed k a =>
        obtain ⟨x, hx, rfl⟩ := Option.map_eq_some_iff.mp hstep
        obtain ⟨numFrames, found, rfl⟩ := allocAlignedPages_eq_take (Run.toOption_eq_some.mp hx)
        exact ⟨take_reservedRegions pa reconstructed numFrames found, h.take _ _ _⟩
    | free reconstructed ptr n =>
        -- The check decides: a panic changes nothing, and a range that passes meets no region.
        simp only [callStep, freeM_run] at hstep
        cases hover : pa.overlapsReserved (freeFrames reconstructed ptr n).start
            (freeFrames reconstructed ptr n).len with
        | true =>
            rw [hover] at hstep
            cases hstep
            exact ⟨rfl, h⟩
        | false =>
            rw [hover] at hstep
            cases hstep
            exact ⟨mark_reservedRegions pa .unused _ _, regionsUsed_freeM h hc hover⟩
  exact ⟨hboth.1, hboth.1 ▸ hboth.2⟩

end PageAllocator

open PageAllocator in
/-- **Reserved frames are never released.** After `page_allocator_init` accepted a sorted map,
and along every run of calls with any arguments in which the frames of each `free` stay below
`FRAME_COUNT`, the table of regions is the one the initialization left, every frame of every
recorded region is used, and a `free` that panics leaves the bitmap as it was. -/
theorem reserved_never_released (map : List EfiMemoryDescriptor) (hmap : DisjointMap map)
    (hsorted : map.Pairwise fun d e => d.physicalStart ≤ e.physicalStart) {pa₀ : PageAllocator}
    (hinit : pageAllocatorInit map = .ok pa₀) {pa : PageAllocator}
    (hs : Reachable (fun s => s = pa₀) callStep (fun _ c => InRange c) pa) :
    pa.reservedRegions = pa₀.reservedRegions ∧
    (∀ r ∈ pa.reservedRegions, ∀ f ∈ r.frames, pa.frameStatusAt f = .used) ∧
    ∀ reconstructed ptr n e pa', (freeM reconstructed ptr n).run pa = .error e pa' →
      pa'.bitmap = pa.bitmap := by
  have hinv : pa.reservedRegions = pa₀.reservedRegions ∧ RegionsUsed pa.reservedRegions pa := by
    induction hs with
    | start h0 =>
        rw [h0]
        exact ⟨rfl, regionsUsed_init hmap hsorted hinit⟩
    | next _ hc hstep ih =>
        obtain ⟨hsame, hused⟩ := callStep_reserved ih.2 hc hstep
        exact ⟨hsame.trans ih.1, hused⟩
  refine ⟨hinv.1, fun r hr => (hinv.2 r hr).2, ?_⟩
  intro reconstructed ptr n e pa' hrun
  -- `free` panics before it writes.
  rw [freeM_run] at hrun
  split at hrun
  · cases hrun
    rfl
  · cases hrun

open PageAllocator in
/-- On the allocator's own test map, frame 4 is released and then frame 5. The first call panics,
and the second is for a frame nobody allocated. -/
theorem reserved_never_released_testMap :
    ∃ pa, Reachable (fun s => s = testPa) callStep (fun _ c => InRange c) pa ∧
      (freeM false 0x4000 0x1000).run pa =
        .error (.panic "Attempting to free memory reserved by UEFI firmware.") pa ∧
      pa.frameStatusAt 4 = .used := by
  -- Frame 4 is a recorded region, so its release panics in every state with that table.
  have hpanic : ∀ pa : PageAllocator, pa.reservedRegions = testPa.reservedRegions →
      (freeM false 0x4000 0x1000).run pa =
        .error (.panic "Attempting to free memory reserved by UEFI firmware.") pa := by
    intro pa hregions
    rw [freeM_run, if_pos]
    unfold PageAllocator.overlapsReserved
    rw [hregions]
    rfl
  have hinit : pageAllocatorInit testMap = .ok testPa := rfl
  have hfirst : callStep testPa (.free false 0x4000 0x1000) = some testPa := by
    simp only [callStep, hpanic testPa rfl]
  have hsecond : callStep testPa (.free false 0x5000 0x1000) = some (testPa.markNotUsed 5 1) := rfl
  have hrange : ∀ ptr, phys2frame (ptr - ptr % PAGE_SIZE) < 8 →
      InRange (.free false ptr 0x1000) := by
    intro ptr hptr f hf
    have hend : f < phys2frame (ptr - ptr % PAGE_SIZE) + 1 := hf.2
    have hcount : 8 < FRAME_COUNT := by decide
    omega
  have hs : Reachable (fun s => s = testPa) callStep (fun _ c => InRange c)
      (testPa.markNotUsed 5 1) :=
    .next (.next (.start rfl) (hrange _ (by decide)) hfirst) (hrange _ (by decide)) hsecond
  obtain ⟨hregions, hused, -⟩ := reserved_never_released testMap testMap_sorted.disjointMap
    testMap_sorted.sorted hinit hs
  refine ⟨_, hs, hpanic _ hregions, hused ⟨4, 1⟩ ?_ 4 ⟨Nat.le_refl _, by decide⟩⟩
  rw [hregions]
  decide

end YmirC
