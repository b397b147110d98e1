import YmirC.Proofs.PageAllocator.Events

/-!
# `YmirC.Proofs.PageAllocator.Init`: what `page_allocator_init` leaves behind

On a sorted map the loop of `page_allocator_init` goes up through physical memory, so its events
are disjoint ranges (`initEvents_disjoint`) and the status of a frame is that of the one event
that holds it. `initOk_of_pageAllocatorInit` is the result.
-/

set_option autoImplicit false

namespace YmirC

namespace PageAllocator

/-- Each descriptor ends before the next one starts, and the first one starts at `phys_end` or
above it. -/
structure Ascending (physEnd : Nat) (map : List EfiMemoryDescriptor) : Prop where
  above : ∀ d ∈ map, physEnd ≤ d.physicalStart
  ordered : map.Pairwise fun d e => d.physicalEnd ≤ e.physicalStart

variable {physEnd : Nat} {map : List EfiMemoryDescriptor}

theorem Ascending.next {d : EfiMemoryDescriptor} {rest : List EfiMemoryDescriptor}
    (h : Ascending physEnd (d :: rest)) : Ascending d.physicalEnd rest :=
  ⟨(List.pairwise_cons.mp h.ordered).1, h.ordered.of_cons⟩

/-- The events of such a map hold frames from `phys_end` on. -/
theorem initEvents_above (hat : LoopAt physEnd map) (h : Ascending physEnd map) :
    ∀ e ∈ initEvents physEnd map, ∀ f ∈ e.frames, physEnd ≤ f * PAGE_SIZE := by
  induction map generalizing physEnd with
  | nil =>
      intro e he
      cases he
  | cons d rest ih =>
      intro e he f hf
      have hd := hat.head
      have hle := h.above d List.mem_cons_self
      have hstart : d.physicalStart ≤ d.physicalEnd := Nat.le_add_right _ _
      -- The hole, the descriptor itself, and the rest of the list, which starts above it.
      by_cases hlt : d.physicalEnd < MAX_PHYSICAL_SIZE
      · have hword : MAX_PHYSICAL_SIZE < 2 ^ 64 := by decide
        rw [initEvents_of_lt hlt, List.mem_append, List.mem_cons] at he
        rcases he with he | rfl | he
        · exact ((mem_holeEvent hat.aligned hd.aligned (by omega)).mp ⟨e, he, hf⟩).1
        · rw [ownEvent_frames, hd.mem_frames] at hf
          omega
        · have := ih (hat.next hlt) h.next e he f hf
          omega
      · rw [initEvents_of_ge (Nat.not_lt.mp hlt)] at he
        have := ((mem_lastEvents hd hat.aligned hat.inRange).mp ⟨e, he, hf⟩).1
        omega

/-- No frame is marked twice. -/
theorem initEvents_disjoint (hat : LoopAt physEnd map) (h : Ascending physEnd map) :
    (initEvents physEnd map).Pairwise fun e e' => e.frames.Disjoint e'.frames := by
  induction map generalizing physEnd with
  | nil => exact List.Pairwise.nil
  | cons d rest ih =>
      have hd := hat.head
      have hword : MAX_PHYSICAL_SIZE < 2 ^ 64 := by decide
      have hstart : d.physicalStart ≤ d.physicalEnd := Nat.le_add_right _ _
      have hhole : (holeEvent physEnd d.physicalStart).Pairwise fun e e' =>
          e.frames.Disjoint e'.frames := by
        unfold holeEvent
        split
        · exact List.pairwise_singleton _ _
        · exact List.Pairwise.nil
      -- The hole ends where the descriptor starts.
      have hbelow : d.physicalStart < 2 ^ 64 → ∀ e ∈ holeEvent physEnd d.physicalStart,
          ∀ f ∈ e.frames, f * PAGE_SIZE < d.physicalStart := by
        intro hmax e he f hf
        exact ((mem_holeEvent hat.aligned hd.aligned hmax).mp ⟨e, he, hf⟩).2
      by_cases hlt : d.physicalEnd < MAX_PHYSICAL_SIZE
      · have habove := initEvents_above (hat.next hlt) h.next
        rw [initEvents_of_lt hlt]
        -- The hole, the descriptor and the later events lie one above the other.
        refine List.pairwise_append.mpr ⟨hhole, List.pairwise_cons.mpr ⟨?_, ?_⟩, ?_⟩
        · intro e he f hown hf
          rw [ownEvent_frames, hd.mem_frames] at hown
          have := habove e he f hf
          omega
        · exact ih (hat.next hlt) h.next
        · intro e he e' he' f hf hf'
          have hlow := hbelow (by omega) e he f hf
          rcases List.mem_cons.mp he' with rfl | he'
          · rw [ownEvent_frames, hd.mem_frames] at hf'
            omega
          · have := habove e' he' f hf'
            omega
      · rw [initEvents_of_ge (Nat.not_lt.mp hlt)]
        unfold lastEvents
        split
        · exact List.pairwise_singleton _ _
        · -- The descriptor that reaches the end of memory: its hole and what is above its start.
          rename_i hbreak
          have hinRange := hat.inRange
          refine List.pairwise_append.mpr ⟨hhole, List.pairwise_singleton _ _, ?_⟩
          intro e he e' he' f hf hf'
          have hlow := hbelow (by omega) e he f hf
          rw [List.mem_singleton.mp he', mem_reserveUpTo hd.aligned MAX_PHYSICAL_SIZE_aligned
            (by omega) hword] at hf'
          omega

/-- A descriptor that was read has its event. -/
theorem mem_initEvents {d : EfiMemoryDescriptor} (hd : d ∈ readDescs map) :
    ownEvent d ∈ initEvents physEnd map := by
  induction map generalizing physEnd with
  | nil => cases hd
  | cons d₀ rest ih =>
      by_cases hlt : d₀.physicalEnd < MAX_PHYSICAL_SIZE
      · rw [readDescs_of_lt hlt] at hd
        rw [initEvents_of_lt hlt]
        rcases List.mem_cons.mp hd with rfl | hd
        · exact List.mem_append_right _ List.mem_cons_self
        · exact List.mem_append_right _ (List.mem_cons_of_mem _ (ih hd))
      · rw [readDescs_of_ge (Nat.not_lt.mp hlt)] at hd
        cases hd

/-- A descriptor that was not read starts above those that were. -/
theorem mem_readDescs_or_above (h : Ascending physEnd map) {d : EfiMemoryDescriptor}
    (hd : d ∈ map) : d ∈ readDescs map ∨ ∀ e ∈ readDescs map, e.physicalEnd ≤ d.physicalStart := by
  have hsplit : readDescs map ++ map.dropWhile (fun d => d.physicalEnd < MAX_PHYSICAL_SIZE) = map :=
    List.takeWhile_append_dropWhile
  have hord := h.ordered
  rw [← hsplit] at hd hord
  rcases List.mem_append.mp hd with hd | hd
  · exact .inl hd
  · exact .inr fun e he => (List.pairwise_append.mp hord).2.2 e he d hd

/-- The one event that holds a frame decides its status. -/
theorem Replayed.status_of_mem {pa : PageAllocator} (h : Replayed map pa)
    (hplaced : ∀ d ∈ map, d.Placed) (hasc : Ascending 0 map) {e : InitEvent}
    (he : e ∈ initEvents 0 map) {f : Nat} (hf : f ∈ e.frames) : pa.frameStatusAt f = e.status := by
  have hdisj : ((initEvents 0 map).map InitEvent.write).Pairwise fun w w' => w.1.Disjoint w'.1 :=
    List.pairwise_map.mpr (initEvents_disjoint (.start hplaced) hasc)
  rw [h.status f]
  exact Overwrite.after_of_mem hdisj (List.mem_map_of_mem he) hf

end PageAllocator

open PageAllocator

theorem SortedMap.ascending {map : List EfiMemoryDescriptor} (h : SortedMap map) :
    Ascending 0 map :=
  ⟨fun _ _ => Nat.zero_le _, h.ordered⟩

/-- What `page_allocator_init` leaves behind. Below `frame_end` the unused frames are exactly
those of the usable descriptors, and every frame of a recorded region is used. -/
structure InitOk (map : List EfiMemoryDescriptor) (pa : PageAllocator) : Prop where
  frameEnd_le : pa.frameEnd ≤ FRAME_COUNT
  unused_iff : ∀ f < pa.frameEnd, pa.frameStatusAt f = .unused ↔
    ∃ d ∈ map, isUsableMemory d = true ∧ f ∈ d.frames
  regions : ∀ r ∈ pa.reservedRegions, 0 < r.numFrames ∧ r.frame + r.numFrames ≤ FRAME_COUNT ∧
    ∀ f ∈ r.frames, pa.frameStatusAt f = .used

/-- `page_allocator_init` on a sorted map. -/
theorem initOk_of_pageAllocatorInit {map : List EfiMemoryDescriptor} (hmap : SortedMap map)
    {pa : PageAllocator} (hrun : pageAllocatorInit map = .ok pa) : InitOk map pa := by
  have hreplayed := replayed_of_pageAllocatorInit hmap.placed hrun
  have hat := LoopAt.start hmap.placed
  refine ⟨frameEnd_le_of_replayed hreplayed, fun f hf => ?_, fun r hr => ?_⟩
  · constructor
    · intro hunused
      obtain ⟨d, hd, hu, hfd⟩ := hreplayed.unused hmap.placed hf hunused
      exact ⟨d, (mem_of_mem_readDescs hd).1, hu, hfd⟩
    · rintro ⟨d, hd, hu, hfd⟩
      rcases mem_readDescs_or_above hmap.ascending hd with hread | habove
      · rw [hreplayed.status_of_mem hmap.placed hmap.ascending (mem_initEvents hread)
          (ownEvent_frames d ▸ hfd), ownEvent_status, if_pos hu]
      · -- An unread descriptor lies above `frame_end`.
        obtain ⟨d', hd', -, hlt⟩ := hreplayed.below hf
        have hle := habove d' hd'
        have hlow := ((hmap.placed d hd).mem_frames.mp hfd).1
        omega
  · rw [hreplayed.regions] at hr
    -- A region is the range of an event that reserved it.
    obtain ⟨e, he, hs, rfl⟩ := mem_regions.mp hr
    refine ⟨initEvents_nonempty hat (fun d hd => (hmap.wellFormed d hd).nonempty) e he,
      (initEvents_safe hat e he).end_le, ?_⟩
    intro f hf
    rw [hreplayed.status_of_mem hmap.placed hmap.ascending he hf, hs]

end YmirC
