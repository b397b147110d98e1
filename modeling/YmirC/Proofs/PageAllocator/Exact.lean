import YmirC.Proofs.PageAllocator.Events
import YmirC.Proofs.PageAllocator.Safety

/-!
# `YmirC.Proofs.PageAllocator.Exact`: the bitmap and the region table on sorted maps

On a sorted map the bitmap and the table of regions describe complementary sets. `Init` says
that the frames of a region are used and which frames are unused, and `Events` says that a used
frame is in a region and where `frame_end` is.
-/

set_option autoImplicit false

namespace YmirC

open PageAllocator

/-- **`page_allocator_init` is exact on sorted maps.** When the regions fit in the table it
returns. A frame below `frame_end` is then unused exactly when it lies in a usable descriptor
that ends below `MAX_PHYSICAL_SIZE`, and used exactly when it lies in a recorded region.
`frame_end` is the end of the last usable descriptor in front of the first one that reaches
`MAX_PHYSICAL_SIZE`, and 0 when there is none. -/
theorem pageAllocatorInit_exact (map : List EfiMemoryDescriptor) (hmap : SortedMap map)
    (hroom : ((initEvents 0 map).filterMap InitEvent.region).length
      ≤ MAX_UEFI_RESERVED_RESIONS) :
    ∃ pa, pageAllocatorInit map = .ok pa ∧
      (∀ f < pa.frameEnd, pa.frameStatusAt f = .unused ↔
        ∃ d ∈ map, isUsableMemory d = true ∧ d.physicalEnd < MAX_PHYSICAL_SIZE ∧
          f ∈ d.frames) ∧
      (∀ f < pa.frameEnd, pa.frameStatusAt f = .used ↔
        ∃ r ∈ pa.reservedRegions, f ∈ r.frames) ∧
      pa.frameEnd = phys2frame ((lastUsableEnd
        (map.takeWhile fun d => d.physicalEnd < MAX_PHYSICAL_SIZE)).getD 0) := by
  obtain ⟨pa, hrun⟩ := pageAllocatorInit_returns hmap.placed hroom
  have hok := initOk_of_pageAllocatorInit hmap hrun
  have hreplayed := replayed_of_pageAllocatorInit hmap.placed hrun
  refine ⟨pa, hrun, ?_, ?_, hreplayed.frameEnd⟩
  · intro f hf
    constructor
    · -- `Events` tells that the descriptor was read, hence that it ends below
      -- `MAX_PHYSICAL_SIZE`.
      intro hunused
      obtain ⟨d, hd, hu, hfd⟩ := hreplayed.unused hmap.placed hf hunused
      exact ⟨d, (mem_of_mem_readDescs hd).1, hu, (mem_of_mem_readDescs hd).2, hfd⟩
    · rintro ⟨d, hd, hu, -, hfd⟩
      exact (hok.unused_iff f hf).mpr ⟨d, hd, hu, hfd⟩
  · intro f _
    constructor
    · exact hreplayed.used
    · rintro ⟨r, hr, hfr⟩
      exact (hok.regions r hr).2.2 f hfr

/-- The allocator's own test map has one hole and one reserved descriptor. -/
theorem pageAllocatorInit_exact_testMap :
    ((initEvents 0 testMap).filterMap InitEvent.region).length = 2 ∧
      ∃ pa, pageAllocatorInit testMap = .ok pa ∧ pa.frameEnd = 15 ∧
        (∀ f < 15, pa.frameStatusAt f = .used ↔ ∃ r ∈ pa.reservedRegions, f ∈ r.frames) := by
  obtain ⟨pa, hrun, -, hused, hend⟩ := pageAllocatorInit_exact testMap testMap_sorted (by decide)
  have hend' : pa.frameEnd = 15 := hend
  exact ⟨by decide, pa, hrun, hend', hend' ▸ hused⟩

end YmirC
