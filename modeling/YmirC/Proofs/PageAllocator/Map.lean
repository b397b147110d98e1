import Mathlib.Data.List.Pairwise
import YmirC.Proofs.PageAllocator.Frames

/-!
# `YmirC.Proofs.PageAllocator.Map`: memory maps

What the results on `page_allocator_init` assume of the descriptors the firmware lists. They are
page aligned and do not wrap (`Placed`). A `DisjointMap` lists them in any order, and a
`SortedMap` by their start, without empty ones, so that each ends before the next one starts.
-/

set_option autoImplicit false

namespace YmirC

/-- The frames a descriptor describes. -/
def EfiMemoryDescriptor.frames (d : EfiMemoryDescriptor) : Extent :=
  ⟨phys2frame d.physicalStart, d.numberOfPages⟩

/-- The bytes a descriptor describes. -/
def EfiMemoryDescriptor.bytes (d : EfiMemoryDescriptor) : Extent :=
  ⟨d.physicalStart, d.numberOfPages * PAGE_SIZE⟩

/-- The first address behind a descriptor. -/
def EfiMemoryDescriptor.physicalEnd (d : EfiMemoryDescriptor) : Nat :=
  d.physicalStart + d.numberOfPages * PAGE_SIZE

/-- The frames of a reserved region. -/
def UefiReservedRegion.frames (r : UefiReservedRegion) : Extent := ⟨r.frame, r.numFrames⟩

/-- A page-aligned, nonempty descriptor that does not wrap. -/
structure EfiMemoryDescriptor.WellFormed (d : EfiMemoryDescriptor) : Prop where
  aligned : d.physicalStart % PAGE_SIZE = 0
  nonempty : 0 < d.numberOfPages
  noWrap : d.physicalEnd < 2 ^ 64

/-- A memory map sorted by start address, of well-formed, pairwise disjoint descriptors. -/
structure SortedMap (map : List EfiMemoryDescriptor) : Prop where
  sorted : map.Pairwise fun d e => d.physicalStart ≤ e.physicalStart
  disjoint : map.Pairwise fun d e => d.bytes.Disjoint e.bytes
  wellFormed : ∀ d ∈ map, d.WellFormed

/-- A page-aligned descriptor that does not wrap. It may be empty. -/
structure EfiMemoryDescriptor.Placed (d : EfiMemoryDescriptor) : Prop where
  aligned : d.physicalStart % PAGE_SIZE = 0
  noWrap : d.physicalEnd < 2 ^ 64

/-- A memory map in any order, of pairwise disjoint descriptors. -/
structure DisjointMap (map : List EfiMemoryDescriptor) : Prop where
  disjoint : map.Pairwise fun d e => d.bytes.Disjoint e.bytes
  placed : ∀ d ∈ map, d.Placed

theorem EfiMemoryDescriptor.Placed.end_aligned {d : EfiMemoryDescriptor} (hd : d.Placed) :
    d.physicalEnd % PAGE_SIZE = 0 := by
  have := hd.aligned
  simp only [EfiMemoryDescriptor.physicalEnd, PAGE_SIZE] at *
  omega

theorem EfiMemoryDescriptor.Placed.mem_frames {d : EfiMemoryDescriptor} (hd : d.Placed) {f : Nat} :
    f ∈ d.frames ↔ d.physicalStart ≤ f * PAGE_SIZE ∧ f * PAGE_SIZE < d.physicalEnd := by
  have := hd.aligned
  simp only [EfiMemoryDescriptor.frames, EfiMemoryDescriptor.physicalEnd, Extent.mem_mk,
    phys2frame, PAGE_SIZE] at *
  omega

theorem EfiMemoryDescriptor.Placed.mem_bytes {d : EfiMemoryDescriptor} (hd : d.Placed) {f : Nat} :
    f ∈ d.frames ↔ f * PAGE_SIZE ∈ d.bytes :=
  hd.mem_frames

/-- In a sorted map of disjoint descriptors each one ends before the next starts. -/
theorem SortedMap.ordered {map : List EfiMemoryDescriptor} (h : SortedMap map) :
    map.Pairwise fun d e => d.physicalEnd ≤ e.physicalStart := by
  have hboth := h.sorted.and h.disjoint
  refine hboth.imp_of_mem ?_
  intro d e hd he hde
  by_contra hlt
  -- Otherwise the start of `e` is a byte of both.
  refine hde.2 e.physicalStart ⟨hde.1, ?_⟩ ⟨Nat.le_refl _, ?_⟩
  · exact Nat.not_le.mp hlt
  · have hpos := (h.wellFormed e he).nonempty
    simp only [EfiMemoryDescriptor.bytes, PAGE_SIZE]
    omega

/-- Disjointness of bytes, decided by comparing the ends. -/
theorem bytes_disjoint_of_le {d e : EfiMemoryDescriptor} (h : d.physicalEnd ≤ e.physicalStart) :
    d.bytes.Disjoint e.bytes := by
  intro x hd he
  have h1 := hd.2
  have h2 := he.1
  simp only [EfiMemoryDescriptor.bytes, EfiMemoryDescriptor.physicalEnd] at *
  omega

theorem EfiMemoryDescriptor.WellFormed.placed {d : EfiMemoryDescriptor} (h : d.WellFormed) :
    d.Placed :=
  ⟨h.aligned, h.noWrap⟩

theorem SortedMap.placed {map : List EfiMemoryDescriptor} (h : SortedMap map) :
    ∀ d ∈ map, d.Placed :=
  fun d hd => (h.wellFormed d hd).placed

theorem SortedMap.disjointMap {map : List EfiMemoryDescriptor} (h : SortedMap map) :
    DisjointMap map :=
  ⟨h.disjoint, h.placed⟩

/-- A frame belongs to at most one descriptor. -/
theorem SortedMap.eq_of_mem_frames {map : List EfiMemoryDescriptor} (h : SortedMap map)
    {d e : EfiMemoryDescriptor} (hd : d ∈ map) (he : e ∈ map) {f : Nat} (hfd : f ∈ d.frames)
    (hfe : f ∈ e.frames) : d = e := by
  have hsymm : Std.Symm fun d e : EfiMemoryDescriptor => d.bytes.Disjoint e.bytes :=
    ⟨fun _ _ hdis => hdis.symm⟩
  by_contra hne
  exact h.disjoint.forall hd he hne (f * PAGE_SIZE)
    ((h.placed d hd).mem_bytes.mp hfd) ((h.placed e he).mem_bytes.mp hfe)

theorem phys2frame_mono {a b : Nat} (h : a ≤ b) : phys2frame a ≤ phys2frame b :=
  Nat.div_le_div_right h

/-- The page count of a hole or of the rest of memory, between two aligned addresses. -/
theorem sub64_div_page {a b : Nat} (hlt : a ≤ b) (hb : b < 2 ^ 64) (ha : a % PAGE_SIZE = 0) :
    sub64 b a / PAGE_SIZE = phys2frame b - phys2frame a := by
  rw [sub64_of_le hlt hb]
  simp only [phys2frame, PAGE_SIZE] at *
  omega

end YmirC
