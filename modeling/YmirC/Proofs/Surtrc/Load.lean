import YmirC.Proofs.Surtrc.Segment

/-!
# `YmirC.Proofs.Surtrc.Load`: the kernel is loaded where it is mapped

`efi_main` maps the kernel and then calls `load_segment`. What `load_segment` needs of the page
tables (`PagesWritable`, `Unaliased`) is what the mapping leaves: the loop maps page by page, each
to a frame of its own, the frames are obtained before any table of the loop, and the hierarchy
stays a tree. So the two compose, and the image of every segment is in physical memory at the
address its header gives.
-/

set_option autoImplicit false

namespace YmirC.Surtrc

open ByteMemory Paging

variable {φ ψ : Type} {bs : BootServices φ} {Taken : φ → Nat → Prop} {m m' : Loader φ}
  {phdr : List SegmentPhdr} {kernel : FileHandle ψ} {file : Nat → BitVec 8}

/-- The headers as the mapping reads them. -/
def mappedHeaders (phdr : List SegmentPhdr) : List Elf64Phdr := phdr.map SegmentPhdr.toElf64Phdr

theorem mem_mappedHeaders {ph : SegmentPhdr} (hph : ph ∈ phdr) :
    ph.toElf64Phdr ∈ mappedHeaders phdr :=
  List.mem_map_of_mem hph

section Mapped
variable {n startVirt startPhys : Nat} {fw' : φ} {range : KernelRange}

/-- A page of a segment is one of those the loop maps. -/
theorem KernelPages.page (hn : KernelPages (mappedHeaders phdr) range n)
    (himage : KernelImage (mappedHeaders phdr)) {ph : SegmentPhdr} (hph : ph ∈ phdr)
    (hl : ph.Loaded) {g : Nat} (hg : g ∈ ph.pages) :
    ∃ i < n, g * PAGE_SIZE = range.startVirt + i * 4096 := by
  obtain ⟨hlo, hhi, -⟩ := hn.segment _ (mem_mappedHeaders hph) hl
  have hal := (himage.aligned _ (mem_mappedHeaders hph) hl).1
  have hstart := hn.virt_aligned
  simp only [Elf64Phdr.pages, PAGE_SIZE, Extent.mem_mk] at *
  exact ⟨g - range.startVirt / 4096, by omega, by omega⟩

/-- The page tables after the mapping are such that the segments can be loaded. -/
theorem PagesMapped.ready (hmapped : PagesMapped Taken range.startVirt range.startPhys n
      { m with fw := fw' } m') (hn : KernelPages (mappedHeaders phdr) range n)
    (himage : KernelImage (mappedHeaders phdr)) (h : Hierarchy Taken m)
    (hfresh : ∀ g ∈ (⟨range.startPhys / PAGE_SIZE, n⟩ : Extent), ¬ Taken m.fw g ∧ Taken fw' g)
    (hway : ∀ i < n, WritableWay m.mem m.cr3 (range.startVirt + i * 4096)) :
    PagesWritable phdr m' ∧ Unaliased phdr m' := by
  have hcr3 : m'.cr3 = m.cr3 := hmapped.ext.cr3
  have htrans : ∀ i < n, translateAddr m'.mem m'.cr3 (range.startVirt + i * 4096)
      = some (range.startPhys + i * 4096) := by
    intro i hi
    have := hmapped.trans (range.startVirt + i * 4096)
    rw [hcr3, this, if_pos (by omega)]
    congr 1
    omega
  have hphys := hn.phys_aligned
  simp only [PAGE_SIZE] at hphys
  refine ⟨?_, ⟨⟨hmapped.hierarchy.root, hmapped.hierarchy.tree.unshared, hmapped.hierarchy.clear⟩,
    ?_, ?_⟩⟩
  · intro ph hph hl g hg
    obtain ⟨i, hi, haddr⟩ := hn.page himage hph hl hg
    rw [haddr, hcr3]
    have hentry := hmapped.entries i hi
    have hway' := hmapped.ext.adds.writableWay (hway i hi)
    exact ⟨hentry, hway'.writable hentry⟩
  · intro a ha hla b hb hlb g hg g' hg' heq
    obtain ⟨i, hi, haddr⟩ := hn.page himage ha hla hg
    obtain ⟨j, hj, haddr'⟩ := hn.page himage hb hlb hg'
    rw [haddr, haddr', htrans i hi, htrans j hj, Option.some.injEq] at heq
    simp only [PAGE_SIZE] at haddr haddr'
    omega
  · intro ph hph hl g hg v t ht heq
    obtain ⟨i, hi, haddr⟩ := hn.page himage hph hl hg
    rw [haddr, htrans i hi, Option.some.injEq] at heq
    have hframe : t / PAGE_SIZE ∈ (⟨range.startPhys / PAGE_SIZE, n⟩ : Extent) := by
      simp only [PAGE_SIZE, Extent.mem_mk]
      omega
    obtain ⟨hnot, htaken⟩ := hfresh _ hframe
    -- A table that was there is in a page that was taken before the frames of the kernel, and a
    -- new one in a page that was not taken after them.
    rw [hcr3] at ht
    rcases hmapped.ext.tables ht with hold | hnew
    · exact hnot (h.taken hold)
    · exact hnew htaken

end Mapped

/-- The run of `efi_main` up to `load_segment`, which can load the segments then. -/
theorem mapKernel_ready (hbs : bs.Fresh Taken) (himage : KernelImage (mappedHeaders phdr))
    (h : Hierarchy Taken m)
    (hnone : ∀ va ∈ kernelBytes (mappedHeaders phdr), translateAddr m.mem m.cr3 va = none)
    (hway : ∀ va ∈ kernelBytes (mappedHeaders phdr), WritableWay m.mem m.cr3 va) :
    Yields (mapKernel bs (mappedHeaders phdr) m) fun m' =>
      (PagesWritable phdr m' ∧ Unaliased phdr m') ∧ ∃ n fw',
        KernelPages (mappedHeaders phdr) (computeKernelMemoryRange (mappedHeaders phdr)) n ∧
        kernelBytes (mappedHeaders phdr)
          = ⟨(computeKernelMemoryRange (mappedHeaders phdr)).startVirt, n * 4096⟩ ∧
        PagesMapped Taken (computeKernelMemoryRange (mappedHeaders phdr)).startVirt
          (computeKernelMemoryRange (mappedHeaders phdr)).startPhys n { m with fw := fw' } m' ∧
        ∀ i < n, pageEntry m'.mem m.cr3
            ((computeKernelMemoryRange (mappedHeaders phdr)).startVirt + i * 4096)
          = some (pageReference 0#64
              ((computeKernelMemoryRange (mappedHeaders phdr)).startPhys + i * 4096)) := by
  apply (mapKernel_pages hbs himage h hnone).mono
  rintro m' ⟨n, fw', hn, hbytes, hfresh, hmapped, hentries⟩
  refine ⟨hmapped.ready hn himage h hfresh ?_, n, fw', hn, hbytes, hmapped, hentries⟩
  intro i hi
  apply hway
  rw [hbytes, Extent.mem_mk]
  omega

/-- **The boot loader maps and loads the kernel.** The hierarchy of the firmware is one the loader
can extend, no address of the pages of the kernel is mapped, and the entries that are on their way
already allow writes. When neither the firmware nor the file handle fails, `efi_main` gets through
the loop that maps the kernel and through `load_segment` without a page fault, and the image of
every segment is in physical memory where its header puts it, with the rights its flags ask for. -/
theorem mapKernel_loadSegment (hbs : bs.Fresh Taken) (himage : KernelImage (mappedHeaders phdr))
    (h : Hierarchy Taken m)
    (hnone : ∀ va ∈ kernelBytes (mappedHeaders phdr), translateAddr m.mem m.cr3 va = none)
    (hway : ∀ va ∈ kernelBytes (mappedHeaders phdr), WritableWay m.mem m.cr3 va)
    (ht : SegmentTable phdr) (hreads : ReadsFile kernel file phdr) (f : ψ) :
    Yields (mapKernel bs (mappedHeaders phdr) m) fun m' =>
      NoFault (loadSegment kernel phdr (m', f)) fun s' =>
        SegmentsLoaded file phdr (InEntry phdr m') m' s'.1 ∧
          ∀ ph ∈ phdr, ph.Loaded → ∀ k < ph.pMemsz.toNat,
            s'.1.mem (ph.pPaddr.toNat + k) = ph.imageByte file k := by
  apply (mapKernel_ready hbs himage h hnone hway).mono
  rintro m' ⟨⟨hw, hu⟩, n, fw', hn, -, hmapped, -⟩
  apply (loadSegment_spec phdr m' f ht hw hu hreads).mono
  intro s' hloaded
  refine ⟨hloaded.segmentsLoaded hw hu, ?_⟩
  intro ph hph hl k hk
  apply hloaded.image ph hph hl k hk
  -- The byte is at the distance of the whole kernel from where it is mapped.
  obtain ⟨hlo, hhi, hpaddr⟩ := hn.segment _ (mem_mappedHeaders hph) hl
  have hcr3 : m'.cr3 = m.cr3 := hmapped.ext.cr3
  have htrans := hmapped.trans (ph.pVaddr.toNat + k)
  simp only [PAGE_SIZE] at hhi
  rw [hcr3, htrans, if_pos (by omega)]
  congr 1
  omega

end YmirC.Surtrc
