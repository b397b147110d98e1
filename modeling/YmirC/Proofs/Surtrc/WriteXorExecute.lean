import YmirC.Proofs.Surtrc.Load

/-!
# `YmirC.Proofs.Surtrc.WriteXorExecute`: writable and executable pages of the kernel

The loop of `efi_main` maps every page of the range writable and executable, and `load_segment`
then sets the rights of the pages of each segment, which are never both (`rights_ne`). A page of
the range that is in no segment, in a gap between two of them, keeps the entry of the loop. So the
pages of the range are all writable or executable, never both, exactly when the segments cover it
(`loadSegment_writeXorExecute_iff`).
-/

set_option autoImplicit false

namespace YmirC.Surtrc

open ByteMemory Paging

variable {φ ψ : Type} {bs : BootServices φ} {Taken : φ → Nat → Prop} {m m' : Loader φ}
  {phdr : List SegmentPhdr} {kernel : FileHandle ψ} {file : Nat → BitVec 8} {va : Nat}

/-- No page of these addresses is both writable and executable. -/
def WriteXorExecute (bytes : Extent) (m : Loader φ) : Prop :=
  ∀ va ∈ bytes, ∀ e, pageEntry m.mem m.cr3 va = some e →
    ¬ (mayWrite e = true ∧ noExecute e = false)

/-- The address is in a page of a segment that is loaded. -/
def InSegment (phdr : List SegmentPhdr) (va : Nat) : Prop :=
  ∃ ph ∈ phdr, ph.Loaded ∧ va / PAGE_SIZE ∈ ph.pages

/-! ### Rights -/

theorem mayWrite_pageReference (phys : Nat) : mayWrite (pageReference 0#64 phys) = true := by
  rw [mayWrite, getLsbD_pageReference_zero]
  simp

theorem noExecute_pageReference (phys : Nat) : noExecute (pageReference 0#64 phys) = false := by
  rw [noExecute, getLsbD_pageReference_zero]
  simp

/-- The rights of a segment do not allow both. -/
theorem rights_ne (ph : SegmentPhdr) : ph.rights ≠ (true, false) := by
  unfold SegmentPhdr.rights
  split
  · decide
  split
  · decide
  · decide

/-! ### The pages of the range -/

/-- A page of a segment has one right at most. -/
theorem LoadedBy.of_inSegment (h : LoadedBy file phdr m m') (hva : InSegment phdr va)
    {e : BitVec 64} (he : pageEntry m'.mem m'.cr3 va = some e) :
    ¬ (mayWrite e = true ∧ noExecute e = false) := by
  obtain ⟨ph, hph, hl, hg⟩ := hva
  have hrights := h.rights ph hph hl _ hg
  have hpage : va / PAGE_SIZE * PAGE_SIZE / 4096 = va / 4096 := Nat.mul_div_cancel _ (by decide)
  rw [pageRights, pageEntry_congr hpage, ← h.cr3, he, Option.map_some, Option.some.injEq] at hrights
  rintro ⟨hwrite, hexec⟩
  rw [hwrite, hexec] at hrights
  exact rights_ne ph hrights.symm

/-- A page outside the segments keeps its entry. -/
theorem LoadedBy.of_not_inSegment (h : LoadedBy file phdr m m') (hw : PagesWritable phdr m)
    (hc : canonical va = true) (hva : ¬ InSegment phdr va) :
    pageEntry m'.mem m'.cr3 va = pageEntry m.mem m.cr3 va := by
  rw [h.cr3]
  apply h.keeps.pageEntry
  intro hpath
  exact hva (hw.mem_of_pagePath hc hpath)

/-- The entry of any address of `n` pages, from those of their first addresses. -/
theorem pageEntry_of_entries {mem : Mem} {root startVirt n : Nat} {entry : Nat → BitVec 64}
    (hal : startVirt % PAGE_SIZE = 0)
    (hentries : ∀ i < n, pageEntry mem root (startVirt + i * 4096) = some (entry i))
    (hva : va ∈ (⟨startVirt, n * 4096⟩ : Extent)) :
    pageEntry mem root va = some (entry ((va - startVirt) / 4096)) := by
  rw [Extent.mem_mk] at hva
  simp only [PAGE_SIZE] at hal
  have hpage : va / 4096 = (startVirt + (va - startVirt) / 4096 * 4096) / 4096 := by omega
  rw [pageEntry_congr hpage]
  exact hentries _ (by omega)

/-- **The loaded kernel has no page that is both writable and executable, if and only if its
segments cover the range.** The conditions are those under which the kernel is mapped and loaded
(`mapKernel_loadSegment`), for a run that gets through both. -/
theorem loadSegment_writeXorExecute_iff (hbs : bs.Fresh Taken)
    (himage : KernelImage (mappedHeaders phdr)) (h : Hierarchy Taken m)
    (hnone : ∀ va ∈ kernelBytes (mappedHeaders phdr), translateAddr m.mem m.cr3 va = none)
    (hway : ∀ va ∈ kernelBytes (mappedHeaders phdr), WritableWay m.mem m.cr3 va)
    (ht : SegmentTable phdr) (hreads : ReadsFile kernel file phdr) (f : ψ) {s : Loader φ × ψ}
    (hmap : mapKernel bs (mappedHeaders phdr) m = .ok m')
    (hload : loadSegment kernel phdr (m', f) = .ok s) :
    WriteXorExecute (kernelBytes (mappedHeaders phdr)) s.1 ↔
      ∀ va ∈ kernelBytes (mappedHeaders phdr), InSegment phdr va := by
  have hready := mapKernel_ready hbs himage h hnone hway
  rw [hmap] at hready
  obtain ⟨⟨hw, hu⟩, n, fw', hn, hbytes, hmapped, hentries⟩ := hready
  have hloaded := loadSegment_spec phdr m' f ht hw hu hreads
  rw [hload] at hloaded
  constructor
  · intro hxor va hva
    by_contra hgap
    -- The page of the address keeps the entry of the loop.
    rw [hbytes] at hva
    have hentry := pageEntry_of_entries hn.virt_aligned hentries hva
    have hcr3 : m'.cr3 = m.cr3 := hmapped.ext.cr3
    have hsame := LoadedBy.of_not_inSegment hloaded hw (pageEntry_eq_some.mp hentry).1 hgap
    rw [hcr3, hentry] at hsame
    rw [← hbytes] at hva
    exact hxor va hva _ hsame ⟨mayWrite_pageReference _, noExecute_pageReference _⟩
  · intro hcover va hva e he
    exact LoadedBy.of_inSegment hloaded (hcover va hva) he

/-! ### On concrete headers -/

/-- The headers of a segment for code and one for data, with a page in between. -/
def gapPhdr : List SegmentPhdr :=
  [textPhdr, { dataPhdr with pVaddr := 0xFFFFFFFF80102000, pPaddr := 0x102000 }]

theorem kernelImage_textData : KernelImage (mappedHeaders [textPhdr, dataPhdr]) where
  nonempty := ⟨textPhdr.toElf64Phdr, List.mem_cons_self, by decide⟩
  aligned := by decide
  top := by decide
  offset := ⟨0xFFFFFFFF80000000, by decide⟩

theorem kernelImage_gap : KernelImage (mappedHeaders gapPhdr) where
  nonempty := ⟨textPhdr.toElf64Phdr, List.mem_cons_self, by decide⟩
  aligned := by decide
  top := by decide
  offset := ⟨0xFFFFFFFF80000000, by decide⟩

/-- The entries of the tables of `referenceLoader` allow writes. -/
theorem writableWay_referenceLoader (va : Nat) :
    WritableWay (referenceLoader 0x4003#64).mem (referenceLoader 0x4003#64).cr3 va := by
  intro k t ht hp
  obtain ⟨j, -, -, rfl⟩ := tableOf_referenceLoader refersToLast_clear ht
  rw [entryAt_referenceLoader] at hp ⊢
  revert hp
  unfold referenceWords
  split
  · decide
  split
  · decide
  split
  · decide
  · decide

/-- A run of both functions is observed. -/
theorem run_of_observed {α : Type} (bs : BootServices Nat) (kernel : FileHandle Nat)
    (phdr : List SegmentPhdr) (m : Loader Nat) (g : Loader Nat × Nat → α) {a : α}
    (h : ((mapKernel bs (mappedHeaders phdr) m).toOption.bind fun m' =>
      (loadSegment kernel phdr (m', 0)).toOption.map g) = some a) :
    ∃ m' s, mapKernel bs (mappedHeaders phdr) m = .ok m' ∧
      loadSegment kernel phdr (m', 0) = .ok s ∧ g s = a := by
  cases hmap : mapKernel bs (mappedHeaders phdr) m with
  | error e =>
      rw [hmap] at h
      cases h
  | ok m' =>
      rw [hmap] at h
      cases hload : loadSegment kernel phdr (m', 0) with
      | error e =>
          simp [Except.toOption, hload] at h
      | ok s =>
          simp only [Except.toOption, Option.bind_some, hload, Option.map_some,
            Option.some.injEq] at h
          exact ⟨m', s, rfl, hload, h⟩

/-- Two segments in neighbouring pages, which cover the range. -/
theorem loadSegment_writeXorExecute_iff_textData : ∃ m' s,
    mapKernel bumpServices (mappedHeaders [textPhdr, dataPhdr]) (referenceLoader 0x4003#64)
      = .ok m' ∧
    loadSegment (fileOf countingFile) [textPhdr, dataPhdr] (m', 0) = .ok s ∧
    (WriteXorExecute (kernelBytes (mappedHeaders [textPhdr, dataPhdr])) s.1 ↔
      ∀ va ∈ kernelBytes (mappedHeaders [textPhdr, dataPhdr]),
        InSegment [textPhdr, dataPhdr] va) := by
  obtain ⟨m', s, hmap, hload, -⟩ := run_of_observed (a := 2) bumpServices (fileOf countingFile)
    [textPhdr, dataPhdr] (referenceLoader 0x4003#64) (fun s => s.2) (by decide)
  exact ⟨m', s, hmap, hload, loadSegment_writeXorExecute_iff bumpServices_fresh
    kernelImage_textData hierarchy_referenceLoader
    (fun va _ => translateAddr_referenceLoader refersToLast_clear va)
    (fun va _ => writableWay_referenceLoader va) segmentTable_text_data
    (readsFile_fileOf countingFile _) 0 hmap hload⟩

/-- The pages of the segments of a table with a gap. -/
theorem segmentTable_gap : SegmentTable gapPhdr where
  aligned := by decide
  disjoint := by
    refine List.pairwise_cons.mpr ⟨?_, List.pairwise_singleton _ _⟩
    intro b hb _ _ g hg
    rw [List.mem_singleton.mp hb]
    rw [pages_textPhdr, Extent.mem_mk] at hg
    have hpage : g = 0xFFFFFFFF80100 := by omega
    rw [hpage]
    decide
  sizes := by decide

theorem kernelBytes_gap :
    kernelBytes (mappedHeaders gapPhdr) = ⟨0xFFFFFFFF80100000, 0x3000⟩ := by decide

/-- A page of the range lies between the two segments: after the run every entry on the way to it
allows to write and to execute. -/
theorem not_loadSegment_writeXorExecute :
    let m := referenceLoader 0x4003#64
    bumpServices.Fresh (fun next g => g < next) ∧ KernelImage (mappedHeaders gapPhdr) ∧
      Hierarchy (fun next g => g < next) m ∧ SegmentTable gapPhdr ∧
      (∀ va ∈ kernelBytes (mappedHeaders gapPhdr),
        translateAddr m.mem m.cr3 va = none ∧ WritableWay m.mem m.cr3 va) ∧
      ReadsFile (fileOf countingFile) countingFile gapPhdr ∧
      ∃ m' s, mapKernel bumpServices (mappedHeaders gapPhdr) m = .ok m' ∧
        loadSegment (fileOf countingFile) gapPhdr (m', 0) = .ok s ∧
        (∀ e ∈ walkEntries s.1.mem 4 s.1.cr3 0xFFFFFFFF80101000,
          mayWrite e = true ∧ noExecute e = false) ∧
        ¬ WriteXorExecute (kernelBytes (mappedHeaders gapPhdr)) s.1 := by
  intro m
  obtain ⟨m', s, hmap, hload, hrun⟩ := run_of_observed
    (a := ([0x2003#64, 0x3003#64, 0x4003#64, 0x101083#64], some 0x101083#64))
    bumpServices (fileOf countingFile) gapPhdr m
    (fun s => (walkEntries s.1.mem 4 s.1.cr3 0xFFFFFFFF80101000,
      pageEntry s.1.mem s.1.cr3 0xFFFFFFFF80101000)) (by decide)
  rw [Prod.mk.injEq] at hrun
  refine ⟨bumpServices_fresh, kernelImage_gap, hierarchy_referenceLoader, segmentTable_gap,
    fun va _ => ⟨translateAddr_referenceLoader refersToLast_clear va,
      writableWay_referenceLoader va⟩,
    readsFile_fileOf _ _, m', s, hmap, hload, ?_, ?_⟩
  · rw [hrun.1]
    intro e he
    have hmem : e = 0x2003#64 ∨ e = 0x3003#64 ∨ e = 0x4003#64 ∨ e = 0x101083#64 := by
      simpa using he
    rcases hmem with rfl | rfl | rfl | rfl <;> decide
  · intro hxor
    have hin : 0xFFFFFFFF80101000 ∈ kernelBytes (mappedHeaders gapPhdr) := by
      rw [kernelBytes_gap, Extent.mem_mk]
      omega
    exact hxor _ hin _ hrun.2 ⟨by decide, by decide⟩

end YmirC.Surtrc
