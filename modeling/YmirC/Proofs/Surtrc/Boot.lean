import YmirC.Proofs.Surtrc.Page
import YmirC.Surtrc.Boot

/-!
# `YmirC.Proofs.Surtrc.Boot`: the kernel is mapped where its headers say

`compute_kernel_memory_range` takes the smallest virtual and the smallest physical address of the
segments independently of each other. Since the segments share one offset, both are attained by
the same distance, and page `i` of the virtual range belongs to page `i` of the physical one.
-/

set_option autoImplicit false

namespace YmirC.Surtrc

open Paging

variable {φ : Type} {bs : BootServices φ} {Taken : φ → Nat → Prop} {m : Loader φ}
  {phdr : List Elf64Phdr}

/-- The segment is one the loader maps. -/
def Elf64Phdr.Loaded (ph : Elf64Phdr) : Prop := ph.pType = PT_LOAD ∧ ph.pMemsz ≠ 0#64

instance (ph : Elf64Phdr) : Decidable ph.Loaded := inferInstanceAs (Decidable (_ ∧ _))

/-- The virtual addresses of a segment. -/
def Elf64Phdr.bytes (ph : Elf64Phdr) : Extent := ⟨ph.pVaddr.toNat, ph.pMemsz.toNat⟩

/-- The program headers of a kernel as `linker.ld` lays it out. Its segments may overlap. -/
structure KernelImage (phdr : List Elf64Phdr) : Prop where
  nonempty : ∃ ph ∈ phdr, ph.Loaded
  aligned : ∀ ph ∈ phdr, ph.Loaded →
    ph.pVaddr.toNat % PAGE_SIZE = 0 ∧ ph.pPaddr.toNat % PAGE_SIZE = 0
  top : ∀ ph ∈ phdr, ph.Loaded →
    2 ^ 64 - 2 ^ 31 ≤ ph.pVaddr.toNat ∧ ph.pVaddr.toNat + ph.pMemsz.toNat ≤ 2 ^ 64
  offset : ∃ off : Int, ∀ ph ∈ phdr, ph.Loaded →
    (ph.pVaddr.toNat : Int) - (ph.pPaddr.toNat : Int) = off

/-- The virtual addresses of the pages the loader maps. -/
def kernelBytes (phdr : List Elf64Phdr) : Extent :=
  ⟨(computeKernelMemoryRange phdr).startVirt,
    (pages4kib (computeKernelMemoryRange phdr)).toNat * EFI_PAGE_SIZE⟩

/-- The segments are mapped where their headers say, and no other address changed its
translation. -/
structure KernelMapped (phdr : List Elf64Phdr) (m m' : Loader φ) : Prop where
  segments : ∀ ph ∈ phdr, ph.Loaded → ∀ va ∈ ph.bytes,
    translateAddr m'.mem m'.cr3 va = some (ph.pPaddr.toNat + (va - ph.pVaddr.toNat))
  others : ∀ va, va ∉ kernelBytes phdr →
    translateAddr m'.mem m'.cr3 va = translateAddr m.mem m.cr3 va

/-! ### The range -/

section Extremes
variable {α : Type} (key : α → Nat)

/-- The least key of a list and a start value. -/
theorem foldl_min_spec : ∀ (xs : List α) (a : Nat),
    (∀ x ∈ xs, xs.foldl (fun a x => min (key x) a) a ≤ key x) ∧
      (xs.foldl (fun a x => min (key x) a) a = a ∨
        ∃ x ∈ xs, xs.foldl (fun a x => min (key x) a) a = key x) ∧
      xs.foldl (fun a x => min (key x) a) a ≤ a := by
  intro xs
  induction xs with
  | nil =>
      intro a
      simp
  | cons x xs ih =>
      intro a
      obtain ⟨hle, heq, hstart⟩ := ih (min (key x) a)
      rw [List.foldl_cons]
      refine ⟨?_, ?_, Nat.le_trans hstart (Nat.min_le_right _ _)⟩
      · intro y hy
        rcases List.mem_cons.mp hy with rfl | hy
        · exact Nat.le_trans hstart (Nat.min_le_left _ _)
        · exact hle y hy
      · rcases heq with heq | ⟨y, hy, heq⟩
        · rcases Nat.le_total (key x) a with h | h
          · exact .inr ⟨x, List.mem_cons_self, heq.trans (Nat.min_eq_left h)⟩
          · exact .inl (heq.trans (Nat.min_eq_right h))
        · exact .inr ⟨y, List.mem_cons_of_mem x hy, heq⟩

/-- The greatest key of a list and a start value. -/
theorem foldl_max_spec : ∀ (xs : List α) (a : Nat),
    (∀ x ∈ xs, key x ≤ xs.foldl (fun a x => max (key x) a) a) ∧
      (xs.foldl (fun a x => max (key x) a) a = a ∨
        ∃ x ∈ xs, xs.foldl (fun a x => max (key x) a) a = key x) ∧
      a ≤ xs.foldl (fun a x => max (key x) a) a := by
  intro xs
  induction xs with
  | nil =>
      intro a
      simp
  | cons x xs ih =>
      intro a
      obtain ⟨hle, heq, hstart⟩ := ih (max (key x) a)
      rw [List.foldl_cons]
      refine ⟨?_, ?_, Nat.le_trans (Nat.le_max_right _ _) hstart⟩
      · intro y hy
        rcases List.mem_cons.mp hy with rfl | hy
        · exact Nat.le_trans (Nat.le_max_left _ _) hstart
        · exact hle y hy
      · rcases heq with heq | ⟨y, hy, heq⟩
        · rcases Nat.le_total (key x) a with h | h
          · exact .inl (heq.trans (Nat.max_eq_right h))
          · exact .inr ⟨x, List.mem_cons_self, heq.trans (Nat.max_eq_left h)⟩
        · exact .inr ⟨y, List.mem_cons_of_mem x hy, heq⟩

end Extremes

/-- The segments the loader maps. -/
def loaded (phdr : List Elf64Phdr) : List Elf64Phdr := phdr.filter (decide ·.Loaded)

/-- The end of a segment in physical memory, as the loader computes it. -/
def Elf64Phdr.segmentEnd (ph : Elf64Phdr) : Nat := u64 (ph.pPaddr.toNat + ph.pMemsz.toNat)

theorem mem_loaded {ph : Elf64Phdr} : ph ∈ loaded phdr ↔ ph ∈ phdr ∧ ph.Loaded := by
  simp [loaded]

/-- A segment that is not loaded is skipped. -/
theorem extendRange_of_not_loaded {ph : Elf64Phdr} (h : ¬ ph.Loaded) (r : KernelRange) :
    extendRange r ph = r := by
  unfold extendRange
  rw [if_pos]
  by_contra hcon
  rw [not_or, not_not] at hcon
  exact h hcon

theorem extendRange_of_loaded {ph : Elf64Phdr} (h : ph.Loaded) (r : KernelRange) :
    extendRange r ph =
      { startVirt := min ph.pVaddr.toNat r.startVirt
        startPhys := min ph.pPaddr.toNat r.startPhys
        endPhys := max (u64 (ph.pPaddr.toNat + ph.pMemsz.toNat)) r.endPhys } := by
  unfold extendRange
  rw [if_neg]
  · simp only [KernelRange.mk.injEq]
    refine ⟨?_, ?_, ?_⟩
    · split <;> omega
    · split <;> omega
    · split <;> omega
  · rintro (htype | hsize)
    · exact htype h.1
    · exact h.2 hsize

/-- The range is made of three extremes over the segments that are loaded. -/
theorem foldl_extendRange : ∀ (phdr : List Elf64Phdr) (r : KernelRange),
    phdr.foldl extendRange r =
      { startVirt := (loaded phdr).foldl (fun a ph => min ph.pVaddr.toNat a) r.startVirt
        startPhys := (loaded phdr).foldl (fun a ph => min ph.pPaddr.toNat a) r.startPhys
        endPhys := (loaded phdr).foldl (fun a ph => max ph.segmentEnd a) r.endPhys } := by
  intro phdr
  induction phdr with
  | nil =>
      intro r
      rfl
  | cons ph rest ih =>
      intro r
      rw [List.foldl_cons, ih]
      -- A header that is not loaded leaves the range as it is, so the fold sees the loaded ones
      -- only.
      by_cases hph : ph.Loaded
      · rw [extendRange_of_loaded hph, loaded, loaded, List.filter_cons_of_pos (by simpa using hph)]
        rfl
      · rw [extendRange_of_not_loaded hph, loaded, loaded,
          List.filter_cons_of_neg (by simpa using hph)]

/-- What `efi_main` computes from the headers of a kernel: `n` pages from `startVirt` on, which
hold every segment at the distance it has in physical memory. -/
structure KernelPages (phdr : List Elf64Phdr) (range : KernelRange) (n : Nat) : Prop where
  pages : pages4kib range = n
  count : n ≤ 2 ^ 19
  virt_aligned : range.startVirt % PAGE_SIZE = 0
  phys_aligned : range.startPhys % PAGE_SIZE = 0
  top : 2 ^ 64 - 2 ^ 31 ≤ range.startVirt
  fits : range.startVirt + n * PAGE_SIZE ≤ 2 ^ 64
  segment : ∀ ph ∈ phdr, ph.Loaded → range.startVirt ≤ ph.pVaddr.toNat ∧
    ph.pVaddr.toNat + ph.pMemsz.toNat ≤ range.startVirt + n * PAGE_SIZE ∧
    ph.pPaddr.toNat = range.startPhys + (ph.pVaddr.toNat - range.startVirt)

/-- The extremes of the range are those of segments. -/
theorem computeKernelMemoryRange_spec (h : ∃ ph ∈ phdr, ph.Loaded) :
    (∀ ph ∈ phdr, ph.Loaded → (computeKernelMemoryRange phdr).startVirt ≤ ph.pVaddr.toNat ∧
      (computeKernelMemoryRange phdr).startPhys ≤ ph.pPaddr.toNat ∧
      ph.segmentEnd ≤ (computeKernelMemoryRange phdr).endPhys) ∧
    (∃ ph ∈ phdr, ph.Loaded ∧ (computeKernelMemoryRange phdr).startVirt = ph.pVaddr.toNat) ∧
    (∃ ph ∈ phdr, ph.Loaded ∧ (computeKernelMemoryRange phdr).startPhys = ph.pPaddr.toNat) ∧
    ((computeKernelMemoryRange phdr).endPhys = 0 ∨
      ∃ ph ∈ phdr, ph.Loaded ∧ (computeKernelMemoryRange phdr).endPhys = ph.segmentEnd) := by
  obtain ⟨ph0, hmem0, hload0⟩ := h
  have h0 : ph0 ∈ loaded phdr := mem_loaded.mpr ⟨hmem0, hload0⟩
  unfold computeKernelMemoryRange
  rw [foldl_extendRange]
  obtain ⟨hvle, hveq, -⟩ := foldl_min_spec (fun ph : Elf64Phdr => ph.pVaddr.toNat) (loaded phdr)
    (2 ^ 64 - 1)
  obtain ⟨hple, hpeq, -⟩ := foldl_min_spec (fun ph : Elf64Phdr => ph.pPaddr.toNat) (loaded phdr)
    (2 ^ 64 - 1)
  obtain ⟨hele, heeq, -⟩ := foldl_max_spec Elf64Phdr.segmentEnd (loaded phdr) 0
  refine ⟨?_, ?_, ?_, ?_⟩
  · intro ph hmem hload
    have hph := mem_loaded.mpr ⟨hmem, hload⟩
    exact ⟨hvle ph hph, hple ph hph, hele ph hph⟩
  · rcases hveq with heq | ⟨ph, hph, heq⟩
    · -- The minimum is the initial value only when a segment is there too.
      have hle := hvle ph0 h0
      have hlt := ph0.pVaddr.isLt
      refine ⟨ph0, hmem0, hload0, ?_⟩
      simp only at hle heq ⊢
      omega
    · exact ⟨ph, (mem_loaded.mp hph).1, (mem_loaded.mp hph).2, heq⟩
  · rcases hpeq with heq | ⟨ph, hph, heq⟩
    · have hle := hple ph0 h0
      have hlt := ph0.pPaddr.isLt
      refine ⟨ph0, hmem0, hload0, ?_⟩
      simp only at hle heq ⊢
      omega
    · exact ⟨ph, (mem_loaded.mp hph).1, (mem_loaded.mp hph).2, heq⟩
  · rcases heeq with heq | ⟨ph, hph, heq⟩
    · exact .inl heq
    · exact .inr ⟨ph, (mem_loaded.mp hph).1, (mem_loaded.mp hph).2, heq⟩

/-- The number of pages of a range of at most 2GiB. -/
theorem pages4kib_eq {range : KernelRange} (hlo : range.startPhys ≤ range.endPhys)
    (hhi : range.endPhys - range.startPhys ≤ 2 ^ 31) (hend : range.endPhys < 2 ^ 64) :
    pages4kib range = ((range.endPhys - range.startPhys + 4095) / 4096 : Nat) := by
  have hpages : sub64 (u64 (sub64 range.endPhys range.startPhys + EFI_PAGE_SIZE)) 1 / EFI_PAGE_SIZE
      = (range.endPhys - range.startPhys + 4095) / 4096 := by
    have hsub : sub64 range.endPhys range.startPhys = range.endPhys - range.startPhys :=
      sub64_of_le hlo hend
    rw [hsub, EFI_PAGE_SIZE, u64_of_lt (by omega), sub64_of_le (by omega) (by omega)]
    rfl
  rw [pages4kib, hpages]
  generalize range.endPhys - range.startPhys = d at hhi
  have hfit : (d + 4095) / 4096 ≤ 2 ^ 19 := by omega
  generalize (d + 4095) / 4096 = n at hfit
  rw [BitVec.toInt_eq_toNat_of_lt]
  · rw [BitVec.toNat_ofNat, Nat.mod_eq_of_lt (by omega)]
  · rw [BitVec.toNat_ofNat, Nat.mod_eq_of_lt (by omega)]
    omega

/-- The pages of a kernel whose image is in physical memory. -/
theorem kernelPages (h : KernelImage phdr)
    (hphys : (computeKernelMemoryRange phdr).startPhys ≤ 2 ^ 52) :
    ∃ n, KernelPages phdr (computeKernelMemoryRange phdr) n := by
  obtain ⟨hext, ⟨a, ha, hla, hva⟩, ⟨b, hb, hlb, hpb⟩, hend⟩ :=
    computeKernelMemoryRange_spec h.nonempty
  obtain ⟨off, hoff⟩ := h.offset
  generalize computeKernelMemoryRange phdr = range at *
  -- Both starts are at the same distance.
  have hstart : (range.startVirt : Int) - (range.startPhys : Int) = off := by
    have h1 := (hext b hb hlb).1
    have h2 := (hext a ha hla).2.1
    have h3 := hoff a ha hla
    have h4 := hoff b hb hlb
    omega
  have htop : 2 ^ 64 - 2 ^ 31 ≤ range.startVirt := by
    have := (h.top a ha hla).1
    omega
  -- No end of a segment wraps: all are within 2GiB of the start.
  have hno : ∀ ph ∈ phdr, ph.Loaded → ph.segmentEnd = ph.pPaddr.toNat + ph.pMemsz.toNat ∧
      ph.pPaddr.toNat + ph.pMemsz.toNat ≤ range.startPhys + 2 ^ 31 := by
    intro ph hmem hload
    have h1 := hoff ph hmem hload
    have h2 := (h.top ph hmem hload).2
    have hle : ph.pPaddr.toNat + ph.pMemsz.toNat ≤ range.startPhys + 2 ^ 31 := by omega
    exact ⟨u64_of_lt (by omega), hle⟩
  obtain ⟨c, hc, hlc, hec⟩ : ∃ ph ∈ phdr, ph.Loaded ∧
      range.endPhys = ph.pPaddr.toNat + ph.pMemsz.toNat := by
    rcases hend with hzero | ⟨c, hc, hlc, hec⟩
    · -- A segment has at least one byte.
      have hpos : ¬ a.pMemsz.toNat = 0 := fun heq => hla.2 (BitVec.eq_of_toNat_eq heq)
      have hle := (hext a ha hla).2.2
      rw [(hno a ha hla).1] at hle
      omega
    · exact ⟨c, hc, hlc, hec.trans (hno c hc hlc).1⟩
  have hcle := (hno c hc hlc).2
  have hclo := (hext c hc hlc).2.1
  have hvirt : range.startVirt % 4096 = 0 := hva ▸ (h.aligned a ha hla).1
  -- The segment that ends last ends below 2^64 in the virtual range as well.
  have hfar : range.startVirt + (range.endPhys - range.startPhys) ≤ 2 ^ 64 := by
    have h1 := hoff c hc hlc
    have h2 := (h.top c hc hlc).2
    omega
  refine ⟨(range.endPhys - range.startPhys + 4095) / 4096,
    pages4kib_eq (by omega) (by omega) (by omega), by omega, hvirt,
    hpb ▸ (h.aligned b hb hlb).2, htop, ?_, ?_⟩
  · simp only [PAGE_SIZE]
    omega
  · intro ph hmem hload
    have h1 := hoff ph hmem hload
    have h2 := hext ph hmem hload
    have h3 := hno ph hmem hload
    simp only [PAGE_SIZE]
    refine ⟨h2.1, ?_, ?_⟩
    · omega
    · omega

/-! ### The loop -/

/-- An address of the first `n + 1` pages that is not in the last of them. -/
theorem mem_pages_succ {start va n : Nat} (hal : start % 4096 = 0)
    (hne : va / 4096 ≠ (start + n * 4096) / 4096) :
    (start ≤ va ∧ va < start + (n + 1) * 4096) ↔ (start ≤ va ∧ va < start + n * 4096) := by
  omega

/-- The first `n` pages from `startVirt` on are mapped one by one to those from `startPhys` on. No
other translation changed. -/
structure PagesMapped (Taken : φ → Nat → Prop) (startVirt startPhys n : Nat) (m m' : Loader φ) :
    Prop where
  hierarchy : Hierarchy Taken m'
  ext : Extends Taken m m'
  entries : ∀ i < n, (pageEntry m'.mem m.cr3 (startVirt + i * 4096)).isSome
  trans : ∀ va, translateAddr m'.mem m.cr3 va
    = if startVirt ≤ va ∧ va < startVirt + n * 4096 then some (startPhys + (va - startVirt))
      else translateAddr m.mem m.cr3 va

/-- The loop over the pages maps the first `n` of them, one after the other, and changes no other
translation. Their entries are those `initialize_page_reference_entry` makes of zero. -/
theorem mapPages_spec (hbs : bs.Fresh Taken) (h : Hierarchy Taken m) {startVirt startPhys N : Nat}
    (hvirt : startVirt % 4096 = 0) (hphys : startPhys % 4096 = 0)
    (htop : 2 ^ 64 - 2 ^ 31 ≤ startVirt) (hfits : startVirt + N * 4096 ≤ 2 ^ 64)
    (hmem : startPhys + N * 4096 ≤ 2 ^ 52)
    (hnone : ∀ va ∈ (⟨startVirt, N * 4096⟩ : Extent), translateAddr m.mem m.cr3 va = none) :
    ∀ n ≤ N, Yields (mapPages bs startVirt startPhys n m) fun m' =>
      PagesMapped Taken startVirt startPhys n m m' ∧
        ∀ i < n, pageEntry m'.mem m.cr3 (startVirt + i * 4096)
          = some (pageReference 0#64 (startPhys + i * 4096)) := by
  -- The induction is on the rounds done. What it carries is the translation of every address, so
  -- that the next page is known not to be mapped.
  intro n
  induction n with
  | zero =>
      intro _
      refine ⟨⟨h, .refl Taken m, ?_, fun va => ?_⟩, ?_⟩
      · intro i hi
        cases hi
      · rw [if_neg (by omega)]
      · intro i hi
        cases hi
  | succ n ih =>
      intro hn
      rw [mapPages]
      refine Yields.bind (ih (by omega)) ?_
      rintro m1 ⟨⟨h1, hext1, -, htrans1⟩, hentries1⟩
      have hcr3 := hext1.cr3
      -- The sums of the source do not wrap inside the range.
      have hu1 : u64 (startVirt + n * EFI_PAGE_SIZE) = startVirt + n * 4096 := by
        rw [EFI_PAGE_SIZE]
        exact u64_of_lt (by omega)
      have hu2 : u64 (startPhys + n * EFI_PAGE_SIZE) = startPhys + n * 4096 := by
        rw [EFI_PAGE_SIZE]
        exact u64_of_lt (by omega)
      rw [hu1, hu2]
      -- The next page is not one of those mapped so far.
      have hcanonical : canonical (startVirt + n * 4096) = true := by
        rw [canonical_iff]
        omega
      have hfree : walk m1.mem 4 m1.cr3 (startVirt + n * 4096) = none := by
        have hnext := htrans1 (startVirt + n * 4096)
        rw [if_neg (by omega), hnone _ ⟨by simp only; omega, by simp only; omega⟩, translateAddr,
          hcanonical] at hnext
        rw [hcr3]
        exact hnext
      have hal : (startPhys + n * 4096) % PAGE_SIZE = 0 := by
        simp only [PAGE_SIZE]
        omega
      have hlt : startPhys + n * 4096 < 2 ^ 52 := by omega
      refine (map4kTo_spec hbs h1 hfree hal hlt).mono ?_
      rintro m2 ⟨h2, hext2, ⟨t, ht, hentry⟩, hwalk2⟩
      have hadds2 := hext2.adds
      rw [hcr3] at hadds2 ht hwalk2
      have hpresent := (pageReference_zero hal hlt).1
      -- The entry of this round, and those of the rounds before.
      have hentries : ∀ i < n + 1, pageEntry m2.mem m.cr3 (startVirt + i * 4096)
          = some (pageReference 0#64 (startPhys + i * 4096)) := by
        intro i hi
        by_cases hin : i = n
        · rw [hin]
          exact pageEntry_eq_some.mpr ⟨hcanonical, t, ht, hentry, hpresent⟩
        · exact hadds2.pageEntry (hentries1 i (by omega))
      refine ⟨⟨h2, hext1.trans hext2, ?_, fun va => ?_⟩, hentries⟩
      · intro i hi
        rw [hentries i hi, Option.isSome_some]
      · rw [translateAddr_addPage hcanonical hwalk2, htrans1]
        -- The page of this round, or one decided by the rounds before.
        by_cases hpage : va / 4096 = (startVirt + n * 4096) / 4096
        · rw [if_pos hpage, if_pos (by omega)]
          congr 1
          omega
        · rw [if_neg hpage]
          simp only [mem_pages_succ hvirt hpage]

/-- The run of `efi_main` from the headers to the end of its loop: the frames of the kernel, which
were not in use, are obtained first, and then the pages are mapped to them. -/
theorem mapKernel_pages (hbs : bs.Fresh Taken) (himage : KernelImage phdr) (h : Hierarchy Taken m)
    (hnone : ∀ va ∈ kernelBytes phdr, translateAddr m.mem m.cr3 va = none) :
    Yields (mapKernel bs phdr m) fun m' => ∃ n fw',
      KernelPages phdr (computeKernelMemoryRange phdr) n ∧
      kernelBytes phdr = ⟨(computeKernelMemoryRange phdr).startVirt, n * 4096⟩ ∧
      (∀ g ∈ (⟨(computeKernelMemoryRange phdr).startPhys / PAGE_SIZE, n⟩ : Extent),
        ¬ Taken m.fw g ∧ Taken fw' g) ∧
      PagesMapped Taken (computeKernelMemoryRange phdr).startVirt
        (computeKernelMemoryRange phdr).startPhys n { m with fw := fw' } m' ∧
      ∀ i < n, pageEntry m'.mem m.cr3 ((computeKernelMemoryRange phdr).startVirt + i * 4096)
        = some (pageReference 0#64 ((computeKernelMemoryRange phdr).startPhys + i * 4096)) := by
  unfold mapKernel
  simp only
  cases hcall : bs.allocatePages .address .loaderData
      (toUINTN (pages4kib (computeKernelMemoryRange phdr)))
      (computeKernelMemoryRange phdr).startPhys m.fw with
  -- `efi_main` returns the status when it cannot get the pages of the kernel.
  | error status => trivial
  | ok r =>
      obtain ⟨p, fw'⟩ := r
      obtain rfl := hbs.address hcall
      have hbound := hbs.physical hcall
      obtain ⟨n, hn⟩ := kernelPages himage (Nat.le_trans (Nat.le_add_right _ _) hbound)
      have hcount : (pages4kib (computeKernelMemoryRange phdr)).toNat = n := by
        rw [hn.pages]
        rfl
      -- The `int` that counts pages holds `n`, also after its conversion to `UINTN`.
      have huintn : toUINTN (pages4kib (computeKernelMemoryRange phdr)) = n := by
        have := hn.count
        rw [hn.pages, toUINTN]
        omega
      rw [huintn] at hbound hcall
      have hbytes : kernelBytes phdr = ⟨(computeKernelMemoryRange phdr).startVirt, n * 4096⟩ := by
        rw [kernelBytes, hcount]
        rfl
      rw [hbytes] at hnone
      -- The pages of the kernel are taken now, and so are the tables.
      have h' : Hierarchy Taken { m with fw := fw' } :=
        ⟨h.root, h.tree, h.clear, fun ht => hbs.taken hcall _ (.inl (h.taken ht))⟩
      have hfresh : ∀ g ∈ (⟨(computeKernelMemoryRange phdr).startPhys / PAGE_SIZE, n⟩ : Extent),
          ¬ Taken m.fw g ∧ Taken fw' g := by
        intro g hg
        exact ⟨hbs.fresh hcall g hg.1 hg.2, hbs.taken hcall g (.inr hg)⟩
      simp only [hcount]
      refine (mapPages_spec hbs h' hn.virt_aligned hn.phys_aligned hn.top hn.fits hbound hnone n
        (Nat.le_refl n)).mono ?_
      exact fun m' hpages => ⟨n, fw', hn, hbytes, hfresh, hpages⟩

/-- What `efi_main` maps. The hierarchy stays one the loader can extend. -/
theorem mapKernel_spec (hbs : bs.Fresh Taken) (himage : KernelImage phdr) (h : Hierarchy Taken m)
    (hnone : ∀ va ∈ kernelBytes phdr, translateAddr m.mem m.cr3 va = none) :
    Yields (mapKernel bs phdr m) fun m' => Hierarchy Taken m' ∧ KernelMapped phdr m m' := by
  apply (mapKernel_pages hbs himage h hnone).mono
  rintro m' ⟨n, fw', hn, hbytes, -, hpages, -⟩
  have hcr3 : m'.cr3 = m.cr3 := hpages.ext.cr3
  have htrans := hpages.trans
  simp only at htrans
  refine ⟨hpages.hierarchy, ?_, ?_⟩
  · intro ph hmem hload va hva
    -- Every segment is inside the mapped pages, at the distance of the whole kernel.
    obtain ⟨hlo, hhi, hpaddr⟩ := hn.segment ph hmem hload
    rw [Elf64Phdr.bytes, Extent.mem_mk] at hva
    have hin : (computeKernelMemoryRange phdr).startVirt ≤ va ∧
        va < (computeKernelMemoryRange phdr).startVirt + n * 4096 := by
      simp only [PAGE_SIZE] at hhi
      omega
    rw [hcr3, htrans, if_pos hin]
    congr 1
    omega
  · intro va hva
    rw [hbytes] at hva
    have hout : ¬ ((computeKernelMemoryRange phdr).startVirt ≤ va ∧
        va < (computeKernelMemoryRange phdr).startVirt + n * 4096) := hva
    rw [hcr3, htrans, if_neg hout]

/-- `efi_main` replaces the root table before that. The kernel is mapped into the hierarchy of
the firmware as it was then. -/
theorem setLv4tableWritable_mapKernel (hbs : bs.Fresh Taken) (himage : KernelImage phdr)
    (h : Hierarchy Taken m) (hnone : ∀ va ∈ kernelBytes phdr, translateAddr m.mem m.cr3 va = none) :
    Yields (setLv4tableWritable bs m >>= mapKernel bs phdr) fun m' =>
      Hierarchy Taken m' ∧ KernelMapped phdr m m' := by
  refine (setLv4tableWritable_spec hbs h).bind ?_
  intro m1 h1
  have hnone1 : ∀ va ∈ kernelBytes phdr, translateAddr m1.mem m1.cr3 va = none := by
    intro va hva
    rw [h1.2, hnone va hva]
  apply (mapKernel_spec hbs himage h1.1 hnone1).mono
  intro m' h'
  refine ⟨h'.1, h'.2.segments, ?_⟩
  intro va hva
  rw [h'.2.others va hva, h1.2]

/-! ### On concrete hierarchies -/

/-- A firmware that gives out pages in order. Every page below its state is in use. -/
def bumpServices : BootServices Nat where
  allocatePages
    | .anyPages, _, n, _, next =>
        if (next + n) * PAGE_SIZE ≤ 2 ^ 52 then .ok (next * PAGE_SIZE, next + n) else .error 9
    | .address, _, n, addr, next =>
        if addr % PAGE_SIZE = 0 ∧ next ≤ addr / PAGE_SIZE ∧ addr + n * PAGE_SIZE ≤ 2 ^ 52 then
          .ok (addr, addr / PAGE_SIZE + n)
        else .error 14

theorem bumpServices_fresh : bumpServices.Fresh (fun next g => g < next) := by
  -- What both kinds of request have in common.
  have hcases : ∀ {type memoryType n addr next p next'},
      bumpServices.allocatePages type memoryType n addr next = .ok (p, next') →
      p % PAGE_SIZE = 0 ∧ p + n * PAGE_SIZE ≤ 2 ^ 52 ∧ next ≤ p / PAGE_SIZE ∧
        next' = p / PAGE_SIZE + n ∧ (type = .address → p = addr) := by
    intro type memoryType n addr next p next' hcall
    cases type with
    | anyPages =>
        by_cases h : (next + n) * PAGE_SIZE ≤ 2 ^ 52
        · simp only [bumpServices, if_pos h] at hcall
          obtain ⟨rfl, rfl⟩ := Prod.mk.inj (Except.ok.inj hcall)
          have hdiv : next * PAGE_SIZE / PAGE_SIZE = next := Nat.mul_div_cancel next (by decide)
          rw [hdiv]
          refine ⟨Nat.mul_mod_left _ _, ?_, Nat.le_refl _, rfl, fun h => by cases h⟩
          rw [← Nat.add_mul]
          exact h
        · simp only [bumpServices, if_neg h] at hcall
          cases hcall
    | address =>
        by_cases h : addr % PAGE_SIZE = 0 ∧ next ≤ addr / PAGE_SIZE ∧ addr + n * PAGE_SIZE ≤ 2 ^ 52
        · simp only [bumpServices, if_pos h] at hcall
          obtain ⟨rfl, rfl⟩ := Prod.mk.inj (Except.ok.inj hcall)
          exact ⟨h.1, h.2.2, h.2.1, rfl, fun _ => rfl⟩
        · simp only [bumpServices, if_neg h] at hcall
          cases hcall
  constructor
  · exact fun hcall => (hcases hcall).1
  · exact fun hcall => (hcases hcall).2.1
  · intro type memoryType n addr next p next' hcall g hlo hhi
    have := (hcases hcall).2.2.1
    omega
  · intro type memoryType n addr next p next' hcall g hg
    have h1 := (hcases hcall).2.2.1
    have h2 := (hcases hcall).2.2.2.1
    omega
  · exact fun hcall => (hcases hcall).2.2.2.2 rfl

/-- Tables of the levels 4 to 1 at 0x1000, 0x2000, 0x3000 and 0x4000 on the way to the kernel.
`reference` is the reference to the last one, which is empty. -/
def referenceWords (reference : BitVec 64) (k : Nat) : BitVec 64 :=
  if k = 512 + 511 then 0x2003#64
  else if k = 1024 + 510 then 0x3003#64
  else if k = 1536 then reference
  else 0#64

/-- A loader on these tables. The firmware has the pages from 16 on. -/
def referenceLoader (reference : BitVec 64) : Loader Nat where
  mem := ByteMemory.ofWords (referenceWords reference)
  cr3 := 0x1000
  fw := 16

/-- The headers of a kernel with one segment of one page. -/
def onePagePhdr : List Elf64Phdr := [⟨PT_LOAD, 0xFFFFFFFF80100000, 0x100000, 0x1000⟩]

theorem onePagePhdr_image : KernelImage onePagePhdr where
  nonempty := ⟨_, List.mem_singleton_self _, by decide⟩
  aligned := by
    intro ph hph _
    rw [List.mem_singleton.mp hph]
    decide
  top := by
    intro ph hph _
    rw [List.mem_singleton.mp hph]
    decide
  offset := by
    refine ⟨0xFFFFFFFF80000000, ?_⟩
    intro ph hph _
    rw [List.mem_singleton.mp hph]
    decide

/-- The word refers to the table at 0x4000. -/
structure RefersToLast (reference : BitVec 64) : Prop where
  present : present reference = true
  table : large reference = false
  addr : entryAddr reference = 0x4000

section Reference
variable {reference : BitVec 64}

theorem entryAt_referenceLoader (f i : Nat) :
    entryAt (referenceLoader reference).mem (f * 4096) i
      = referenceWords reference (512 * f + i) := by
  have haddr : f * 4096 + 8 * i = 8 * (512 * f + i) := by omega
  rw [entryAt, haddr]
  exact ByteMemory.load64_ofWords _ _

/-- An entry of one of the four tables is zero, or it is the one on the way to the kernel and
refers to the next table. -/
theorem entryAt_referenceLoader_cases (href : RefersToLast reference) {k i : Nat} (hk : k < 4)
    (hi : i < 512) :
    let e := entryAt (referenceLoader reference).mem ((k + 1) * 4096) i
    e = 0#64 ∨ (k < 3 ∧ i = index (4 - k) 0xFFFFFFFF80000000 ∧ present e = true ∧
      leaf (4 - k) e = false ∧ entryAddr e = (k + 2) * 4096) := by
  intro e
  have he : e = referenceWords reference (512 * (k + 1) + i) := entryAt_referenceLoader (k + 1) i
  rw [he]
  by_cases hzero : 512 * (k + 1) + i ≠ 1023 ∧ 512 * (k + 1) + i ≠ 1534 ∧ 512 * (k + 1) + i ≠ 1536
  · left
    rw [referenceWords, if_neg hzero.1, if_neg hzero.2.1, if_neg hzero.2.2]
  · right
    have hway : (k = 0 ∧ i = 511) ∨ (k = 1 ∧ i = 510) ∨ (k = 2 ∧ i = 0) := by omega
    rcases hway with ⟨rfl, rfl⟩ | ⟨rfl, rfl⟩ | ⟨rfl, rfl⟩
    · have hword : referenceWords reference (512 * (0 + 1) + 511) = 0x2003#64 := rfl
      rw [hword]
      decide
    · have hword : referenceWords reference (512 * (1 + 1) + 510) = 0x3003#64 := rfl
      rw [hword]
      decide
    · have hword : referenceWords reference (512 * (2 + 1) + 0) = reference := rfl
      rw [hword]
      exact ⟨by decide, by decide, href.present, (leaf_two _).trans href.table, href.addr⟩

/-- The tables on the way are the only ones. -/
theorem tableOf_referenceLoader (href : RefersToLast reference) :
    ∀ {v t}, tableOf (referenceLoader reference).mem 4 0x1000 v = some t →
      ∃ k < 4, v = pathTo 4 0xFFFFFFFF80000000 k ∧ t = (k + 1) * 4096 := by
  intro v
  induction v with
  | nil =>
      intro t h
      cases h
      exact ⟨0, by decide, rfl, rfl⟩
  | cons i v ih =>
      intro t h
      obtain ⟨t0, ht0, hchild⟩ := tableOf_cons_eq_some.mp h
      obtain ⟨hi, hpresent, -, rfl⟩ := child_eq_some.mp hchild
      obtain ⟨k, hk, rfl, rfl⟩ := ih ht0
      rcases entryAt_referenceLoader_cases href hk hi with hzero | ⟨hlt, rfl, -, -, haddr⟩
      · rw [hzero, not_present_zero] at hpresent
        cases hpresent
      · exact ⟨k + 1, by omega, rfl, haddr⟩

/-- The hierarchy is a tree. -/
theorem tree_referenceLoader (href : RefersToLast reference) :
    Tree (referenceLoader reference).mem 4 0x1000 where
  inj := by
    intro v w t hv hw
    obtain ⟨k, -, rfl, rfl⟩ := tableOf_referenceLoader href hv
    obtain ⟨k', -, rfl, heq⟩ := tableOf_referenceLoader href hw
    have hk : k = k' := by omega
    rw [hk]
  zero := by
    intro v t i hv hi habs
    obtain ⟨k, hk, -, rfl⟩ := tableOf_referenceLoader href hv
    rcases entryAt_referenceLoader_cases href hk hi with hzero | ⟨-, -, hpresent, -, -⟩
    · exact hzero
    · rw [hpresent] at habs
      cases habs

/-- Its pages are in use. -/
theorem taken_referenceLoader (href : RefersToLast reference) {v : List Nat} {t : Nat}
    (hv : tableOf (referenceLoader reference).mem 4 0x1000 v = some t) : t / PAGE_SIZE < 16 := by
  obtain ⟨k, hk, -, rfl⟩ := tableOf_referenceLoader href hv
  simp only [PAGE_SIZE]
  omega

/-- No address is mapped: the last table is empty. -/
theorem walk_referenceLoader (href : RefersToLast reference) (va : Nat) :
    walk (referenceLoader reference).mem 4 0x1000 va = none := by
  -- By induction on the levels that are left, from the table the walk is in.
  have hbelow : ∀ l k, k + l = 4 →
      walk (referenceLoader reference).mem l ((k + 1) * 4096) va = none := by
    intro l
    induction l with
    | zero => exact fun _ _ => rfl
    | succ l ih =>
        intro k hk
        have hlevel : 4 - k = l + 1 := by omega
        rcases entryAt_referenceLoader_cases href (show k < 4 by omega) (index_lt (l + 1) va) with
          hzero | ⟨hlt, -, hpresent, hleaf, haddr⟩
        · apply walk_of_absent
          rw [hzero, not_present_zero]
        · rw [hlevel] at hleaf
          rw [walk_of_table hpresent hleaf, haddr]
          exact ih (k + 1) (by omega)
  exact hbelow 4 0 rfl

theorem translateAddr_referenceLoader (href : RefersToLast reference) (va : Nat) :
    translateAddr (referenceLoader reference).mem 0x1000 va = none := by
  unfold translateAddr
  split
  · exact walk_referenceLoader href va
  · rfl

end Reference

theorem refersToLast_clear : RefersToLast 0x4003#64 := ⟨by decide, by decide, by decide⟩

/-- The references of the tables are clear when the last one is. -/
theorem hierarchy_referenceLoader :
    Hierarchy (fun next g => g < next) (referenceLoader 0x4003#64) := by
  refine ⟨by decide, tree_referenceLoader refersToLast_clear, ?_,
    taken_referenceLoader refersToLast_clear⟩
  intro v t i hv hi _ _
  obtain ⟨k, -, -, rfl⟩ := tableOf_referenceLoader refersToLast_clear hv
  rw [entryAt_referenceLoader]
  intro b h52 h63
  have hlt : (referenceWords 0x4003#64 (512 * (k + 1) + i)).toNat < 2 ^ 52 := by
    unfold referenceWords
    split
    · decide
    split
    · decide
    split
    · decide
    · decide
  exact Nat.testBit_lt_two_pow (Nat.lt_of_lt_of_le hlt (Nat.pow_le_pow_right (by decide) h52))

end YmirC.Surtrc
