import YmirC.Lib.BitField
import YmirC.Proofs.Surtrc.Boot
import YmirC.Surtrc.Segment

/-!
# `YmirC.Proofs.Surtrc.Segment`: the image `load_segment` leaves

`load_segment` writes a segment and takes its rights away before it goes on to the next one. A
later segment is still written because the rights are those of single pages, and the earlier one
stays as it is because a write to one page reaches no other. Both rest on what the tables are:
`Unaliased` says that every table has one place in the hierarchy, that no two pages of the segments
share a frame, and that none of these frames holds a table.

Under it a run of `load_segment` is made of two kinds of steps, stores into the frames
(`storeAll_spec`) and new rights in an entry of level 1 (`changeMap4k_spec`), and both keep where
the entries lead. `LoadedBy` is what such a run leaves, relative to where it started, and the runs
of two parts of the headers compose (`LoadedBy.cons`).
-/

set_option autoImplicit false

namespace YmirC.Surtrc

open ByteMemory Paging

variable {φ ψ : Type} {m m' m'' : Loader φ} {phdr : List SegmentPhdr} {ph : SegmentPhdr}

/-! ### What the loader starts from, and what it leaves -/

/-- The numbers of the pages of a segment. -/
def Elf64Phdr.pages (ph : Elf64Phdr) : Extent :=
  ⟨ph.pVaddr.toNat / PAGE_SIZE,
    (ph.pVaddr.toNat % PAGE_SIZE + ph.pMemsz.toNat + (PAGE_SIZE - 1)) / PAGE_SIZE⟩

/-- Program headers whose segments are page aligned, in pages of their own and of a size an `int`
holds. -/
structure SegmentTable (phdr : List SegmentPhdr) : Prop where
  aligned : ∀ ph ∈ phdr, ph.Loaded → ph.pVaddr.toNat % PAGE_SIZE = 0
  disjoint : phdr.Pairwise fun a b => a.Loaded → b.Loaded → a.pages.Disjoint b.pages
  sizes : ∀ ph ∈ phdr, ph.Loaded →
    ph.pFilesz.toNat ≤ ph.pMemsz.toNat ∧ ph.pMemsz.toNat < 2 ^ 31

/-- The pages of the segments are mapped one by one and writable. -/
def PagesWritable (phdr : List SegmentPhdr) (m : Loader φ) : Prop :=
  ∀ ph ∈ phdr, ph.Loaded → ∀ g ∈ ph.pages,
    (pageEntry m.mem m.cr3 (g * PAGE_SIZE)).isSome ∧ writable m.mem m.cr3 (g * PAGE_SIZE) = true

/-- The calls of the file handle for a segment give its bytes in the file, when they succeed. -/
def ReadsFile (kernel : FileHandle ψ) (file : Nat → BitVec 8) (phdr : List SegmentPhdr) : Prop :=
  ∀ ph ∈ phdr, ∀ s s' bytes s'', kernel.setPosition ph.pOffset.toNat s = .ok s' →
    kernel.read ph.pFilesz.toNat s' = .ok (bytes, s'') →
      bytes = (List.range ph.pFilesz.toNat).map fun k => file (ph.pOffset.toNat + k)

/-- Every table has one place in the hierarchy, and the loader reads the references to it as the
hardware does. -/
structure PlainTables (m : Loader φ) : Prop where
  root : m.cr3 % PAGE_SIZE = 0
  unshared : Unshared m.mem 4 m.cr3
  clear : ReferencesClear m.mem m.cr3

/-- The page tables reach every table and every page of the segments in one way. -/
structure Unaliased (phdr : List SegmentPhdr) (m : Loader φ) : Prop extends PlainTables m where
  frames : ∀ a ∈ phdr, a.Loaded → ∀ b ∈ phdr, b.Loaded → ∀ g ∈ a.pages, ∀ h ∈ b.pages,
    translateAddr m.mem m.cr3 (g * PAGE_SIZE) = translateAddr m.mem m.cr3 (h * PAGE_SIZE) → g = h
  tables : ∀ ph ∈ phdr, ph.Loaded → ∀ g ∈ ph.pages, ∀ v t, tableOf m.mem 4 m.cr3 v = some t →
    translateAddr m.mem m.cr3 (g * PAGE_SIZE) ≠ some t

/-- Byte `k` of a segment in memory: from the file, and zero behind the bytes it has there. -/
def SegmentPhdr.imageByte (ph : SegmentPhdr) (file : Nat → BitVec 8) (k : Nat) : BitVec 8 :=
  if k < ph.pFilesz.toNat then file (ph.pOffset.toNat + k) else 0#8

/-- The bits `RW` and `XD` the pages of a segment get. -/
def SegmentPhdr.rights (ph : SegmentPhdr) : Bool × Bool :=
  if ph.pFlags.getLsbD 0 then (false, false)
  else if ph.pFlags.getLsbD 1 then (true, true)
  else (false, true)

/-- The bits `RW` and `XD` of the entry of level 1 that maps an address. -/
def pageRights (mem : Mem) (root va : Nat) : Option (Bool × Bool) :=
  (pageEntry mem root va).map fun e => (mayWrite e, noExecute e)

/-- The physical address belongs to the entry of level 1 of a page of a segment. -/
def InEntry (phdr : List SegmentPhdr) (m : Loader φ) (b : Nat) : Prop :=
  ∃ ph ∈ phdr, ph.Loaded ∧ ∃ g ∈ ph.pages, EntryByte m.mem m.cr3 (g * PAGE_SIZE) b

/-- The image of the segments, with the rights of their pages. Nothing else changed, but for
the bytes of `Spared`. -/
structure SegmentsLoaded (file : Nat → BitVec 8) (phdr : List SegmentPhdr) (Spared : Nat → Prop)
    (m m' : Loader φ) : Prop where
  image : ∀ ph ∈ phdr, ph.Loaded → ∀ k < ph.pMemsz.toNat, ∃ p,
    translateAddr m'.mem m'.cr3 (ph.pVaddr.toNat + k) = some p ∧ m'.mem p = ph.imageByte file k
  rights : ∀ ph ∈ phdr, ph.Loaded → ∀ g ∈ ph.pages,
    pageRights m'.mem m'.cr3 (g * PAGE_SIZE) = some ph.rights
  translations : ∀ va, (∀ ph ∈ phdr, ph.Loaded → va / PAGE_SIZE ∉ ph.pages) →
    translateAddr m'.mem m'.cr3 va = translateAddr m.mem m.cr3 va ∧
      (canonical va = true → walkEntries m'.mem 4 m'.cr3 va = walkEntries m.mem 4 m.cr3 va)
  memory : ∀ b, (∀ ph ∈ phdr, ph.Loaded → ∀ va, va / PAGE_SIZE ∈ ph.pages →
    translateAddr m.mem m.cr3 va ≠ some b) → ¬ Spared b → m'.mem b = m.mem b

/-- The function returns with `P`, or with an error status of the firmware. No write in it raises
a page fault. -/
def NoFault {α : Type} (x : Loading α) (P : α → Prop) : Prop :=
  match x with
  | .ok a => P a
  | .error (.status _) => True
  | .error (.pageFault _) => False

theorem NoFault.bind {α β : Type} {x : Loading α} {f : α → Loading β} {P : α → Prop}
    {Q : β → Prop} (hx : NoFault x P) (hf : ∀ a, P a → NoFault (f a) Q) : NoFault (x >>= f) Q := by
  cases x with
  | ok a => exact hf a hx
  | error e =>
      cases e with
      | status value => trivial
      | pageFault virt => exact hx

theorem NoFault.mono {α : Type} {x : Loading α} {P Q : α → Prop} (hx : NoFault x P)
    (hpq : ∀ a, P a → Q a) : NoFault x Q := by
  cases x with
  | ok a => exact hpq a hx
  | error e =>
      cases e with
      | status value => trivial
      | pageFault virt => exact hx

theorem ok_bind {α β : Type} (a : α) (f : α → Loading β) : (Except.ok a >>= f) = f a := rfl

/-! ### `change_map_4k` -/

section ChangeMap
variable {va : Nat} {e : BitVec 64}

/-- Every bit of an entry `change_map_4k` leaves: the two of the rights are set, the others are
as before. -/
theorem getLsbD_changeAttribute (value : BitVec 64) (attr : PageAttribute) {i : Nat} (hi : i < 64) :
    (changeAttribute value attr).getLsbD i
      = if i = 1 then decide (attr = .readWrite)
        else if i = 63 then decide (attr ≠ .executable)
        else value.getLsbD i := by
  cases attr <;>
    simp only [changeAttribute, BitVec.getLsbD_or, BitVec.getLsbD_and, BitVec.getLsbD_not,
      getLsbD_BIT, ENTRY_RW, ENTRY_XD, hi]
  all_goals
    by_cases h1 : i = 1
    · simp [h1]
    · by_cases h63 : i = 63
      · simp [h63]
      · simp [h1, h63]

/-- `change_map_4k` changes no bit but the two of the rights. -/
theorem sameTarget_changeAttribute (value : BitVec 64) (attr : PageAttribute) :
    SameTarget value (changeAttribute value attr) := by
  apply SameTarget.of_bits
  intro i h1 h63
  by_cases hi : i < 64
  · rw [getLsbD_changeAttribute value attr hi, if_neg h1, if_neg h63]
  · rw [BitVec.getLsbD_of_ge _ _ (by omega), BitVec.getLsbD_of_ge _ _ (by omega)]

theorem mayWrite_changeAttribute (value : BitVec 64) (attr : PageAttribute) :
    mayWrite (changeAttribute value attr) = decide (attr = .readWrite) := by
  rw [mayWrite, getLsbD_changeAttribute value attr (by decide), if_pos rfl]

theorem noExecute_changeAttribute (value : BitVec 64) (attr : PageAttribute) :
    noExecute (changeAttribute value attr) = decide (attr ≠ .executable) := by
  rw [noExecute, getLsbD_changeAttribute value attr (by decide), if_neg (by decide), if_pos rfl]

/-- The rights of a segment are those of the attribute `read_p_flags` reads off its flags. -/
theorem rights_eq (ph : SegmentPhdr) :
    ph.rights = (decide (readPFlags ph.pFlags = .readWrite),
      decide (readPFlags ph.pFlags ≠ .executable)) := by
  have hx : ph.pFlags &&& PF_X = 0#32 ↔ ph.pFlags.getLsbD 0 = false :=
    BitField.and_one_shiftLeft_eq_zero ph.pFlags 0 (by decide)
  have hw : ph.pFlags &&& PF_W = 0#32 ↔ ph.pFlags.getLsbD 1 = false :=
    BitField.and_one_shiftLeft_eq_zero ph.pFlags 1 (by decide)
  unfold SegmentPhdr.rights readPFlags
  simp only [ne_eq, hx, hw, Bool.not_eq_false]
  cases ph.pFlags.getLsbD 0 with
  | true => simp
  | false =>
      cases ph.pFlags.getLsbD 1 with
      | true => simp
      | false => simp

/-- The loader reads the address of the next table as the hardware does. -/
theorem ReferencesClear.physOf_parent {mem : Mem} {root i t : Nat} {v : List Nat}
    (hclear : ReferencesClear mem root) (h : tableOf mem 4 root (i :: v) = some t) :
    ∃ t0, tableOf mem 4 root v = some t0 ∧ physOf (load64 mem (t0 + 8 * i)) = t := by
  obtain ⟨t0, ht0, hchild⟩ := tableOf_cons_eq_some.mp h
  obtain ⟨hi, hp, hl, haddr⟩ := child_eq_some.mp hchild
  exact ⟨t0, ht0, (physOf_eq (hclear ht0 hi hp hl)).trans haddr⟩

/-- `change_map_4k` on a page that is mapped stores its entry of level 1 with new rights. -/
theorem changeMap4k_eq (hclear : ReferencesClear m.mem m.cr3) {t : Nat}
    (ht : tableOf m.mem 4 m.cr3 (pathTo 4 va 3) = some t) (attr : PageAttribute) :
    changeMap4k va attr m = { m with
      mem := store64 m.mem (t + 8 * index 1 va)
        (changeAttribute (entryAt m.mem t (index 1 va)) attr) } := by
  obtain ⟨t2, ht2, hphys2⟩ := hclear.physOf_parent ht
  obtain ⟨t3, ht3, hphys3⟩ := hclear.physOf_parent ht2
  obtain ⟨t4, ht4, hphys4⟩ := hclear.physOf_parent ht3
  cases ht4
  -- The entries the loader computes are those on the way of the walk.
  have hent4 : physOf (m.value (getEntryAddress va m.cr3 .level4)) = t3 := hphys4
  have hent3 : physOf (m.value (getEntryAddress va t3 .level3)) = t2 := hphys3
  have hent2 : physOf (m.value (getEntryAddress va t2 .level2)) = t := hphys2
  unfold changeMap4k
  simp only [hent4, hent3, hent2]
  rfl

/-- The tables stay so when only entries of level 1 change. -/
theorem PlainTables.keeps {R : List Nat → Prop} (h : PlainTables m) (hcr3 : m'.cr3 = m.cr3)
    (hkeeps : KeepsTargets m.mem m'.mem 4 m.cr3 R) (hR : ∀ p, R p → p.length = 4) :
    PlainTables m' := by
  refine ⟨hcr3 ▸ h.root, hcr3 ▸ hkeeps.unshared h.unshared, ?_⟩
  intro v t i hv hi hp hl
  rw [hcr3, hkeeps.tableOf] at hv
  have hsame : entryAt m'.mem t i = entryAt m.mem t i := by
    apply hkeeps.same hv hi
    intro hin
    -- The entries of level 1 are all leaves.
    have hlen := hR _ hin
    rw [List.length_cons] at hlen
    have hone : 4 - v.length = 1 := by omega
    rw [hone] at hl
    cases hl
  rw [hsame] at hp hl ⊢
  exact h.clear hv hi hp hl

/-- The pages of `I` have the rights of `attr`, and nothing else changed. -/
structure ChangesRights (attr : PageAttribute) (I : Extent) (m m' : Loader φ) : Prop where
  cr3 : m'.cr3 = m.cr3
  keeps : KeepsTargets m.mem m'.mem 4 m.cr3 fun p => ∃ g ∈ I, p = pathTo 4 (g * PAGE_SIZE) 4
  entries : ∀ g ∈ I, pageEntry m'.mem m.cr3 (g * PAGE_SIZE)
    = (pageEntry m.mem m.cr3 (g * PAGE_SIZE)).map (changeAttribute · attr)
  memory : ∀ b, (∀ g ∈ I, ¬ EntryByte m.mem m.cr3 (g * PAGE_SIZE) b) → m'.mem b = m.mem b

theorem ChangesRights.plainTables {attr : PageAttribute} {I : Extent}
    (h : ChangesRights attr I m m') (hm : PlainTables m) : PlainTables m' := by
  apply hm.keeps h.cr3 h.keeps
  rintro p ⟨g, -, rfl⟩
  exact length_pathTo 4 _ 4

/-- `change_map_4k` on a page that is mapped changes its rights and nothing else. -/
theorem changeMap4k_spec (h : PlainTables m) {g : Nat}
    (he : (pageEntry m.mem m.cr3 (g * PAGE_SIZE)).isSome) (attr : PageAttribute) :
    ChangesRights attr ⟨g, 1⟩ m (changeMap4k (g * PAGE_SIZE) attr m) := by
  obtain ⟨e, he⟩ := Option.isSome_iff_exists.mp he
  obtain ⟨hc, t, ht, hentry, hp⟩ := pageEntry_eq_some.mp he
  have htarget := sameTarget_changeAttribute (entryAt m.mem t (index 1 (g * PAGE_SIZE))) attr
  have hkeeps := KeepsTargets.store64 h.root h.unshared ht (index_lt 1 (g * PAGE_SIZE)) htarget
  have hone : ∀ x, x ∈ (⟨g, 1⟩ : Extent) ↔ x = g := by
    intro x
    rw [Extent.mem_mk]
    omega
  rw [changeMap4k_eq h.clear ht attr]
  refine ⟨rfl, hkeeps.mono ?_, ?_, ?_⟩
  · exact fun p hp => ⟨g, (hone g).mpr rfl, hp⟩
  · intro x hx
    rw [(hone x).mp hx, he, Option.map_some, ← hentry]
    refine pageEntry_eq_some.mpr ⟨hc, t, (hkeeps.tableOf _).trans ht, load64_store64 _ _ _, ?_⟩
    rw [htarget.present, hentry]
    exact hp
  · intro b hb
    apply store64_apply_of_disjoint
    by_contra hcon
    exact hb g ((hone g).mpr rfl) ⟨t, ht, by omega⟩

/-- One more page. -/
theorem ChangesRights.succ {attr : PageAttribute} {g n : Nat} {m1 : Loader φ}
    (h : ChangesRights attr ⟨g, n⟩ m m1) (h' : ChangesRights attr ⟨g + n, 1⟩ m1 m')
    (hmapped : ∀ x ∈ (⟨g, n + 1⟩ : Extent), canonical (x * PAGE_SIZE) = true) :
    ChangesRights attr ⟨g, n + 1⟩ m m' := by
  obtain ⟨hcr3, hkeeps, hentries, hmemory⟩ := h'
  rw [h.cr3] at hcr3 hkeeps hentries hmemory
  -- The page is one of the earlier ones or the new one, never both.
  have hcases : ∀ x, x ∈ (⟨g, n + 1⟩ : Extent) ↔
      x ∈ (⟨g, n⟩ : Extent) ∨ x ∈ (⟨g + n, 1⟩ : Extent) := by
    intro x
    simp only [Extent.mem_mk]
    omega
  have hpath : ∀ x ∈ (⟨g, n⟩ : Extent), ∀ y ∈ (⟨g + n, 1⟩ : Extent),
      pathTo 4 (x * PAGE_SIZE) 4 ≠ pathTo 4 (y * PAGE_SIZE) 4 := by
    intro x hx y hy heq
    rw [pathTo_eq_iff (hmapped x ((hcases x).mpr (.inl hx)))
      (hmapped y ((hcases y).mpr (.inr hy)))] at heq
    simp only [PAGE_SIZE, Extent.mem_mk] at heq hx hy
    omega
  refine ⟨hcr3, (h.keeps.trans hkeeps).mono ?_, ?_, ?_⟩
  · rintro p (⟨x, hx, rfl⟩ | ⟨x, hx, rfl⟩)
    · exact ⟨x, (hcases x).mpr (.inl hx), rfl⟩
    · exact ⟨x, (hcases x).mpr (.inr hx), rfl⟩
  · intro x hx
    rcases (hcases x).mp hx with hx | hx
    · have hnot : ¬ ∃ y ∈ (⟨g + n, 1⟩ : Extent),
          pathTo 4 (x * PAGE_SIZE) 4 = pathTo 4 (y * PAGE_SIZE) 4 := by
        rintro ⟨y, hy, heq⟩
        exact hpath x hx y hy heq
      rw [hkeeps.pageEntry hnot, h.entries x hx]
    · have hnot : ¬ ∃ y ∈ (⟨g, n⟩ : Extent),
          pathTo 4 (x * PAGE_SIZE) 4 = pathTo 4 (y * PAGE_SIZE) 4 := by
        rintro ⟨y, hy, heq⟩
        exact hpath y hy x hx heq.symm
      rw [hentries x hx, h.keeps.pageEntry hnot]
  · intro b hb
    have hnew : ∀ x ∈ (⟨g + n, 1⟩ : Extent), ¬ EntryByte m1.mem m.cr3 (x * PAGE_SIZE) b := by
      intro x hx
      rw [h.keeps.entryByte]
      exact hb x ((hcases x).mpr (.inr hx))
    rw [hmemory b hnew, h.memory b fun x hx => hb x ((hcases x).mpr (.inl hx))]

/-- The loop over the pages from `g` on changes the rights of the first `n` of them. -/
theorem changePages_spec (h : PlainTables m) {g N : Nat}
    (hmapped : ∀ x ∈ (⟨g, N⟩ : Extent), (pageEntry m.mem m.cr3 (x * PAGE_SIZE)).isSome)
    (attr : PageAttribute) :
    ∀ n ≤ N, ChangesRights attr ⟨g, n⟩ m (changePages (g * PAGE_SIZE) attr n m) := by
  intro n
  induction n with
  | zero =>
      intro _
      refine ⟨rfl, .refl _ _ _ _, ?_, fun _ _ => rfl⟩
      intro x hx
      rw [Extent.mem_mk] at hx
      omega
  | succ n ih =>
      intro hn
      have hchanged := ih (by omega)
      rw [changePages]
      generalize changePages (g * PAGE_SIZE) attr n m = m1 at hchanged
      have hcanonical : ∀ x ∈ (⟨g, n + 1⟩ : Extent), canonical (x * PAGE_SIZE) = true := by
        intro x hx
        rw [Extent.mem_mk] at hx
        obtain ⟨e, he⟩ := Option.isSome_iff_exists.mp (hmapped x (by rw [Extent.mem_mk]; omega))
        exact (pageEntry_eq_some.mp he).1
      have hlast := hmapped (g + n) (by rw [Extent.mem_mk]; omega)
      obtain ⟨e, he⟩ := Option.isSome_iff_exists.mp hlast
      have haddr : u64 (g * PAGE_SIZE + EFI_PAGE_SIZE * n) = (g + n) * PAGE_SIZE := by
        have hsum : g * PAGE_SIZE + EFI_PAGE_SIZE * n = (g + n) * PAGE_SIZE := by
          simp only [PAGE_SIZE, EFI_PAGE_SIZE]
          omega
        rw [hsum, u64_of_lt (lt_of_translateAddr (translateAddr_of_pageEntry he))]
      -- The next page is still mapped: only rights have changed.
      have hnext : (pageEntry m1.mem m1.cr3 ((g + n) * PAGE_SIZE)).isSome := by
        rw [hchanged.cr3, hchanged.keeps.isSome_pageEntry]
        exact hlast
      rw [haddr]
      exact hchanged.succ (changeMap4k_spec (hchanged.plainTables h) hnext attr) hcanonical

end ChangeMap

/-! ### The pages of the segments -/

section Pages
variable {a b : SegmentPhdr} {va vb p : Nat}

theorem mem_pages (ph : Elf64Phdr) {k : Nat} (hk : k < ph.pMemsz.toNat) :
    (ph.pVaddr.toNat + k) / PAGE_SIZE ∈ ph.pages := by
  simp only [Elf64Phdr.pages, PAGE_SIZE, Extent.mem_mk]
  omega

/-- The address of a page is in it. -/
theorem mul_mem_pages {ph : Elf64Phdr} {g : Nat} (hg : g ∈ ph.pages) :
    g * PAGE_SIZE / PAGE_SIZE ∈ ph.pages := by
  have hmul : g * PAGE_SIZE / PAGE_SIZE = g := Nat.mul_div_cancel g (by decide)
  rw [hmul]
  exact hg

/-- Every address of the pages is mapped by an entry of level 1. -/
theorem PagesWritable.pageEntry (hw : PagesWritable phdr m) (hph : ph ∈ phdr) (hl : ph.Loaded)
    (hva : va / PAGE_SIZE ∈ ph.pages) : ∃ e, Paging.pageEntry m.mem m.cr3 va = some e := by
  have hpage : va / PAGE_SIZE * PAGE_SIZE / 4096 = va / 4096 := Nat.mul_div_cancel _ (by decide)
  rw [← pageEntry_congr hpage]
  exact Option.isSome_iff_exists.mp (hw ph hph hl _ hva).1

theorem PagesWritable.writable (hw : PagesWritable phdr m) (hph : ph ∈ phdr) (hl : ph.Loaded)
    (hva : va / PAGE_SIZE ∈ ph.pages) : Paging.writable m.mem m.cr3 va = true := by
  have hpage : va / PAGE_SIZE * PAGE_SIZE / 4096 = va / 4096 := Nat.mul_div_cancel _ (by decide)
  rw [← writable_congr hpage]
  exact (hw ph hph hl _ hva).2

/-- An address is translated to its place in the frame of its page. -/
theorem PagesWritable.frame (hw : PagesWritable phdr m) (hph : ph ∈ phdr) (hl : ph.Loaded)
    (hva : va / PAGE_SIZE ∈ ph.pages) : ∃ f, f % 4096 = 0 ∧
      translateAddr m.mem m.cr3 (va / PAGE_SIZE * PAGE_SIZE) = some f ∧
      translateAddr m.mem m.cr3 va = some (f + va % 4096) := by
  obtain ⟨e, he⟩ := hw.pageEntry hph hl hva
  have hpage : va / PAGE_SIZE * PAGE_SIZE / 4096 = va / 4096 := Nat.mul_div_cancel _ (by decide)
  have he' := (pageEntry_congr hpage).trans he
  have hmod : va / PAGE_SIZE * PAGE_SIZE % 4096 = 0 := Nat.mul_mod_left _ _
  refine ⟨entryAddr e, entryAddr_mod e, ?_, translateAddr_of_pageEntry he⟩
  rw [translateAddr_of_pageEntry he', hmod, Nat.add_zero]

/-- No two addresses of the pages are translated to one. -/
theorem Unaliased.inj (hu : Unaliased phdr m) (hw : PagesWritable phdr m) (ha : a ∈ phdr)
    (hla : a.Loaded) (hb : b ∈ phdr) (hlb : b.Loaded) (hva : va / PAGE_SIZE ∈ a.pages)
    (hvb : vb / PAGE_SIZE ∈ b.pages)
    (heq : translateAddr m.mem m.cr3 va = translateAddr m.mem m.cr3 vb) : va = vb := by
  obtain ⟨f, hf, hbase, htrans⟩ := hw.frame ha hla hva
  obtain ⟨f', hf', hbase', htrans'⟩ := hw.frame hb hlb hvb
  rw [htrans, htrans', Option.some.injEq] at heq
  have hff : f = f' := by omega
  have hpage : va / PAGE_SIZE = vb / PAGE_SIZE := by
    apply hu.frames a ha hla b hb hlb _ hva _ hvb
    rw [hbase, hbase', hff]
  simp only [PAGE_SIZE] at hpage
  omega

/-- None of them is translated into a table. -/
theorem Unaliased.outside (hu : Unaliased phdr m) (hw : PagesWritable phdr m) (hph : ph ∈ phdr)
    (hl : ph.Loaded) (hva : va / PAGE_SIZE ∈ ph.pages)
    (hp : translateAddr m.mem m.cr3 va = some p) : OutsideTables m.mem m.cr3 p := by
  intro v t ht
  obtain ⟨f, hf, hbase, htrans⟩ := hw.frame hph hl hva
  rw [htrans, Option.some.injEq] at hp
  have hne : f ≠ t := fun heq => hu.tables ph hph hl _ hva v t ht (heq ▸ hbase)
  have hal := tableOf_aligned hu.root ht
  omega

/-- The bytes of a segment can be stored. -/
theorem Unaliased.storable (hu : Unaliased phdr m) (hw : PagesWritable phdr m) (hph : ph ∈ phdr)
    (hl : ph.Loaded) : Storable m.mem m.cr3 ph.pVaddr.toNat ph.pMemsz.toNat := by
  constructor
  · intro k hk
    obtain ⟨f, -, -, htrans⟩ := hw.frame hph hl (mem_pages _ hk)
    exact ⟨_, htrans, hu.outside hw hph hl (mem_pages _ hk) htrans⟩
  · intro k hk
    exact hw.writable hph hl (mem_pages _ hk)
  · intro j hj k hk heq
    have := hu.inj hw hph hl hph hl (mem_pages _ hj) (mem_pages _ hk) heq
    omega

end Pages

/-! ### One segment -/

/-- The paths of the pages of the segments. -/
def PagePath (phdr : List SegmentPhdr) (p : List Nat) : Prop :=
  ∃ ph ∈ phdr, ph.Loaded ∧ ∃ g ∈ ph.pages, p = pathTo 4 (g * PAGE_SIZE) 4

/-- What a run over the segments leaves, in terms of the tables and translations before it. -/
structure LoadedBy (file : Nat → BitVec 8) (phdr : List SegmentPhdr) (m m' : Loader φ) : Prop where
  cr3 : m'.cr3 = m.cr3
  keeps : KeepsTargets m.mem m'.mem 4 m.cr3 (PagePath phdr)
  image : ∀ ph ∈ phdr, ph.Loaded → ∀ k < ph.pMemsz.toNat, ∀ p,
    translateAddr m.mem m.cr3 (ph.pVaddr.toNat + k) = some p → m'.mem p = ph.imageByte file k
  rights : ∀ ph ∈ phdr, ph.Loaded → ∀ g ∈ ph.pages,
    pageRights m'.mem m.cr3 (g * PAGE_SIZE) = some ph.rights
  memory : ∀ b, (∀ ph ∈ phdr, ph.Loaded → ∀ va, va / PAGE_SIZE ∈ ph.pages →
    translateAddr m.mem m.cr3 va ≠ some b) → ¬ InEntry phdr m b → m'.mem b = m.mem b

section OneSegment
variable {kernel : FileHandle ψ} {file : Nat → BitVec 8} {f : ψ}

/-- The bytes of a segment in the file. -/
def SegmentPhdr.fileBytes (ph : SegmentPhdr) (file : Nat → BitVec 8) : List (BitVec 8) :=
  (List.range ph.pFilesz.toNat).map fun k => file (ph.pOffset.toNat + k)

/-- The bytes of a segment in memory. -/
def SegmentPhdr.image (ph : SegmentPhdr) (file : Nat → BitVec 8) : List (BitVec 8) :=
  (List.range ph.pMemsz.toNat).map (ph.imageByte file)

theorem length_image (ph : SegmentPhdr) (file : Nat → BitVec 8) :
    (ph.image file).length = ph.pMemsz.toNat := by
  rw [SegmentPhdr.image, List.length_map, List.length_range]

/-- The image is the bytes of the file and zeros behind them. -/
theorem image_eq (h : ph.pFilesz.toNat ≤ ph.pMemsz.toNat) (file : Nat → BitVec 8) :
    ph.fileBytes file ++ List.replicate (ph.pMemsz.toNat - ph.pFilesz.toNat) 0#8
      = ph.image file := by
  apply List.ext_getElem
  · simp only [SegmentPhdr.fileBytes, SegmentPhdr.image, List.length_append, List.length_map,
      List.length_range, List.length_replicate]
    omega
  · intro k hk _
    simp only [SegmentPhdr.fileBytes, SegmentPhdr.image, SegmentPhdr.imageByte,
      List.getElem_append, List.length_map, List.length_range, List.getElem_map,
      List.getElem_range, List.getElem_replicate]
    by_cases hlt : k < ph.pFilesz.toNat
    · rw [dif_pos hlt, if_pos hlt]
    · rw [dif_neg hlt, if_neg hlt]

theorem store_nil (m : Loader φ) (virt : Nat) : m.store virt [] = .ok m := rfl

/-- Two stores one behind the other are one. -/
theorem store_append (m : Loader φ) (virt : Nat) (bs cs : List (BitVec 8)) :
    m.store virt (bs ++ cs) = m.store virt bs >>= fun m => m.store (virt + bs.length) cs := by
  unfold Loader.store
  rw [storeAll_append]
  cases storeAll m.cr3 m.mem virt bs with
  | error va => rfl
  | ok mem => rfl

/-- The first half of the loop stores the bytes of the file, unless the firmware fails. -/
theorem readSegment_cases (hreads : ReadsFile kernel file phdr) (hph : ph ∈ phdr) (m : Loader φ)
    (f : ψ) : (∃ status, readSegment kernel ph m f = .error (.status status)) ∨
      ∃ f', readSegment kernel ph m f = m.store ph.pVaddr.toNat (ph.fileBytes file) >>=
        fun m => .ok (ph.pFilesz.toNat, m, f') := by
  unfold readSegment
  by_cases hpos : ph.pFilesz.toNat > 0
  · simp only [if_pos hpos]
    cases hseek : kernel.setPosition ph.pOffset.toNat f with
    | error status => exact .inl ⟨status, rfl⟩
    | ok f1 =>
        have hgo : (tryEfi (.ok f1) >>= fun f =>
            readFile kernel ph.pVaddr.toNat ph.pFilesz.toNat m f)
            = readFile kernel ph.pVaddr.toNat ph.pFilesz.toNat m f1 := rfl
        rw [hgo]
        unfold readFile
        cases hread : kernel.read ph.pFilesz.toNat f1 with
        | error status => exact .inl ⟨status, rfl⟩
        | ok r =>
            obtain ⟨bytes, f2⟩ := r
            have hbytes : bytes = ph.fileBytes file := hreads ph hph f f1 bytes f2 hseek hread
            have hlen : (ph.fileBytes file).length = ph.pFilesz.toNat := by
              rw [SegmentPhdr.fileBytes, List.length_map, List.length_range]
            right
            refine ⟨f2, ?_⟩
            rw [hbytes, ← hlen]
            rfl
  · -- A segment without bytes in the file is not read.
    have hzero : ph.pFilesz.toNat = 0 := by omega
    right
    refine ⟨f, ?_⟩
    rw [if_neg hpos, SegmentPhdr.fileBytes, hzero]
    rfl

/-- `zero_count` is the number of bytes behind those of the file. -/
theorem zeroCount_eq {memSize fileSize : Nat} (hle : fileSize ≤ memSize) (hlt : memSize < 2 ^ 31) :
    zeroCount memSize fileSize = (memSize - fileSize : Nat) := by
  rw [zeroCount, sub64_of_le hle (by omega)]
  have hsmall : memSize - fileSize < 2 ^ 31 := by omega
  generalize memSize - fileSize = n at hsmall
  rw [BitVec.toInt_eq_toNat_of_lt]
  · rw [BitVec.toNat_ofNat, Nat.mod_eq_of_lt (by omega)]
  · rw [BitVec.toNat_ofNat, Nat.mod_eq_of_lt (by omega)]
    omega

/-- The second half stores zeros behind the bytes of the file. -/
theorem zeroSegment_eq (hle : ph.pFilesz.toNat ≤ ph.pMemsz.toNat) (hlt : ph.pMemsz.toNat < 2 ^ 31)
    (hfits : ph.pVaddr.toNat + ph.pMemsz.toNat ≤ 2 ^ 64) (m : Loader φ) :
    zeroSegment ph ph.pFilesz.toNat m = m.store (ph.pVaddr.toNat + ph.pFilesz.toNat)
      (List.replicate (ph.pMemsz.toNat - ph.pFilesz.toNat) 0#8) := by
  unfold zeroSegment
  simp only [zeroCount_eq hle hlt]
  by_cases hpos : 0 < ph.pMemsz.toNat - ph.pFilesz.toNat
  · have hsize : toUINTN ((ph.pMemsz.toNat - ph.pFilesz.toNat : Nat) : Int)
        = ph.pMemsz.toNat - ph.pFilesz.toNat := by
      rw [toUINTN]
      omega
    rw [if_pos (by omega), hsize, u64_of_lt (by omega)]
    rfl
  · have hzero : ph.pMemsz.toNat - ph.pFilesz.toNat = 0 := by omega
    rw [if_neg (by omega), hzero, List.replicate_zero, store_nil]

theorem toNat_and_not_pageMask (x : BitVec 64) :
    (x &&& ~~~EFI_PAGE_MASK).toNat = x.toNat / 4096 * 4096 :=
  BitField.toNat_and_not_lowMask x 12

/-- The loop over the pages of an aligned segment visits exactly these. -/
theorem pageCount_eq (hal : ph.pVaddr.toNat % PAGE_SIZE = 0)
    (hlt : ph.pMemsz.toNat < 2 ^ 31) (hfits : ph.pVaddr.toNat + ph.pMemsz.toNat ≤ 2 ^ 64) :
    ph.pageStart = ph.pages.start * PAGE_SIZE ∧
      sub64 ph.pageEnd ph.pageStart / EFI_PAGE_SIZE = ph.pages.len := by
  have hstart : ph.pageStart = ph.pVaddr.toNat / 4096 * 4096 := toNat_and_not_pageMask _
  have hend : ph.pageEnd = (ph.pVaddr.toNat + ph.pMemsz.toNat + 4095) % 2 ^ 64 / 4096 * 4096 := by
    have hsize : (BitVec.ofNat 64 EFI_PAGE_SIZE - 1).toNat = 4095 := by decide
    rw [SegmentPhdr.pageEnd, toNat_and_not_pageMask, BitVec.toNat_add, BitVec.toNat_add, hsize,
      Nat.mod_add_mod]
  refine ⟨hstart, ?_⟩
  simp only [PAGE_SIZE] at hal
  obtain ⟨g, hg⟩ : ∃ g, ph.pVaddr.toNat = g * 4096 := ⟨ph.pVaddr.toNat / 4096, by omega⟩
  simp only [Elf64Phdr.pages, PAGE_SIZE, EFI_PAGE_SIZE, sub64]
  rw [hstart, hend, hg, Nat.mul_div_cancel g (by decide)]
  rw [hg] at hfits
  have hg64 : u64 (g * 4096) = g * 4096 := u64_of_lt (by omega)
  rw [hg64]
  -- The end is 0 for a segment that reaches the end of the address space.
  by_cases hwrap : g * 4096 + ph.pMemsz.toNat + 4095 < 2 ^ 64
  · rw [Nat.mod_eq_of_lt hwrap, u64]
    omega
  · have hmod : (g * 4096 + ph.pMemsz.toNat + 4095) % 2 ^ 64
        = g * 4096 + ph.pMemsz.toNat + 4095 - 2 ^ 64 := by omega
    rw [hmod, u64]
    omega

/-- A segment whose pages are mapped ends inside the address space. -/
theorem PagesWritable.fits (hw : PagesWritable phdr m) (hph : ph ∈ phdr) (hl : ph.Loaded) :
    ph.pVaddr.toNat + ph.pMemsz.toNat ≤ 2 ^ 64 := by
  have hpos : ¬ ph.pMemsz.toNat = 0 := fun heq => hl.2 (BitVec.eq_of_toNat_eq heq)
  have hlast : ph.pMemsz.toNat - 1 < ph.pMemsz.toNat := by omega
  obtain ⟨f, -, -, htrans⟩ := hw.frame hph hl (mem_pages _ hlast)
  have hlt := lt_of_translateAddr htrans
  omega

/-- The body of the loop stores the image of the segment and then changes the rights of its pages,
unless the firmware fails. -/
theorem loadOne_cases (ht : SegmentTable phdr) (hw : PagesWritable phdr m)
    (hreads : ReadsFile kernel file phdr) (hph : ph ∈ phdr) (hl : ph.Loaded) (f : ψ) :
    (∃ status, loadOne kernel ph (m, f) = .error (.status status)) ∨
      ∃ f', loadOne kernel ph (m, f) = m.store ph.pVaddr.toNat (ph.image file) >>= fun m => .ok
        (changePages (ph.pages.start * PAGE_SIZE) (readPFlags ph.pFlags) ph.pages.len m, f') := by
  obtain ⟨hle, hlt⟩ := ht.sizes ph hph hl
  have hfits := hw.fits hph hl
  obtain ⟨hstart, hcount⟩ := pageCount_eq (ht.aligned ph hph hl) hlt hfits
  unfold loadOne
  simp only
  rw [hcount, hstart]
  rcases readSegment_cases hreads hph m f with ⟨status, hread⟩ | ⟨f', hread⟩
  · left
    exact ⟨status, by rw [hread]; rfl⟩
  · right
    refine ⟨f', ?_⟩
    have hlen : (ph.fileBytes file).length = ph.pFilesz.toNat := by
      rw [SegmentPhdr.fileBytes, List.length_map, List.length_range]
    rw [hread, ← image_eq hle file, store_append, bind_assoc, bind_assoc, hlen]
    congr 1
    funext m1
    rw [ok_bind]
    simp only [zeroSegment_eq hle hlt hfits]

/-- One segment, in a state in which its pages are still writable. -/
theorem loadOne_spec (ht : SegmentTable phdr) (hw : PagesWritable phdr m) (hu : Unaliased phdr m)
    (hreads : ReadsFile kernel file phdr) (hph : ph ∈ phdr) (hl : ph.Loaded) (f : ψ) :
    NoFault (loadOne kernel ph (m, f)) fun s' => LoadedBy file [ph] m s'.1 := by
  rcases loadOne_cases ht hw hreads hph hl f with ⟨status, hrun⟩ | ⟨f', hrun⟩
  · rw [hrun]
    trivial
  have hstorable := hu.storable hw hph hl
  rw [← length_image ph file] at hstorable
  obtain ⟨mem1, hstore, hstored⟩ := storeAll_spec _ _ _ hstorable
  have hok : m.store ph.pVaddr.toNat (ph.image file) = .ok { m with mem := mem1 } := by
    rw [Loader.store, hstore]
  rw [hrun, hok]
  -- No entry of a table has changed so far.
  have hkeeps := hstored.keeps
  have hplain : PlainTables { m with mem := mem1 } :=
    hu.toPlainTables.keeps rfl hkeeps fun _ h => h.elim
  have hmapped : ∀ g ∈ ph.pages, (pageEntry mem1 m.cr3 (g * PAGE_SIZE)).isSome := by
    intro g hg
    rw [hkeeps.isSome_pageEntry]
    exact (hw ph hph hl g hg).1
  have hchanged : ChangesRights (readPFlags ph.pFlags) ph.pages { m with mem := mem1 }
      (changePages (ph.pages.start * PAGE_SIZE) (readPFlags ph.pFlags) ph.pages.len
        { m with mem := mem1 }) :=
    changePages_spec hplain hmapped (readPFlags ph.pFlags) ph.pages.len (Nat.le_refl _)
  show LoadedBy file [ph] m (changePages _ _ _ { m with mem := mem1 })
  generalize changePages (ph.pages.start * PAGE_SIZE) (readPFlags ph.pFlags) ph.pages.len
    { m with mem := mem1 } = m' at hchanged
  obtain ⟨hcr3, hkeeps', hentries, hmemory⟩ := hchanged
  simp only at hcr3 hkeeps' hentries hmemory
  have hself := List.mem_singleton_self ph
  refine ⟨hcr3, (hkeeps.trans hkeeps').mono ?_, ?_, ?_, ?_⟩
  · rintro p (hfalse | ⟨g, hg, rfl⟩)
    · exact hfalse.elim
    · exact ⟨ph, hself, hl, g, hg, rfl⟩
  · intro ph' hph' _ k hk p hp
    obtain rfl := List.mem_singleton.mp hph'
    -- The byte is in no table, so the new rights leave it alone.
    have hout := hu.outside hw hph hl (mem_pages _ hk) hp
    rw [hmemory p fun g _ => (hkeeps.outsideTables hout).not_entryByte,
      hstored.bytes k (by rw [length_image]; exact hk) p hp]
    simp only [SegmentPhdr.image, List.getElem_map, List.getElem_range]
  · intro ph' hph' _ g hg
    obtain rfl := List.mem_singleton.mp hph'
    obtain ⟨e, he⟩ := Option.isSome_iff_exists.mp (hmapped g hg)
    rw [pageRights, hentries g hg, he, Option.map_some, Option.map_some,
      mayWrite_changeAttribute, noExecute_changeAttribute, rights_eq]
  · intro b hb hentry
    rw [hmemory b, hstored.others b]
    · intro k hk
      rw [length_image] at hk
      exact hb ph hself hl _ (mem_pages _ hk)
    · intro g hg hin
      rw [hkeeps.entryByte] at hin
      exact hentry ⟨ph, hself, hl, g, hg, hin⟩

end OneSegment

/-! ### All segments -/

section AllSegments
variable {kernel : FileHandle ψ} {file : Nat → BitVec 8} {va : Nat}

/-- The pages of an address with the path of a page of a segment. -/
theorem PagesWritable.mem_of_pagePath (hw : PagesWritable phdr m) (hc : canonical va = true)
    {k : Nat} (h : PagePath phdr (pathTo 4 va k)) :
    ∃ ph ∈ phdr, ph.Loaded ∧ va / PAGE_SIZE ∈ ph.pages := by
  obtain ⟨ph, hph, hl, g, hg, hpath⟩ := h
  have hlen := congrArg List.length hpath
  rw [length_pathTo, length_pathTo] at hlen
  rw [hlen] at hpath
  have hmem := mul_mem_pages hg
  obtain ⟨e, he⟩ := hw.pageEntry hph hl hmem
  have hpage : va / PAGE_SIZE = g * PAGE_SIZE / PAGE_SIZE :=
    (pathTo_eq_iff hc (pageEntry_eq_some.mp he).1).mp hpath
  exact ⟨ph, hph, hl, hpage ▸ hmem⟩

/-- The conditions on the headers hold of a part of them. -/
theorem SegmentTable.tail (ht : SegmentTable (ph :: phdr)) : SegmentTable phdr where
  aligned a ha := ht.aligned a (List.mem_cons_of_mem ph ha)
  disjoint := (List.pairwise_cons.mp ht.disjoint).2
  sizes a ha := ht.sizes a (List.mem_cons_of_mem ph ha)

theorem PagesWritable.sub {phdr' : List SegmentPhdr} (hw : PagesWritable phdr m)
    (hsub : ∀ a ∈ phdr', a ∈ phdr) : PagesWritable phdr' m :=
  fun a ha => hw a (hsub a ha)

theorem Unaliased.sub {phdr' : List SegmentPhdr} (hu : Unaliased phdr m)
    (hsub : ∀ a ∈ phdr', a ∈ phdr) : Unaliased phdr' m where
  root := hu.root
  unshared := hu.unshared
  clear := hu.clear
  frames a ha hla b hb := hu.frames a (hsub a ha) hla b (hsub b hb)
  tables a ha := hu.tables a (hsub a ha)

/-- The first segment has no page of another one. -/
theorem SegmentTable.disjoint_head (ht : SegmentTable (ph :: phdr)) (hl : ph.Loaded)
    {a : SegmentPhdr} (ha : a ∈ phdr) (hla : a.Loaded) : ph.pages.Disjoint a.pages :=
  (List.pairwise_cons.mp ht.disjoint).1 a ha hl hla

theorem PagesWritable.canonical (hw : PagesWritable phdr m) (hph : ph ∈ phdr) (hl : ph.Loaded)
    (hva : va / PAGE_SIZE ∈ ph.pages) : Paging.canonical va = true := by
  obtain ⟨e, he⟩ := hw.pageEntry hph hl hva
  exact (pageEntry_eq_some.mp he).1

/-- The later segments have no path of a page of the first one. -/
theorem SegmentTable.not_pagePath_head (ht : SegmentTable (ph :: phdr))
    (hw : PagesWritable (ph :: phdr) m) (hl : ph.Loaded) {a : SegmentPhdr} (ha : a ∈ phdr)
    (hla : a.Loaded) (hva : va / PAGE_SIZE ∈ a.pages) (k : Nat) :
    ¬ PagePath [ph] (pathTo 4 va k) := by
  intro hpath
  have hw1 : PagesWritable [ph] m := hw.sub (by simp)
  have hc := hw.canonical (List.mem_cons_of_mem ph ha) hla hva
  obtain ⟨ph', hph', -, hmem⟩ := hw1.mem_of_pagePath hc hpath
  rw [List.mem_singleton.mp hph'] at hmem
  exact ht.disjoint_head hl ha hla _ hmem hva

theorem SegmentTable.not_pagePath_tail (ht : SegmentTable (ph :: phdr))
    (hw : PagesWritable (ph :: phdr) m) (hl : ph.Loaded) (hva : va / PAGE_SIZE ∈ ph.pages)
    (k : Nat) : ¬ PagePath phdr (pathTo 4 va k) := by
  intro hpath
  have hw2 : PagesWritable phdr m := hw.sub fun a ha => List.mem_cons_of_mem ph ha
  have hc := hw.canonical List.mem_cons_self hl hva
  obtain ⟨a, ha, hla, hmem⟩ := hw2.mem_of_pagePath hc hpath
  exact ht.disjoint_head hl ha hla _ hva hmem

/-- The pages of the later segments are still writable after the first one. -/
theorem LoadedBy.pagesWritable (h1 : LoadedBy file [ph] m m') (ht : SegmentTable (ph :: phdr))
    (hw : PagesWritable (ph :: phdr) m) (hl : ph.Loaded) : PagesWritable phdr m' := by
  intro a ha hla g hg
  have hnot := ht.not_pagePath_head hw hl ha hla (mul_mem_pages hg)
  rw [h1.cr3, h1.keeps.pageEntry (hnot 4), h1.keeps.writable fun k => hnot (k + 1)]
  exact hw a (List.mem_cons_of_mem ph ha) hla g hg

theorem LoadedBy.unaliased (h1 : LoadedBy file [ph] m m') (hu : Unaliased (ph :: phdr) m) :
    Unaliased phdr m' := by
  have hu' : Unaliased phdr m := hu.sub fun a ha => List.mem_cons_of_mem ph ha
  have hlen : ∀ p, PagePath [ph] p → p.length = 4 := by
    rintro p ⟨_, -, -, g, -, rfl⟩
    exact length_pathTo 4 _ 4
  refine ⟨hu.toPlainTables.keeps h1.cr3 h1.keeps hlen, ?_, ?_⟩
  · simp only [h1.cr3, h1.keeps.translateAddr]
    exact hu'.frames
  · simp only [h1.cr3, h1.keeps.translateAddr, h1.keeps.tableOf]
    exact hu'.tables

/-- A segment that is not loaded leaves no trace. -/
theorem LoadedBy.cons_of_not_loaded (h : LoadedBy file phdr m m') (hl : ¬ ph.Loaded) :
    LoadedBy file (ph :: phdr) m m' := by
  have hsub : ∀ a ∈ ph :: phdr, a.Loaded → a ∈ phdr := by
    intro a ha hla
    rcases List.mem_cons.mp ha with rfl | ha
    · exact absurd hla hl
    · exact ha
  refine ⟨h.cr3, h.keeps.mono ?_, ?_, ?_, ?_⟩
  · rintro p ⟨a, ha, hin⟩
    exact ⟨a, List.mem_cons_of_mem ph ha, hin⟩
  · exact fun a ha hla => h.image a (hsub a ha hla) hla
  · exact fun a ha hla => h.rights a (hsub a ha hla) hla
  · intro b hb hentry
    apply h.memory b fun a ha => hb a (List.mem_cons_of_mem ph ha)
    rintro ⟨a, ha, hin⟩
    exact hentry ⟨a, List.mem_cons_of_mem ph ha, hin⟩

/-- The run over the first segment and the one over the others are one. -/
theorem LoadedBy.cons (h1 : LoadedBy file [ph] m m') (ht : SegmentTable (ph :: phdr))
    (hw : PagesWritable (ph :: phdr) m) (hu : Unaliased (ph :: phdr) m) (hl : ph.Loaded)
    (h2 : LoadedBy file phdr m' m'') : LoadedBy file (ph :: phdr) m m'' := by
  have hhead : ph ∈ ph :: phdr := List.mem_cons_self
  have htail : ∀ {a}, a ∈ phdr → a ∈ ph :: phdr := fun ha => List.mem_cons_of_mem ph ha
  -- What the second run says of its start holds of the start of the first one as well.
  obtain ⟨hcr3, hkeeps, himage, hrights, hmemory⟩ := h2
  have hentry : ∀ b, InEntry phdr m' b ↔ InEntry phdr m b := by
    intro b
    simp only [InEntry, h1.cr3, h1.keeps.entryByte]
  simp only [h1.cr3, h1.keeps.translateAddr, hentry] at hcr3 hkeeps himage hrights hmemory
  refine ⟨hcr3, (h1.keeps.trans hkeeps).mono ?_, ?_, ?_, ?_⟩
  · rintro p (⟨a, ha, hin⟩ | ⟨a, ha, hin⟩)
    · rw [List.mem_singleton.mp ha] at hin
      exact ⟨ph, hhead, hin⟩
    · exact ⟨a, htail ha, hin⟩
  · intro a ha hla k hk p hp
    rcases List.mem_cons.mp ha with rfl | ha
    · -- The later segments write to other frames, and no table is in this one.
      rw [hmemory p, h1.image a (List.mem_singleton_self a) hla k hk p hp]
      · intro b hb hlb va hva heq
        obtain rfl := hu.inj hw hhead hla (htail hb) hlb (mem_pages _ hk) hva (hp.trans heq.symm)
        exact ht.disjoint_head hla hb hlb _ (mem_pages _ hk) hva
      · rintro ⟨b, -, -, g, -, hbyte⟩
        exact (hu.outside hw hhead hla (mem_pages _ hk) hp).not_entryByte hbyte
    · exact himage a ha hla k hk p hp
  · intro a ha hla g hg
    rcases List.mem_cons.mp ha with rfl | ha
    · have hnot := ht.not_pagePath_tail hw hla (mul_mem_pages hg) 4
      rw [pageRights, hkeeps.pageEntry hnot]
      exact h1.rights a (List.mem_singleton_self a) hla g hg
    · exact hrights a ha hla g hg
  · intro b hb hnot
    rw [hmemory b, h1.memory b]
    · intro a ha
      rw [List.mem_singleton.mp ha]
      exact hb ph hhead
    · rintro ⟨a, ha, hin⟩
      rw [List.mem_singleton.mp ha] at hin
      exact hnot ⟨ph, hhead, hin⟩
    · exact fun a ha => hb a (htail ha)
    · rintro ⟨a, ha, hin⟩
      exact hnot ⟨a, htail ha, hin⟩

/-- A run over all segments. -/
theorem loadSegment_spec : ∀ (phdr : List SegmentPhdr) (m : Loader φ) (f : ψ), SegmentTable phdr →
    PagesWritable phdr m → Unaliased phdr m → ReadsFile kernel file phdr →
      NoFault (loadSegment kernel phdr (m, f)) fun s' => LoadedBy file phdr m s'.1 := by
  intro phdr
  induction phdr with
  | nil =>
      intro m f _ _ _ _
      refine ⟨rfl, .refl _ _ _ _, ?_, ?_, fun _ _ _ => rfl⟩
      · intro ph hph
        cases hph
      · intro ph hph
        cases hph
  | cons ph phdr ih =>
      intro m f ht hw hu hreads
      have hreads' : ReadsFile kernel file phdr :=
        fun a ha => hreads a (List.mem_cons_of_mem ph ha)
      rw [loadSegment]
      split
      · -- The header is skipped.
        rename_i hskip
        have hl : ¬ ph.Loaded := fun hl => hskip.elim (fun h => h hl.1) hl.2
        apply (ih m f ht.tail (hw.sub fun a ha => List.mem_cons_of_mem ph ha)
          (hu.sub fun a ha => List.mem_cons_of_mem ph ha) hreads').mono
        exact fun s' h => h.cons_of_not_loaded hl
      · rename_i hload
        rw [not_or, not_not] at hload
        have hl : ph.Loaded := hload
        refine (loadOne_spec ht hw hu hreads List.mem_cons_self hl f).bind ?_
        rintro ⟨m1, f1⟩ h1
        apply (ih m1 f1 ht.tail (h1.pagesWritable ht hw hl) (h1.unaliased hu) hreads').mono
        exact fun s' h2 => h1.cons ht hw hu hl h2

/-- The image, in terms of the translations after the run. -/
theorem LoadedBy.segmentsLoaded (h : LoadedBy file phdr m m') (hw : PagesWritable phdr m)
    (hu : Unaliased phdr m) : SegmentsLoaded file phdr (InEntry phdr m) m m' := by
  refine ⟨?_, ?_, ?_, h.memory⟩
  · intro ph hph hl k hk
    obtain ⟨p, hp, -⟩ := (hu.storable hw hph hl).mapped k hk
    refine ⟨p, ?_, h.image ph hph hl k hk p hp⟩
    rw [h.cr3, h.keeps.translateAddr, hp]
  · rw [h.cr3]
    exact h.rights
  · intro va hva
    rw [h.cr3]
    refine ⟨h.keeps.translateAddr va, fun hc => h.keeps.walkEntries fun k hpath => ?_⟩
    obtain ⟨ph, hph, hl, hmem⟩ := hw.mem_of_pagePath hc hpath
    exact hva ph hph hl hmem

end AllSegments

/-! ### On concrete hierarchies -/

section Concrete

/-- A file whose calls never fail. Its state is the position. -/
def fileOf (file : Nat → BitVec 8) : FileHandle Nat where
  setPosition position _ := .ok position
  read size position := .ok ((List.range size).map fun k => file (position + k), position + size)

theorem readsFile_fileOf (file : Nat → BitVec 8) (phdr : List SegmentPhdr) :
    ReadsFile (fileOf file) file phdr := by
  intro ph _ s s' bytes s'' hseek hread
  cases hseek
  cases hread
  rfl

/-- A file with a different byte at each of its first positions. -/
def countingFile (k : Nat) : BitVec 8 := BitVec.ofNat 8 (k + 3)

/-- A segment for code, with one byte in the file and one that is cleared. -/
def textPhdr : SegmentPhdr where
  pType := PT_LOAD
  pVaddr := 0xFFFFFFFF80100000
  pPaddr := 0x100000
  pMemsz := 2
  pFlags := 5
  pOffset := 0
  pFilesz := 1

/-- A segment for data, in the page behind it. -/
def dataPhdr : SegmentPhdr where
  pType := PT_LOAD
  pVaddr := 0xFFFFFFFF80101000
  pPaddr := 0x101000
  pMemsz := 1
  pFlags := 6
  pOffset := 1
  pFilesz := 1

theorem pages_textPhdr : textPhdr.pages = ⟨0xFFFFFFFF80100, 1⟩ := by decide

theorem pages_dataPhdr : dataPhdr.pages = ⟨0xFFFFFFFF80101, 1⟩ := by decide

theorem segmentTable_text : SegmentTable [textPhdr] where
  aligned := by decide
  disjoint := List.pairwise_singleton _ _
  sizes := by decide

theorem segmentTable_text_data : SegmentTable [textPhdr, dataPhdr] where
  aligned := by decide
  disjoint := by
    refine List.pairwise_cons.mpr ⟨?_, List.pairwise_singleton _ _⟩
    intro b hb _ _ g hg
    rw [List.mem_singleton.mp hb, pages_dataPhdr, Extent.mem_mk]
    rw [pages_textPhdr, Extent.mem_mk] at hg
    omega
  sizes := by decide

/-- The tables of `referenceLoader`, with some entries stored. -/
def entriesLoader (reference : BitVec 64) (entries : List (Nat × BitVec 64)) : Loader Nat :=
  entries.foldr (fun e m => m.setValue e.1 e.2) (referenceLoader reference)

/-- The pages of segments, checked one by one. -/
theorem pagesWritable_of_all
    (h : (phdr.all fun ph => (List.range ph.pages.len).all fun i =>
      (pageEntry m.mem m.cr3 ((ph.pages.start + i) * PAGE_SIZE)).isSome &&
        writable m.mem m.cr3 ((ph.pages.start + i) * PAGE_SIZE)) = true) :
    PagesWritable phdr m := by
  intro ph hph _ g hg
  obtain ⟨i, rfl⟩ := Nat.exists_eq_add_of_le hg.1
  have hi : i < ph.pages.len := by
    have := hg.2
    omega
  have hpage := List.all_eq_true.mp (List.all_eq_true.mp h ph hph) i (List.mem_range.mpr hi)
  rw [Bool.and_eq_true] at hpage
  exact hpage

/-- Entries of the table of level 1 make pages and no tables. -/
theorem hierarchy_entriesLoader : ∀ entries : List (Nat × BitVec 64),
    (∀ e ∈ entries, present e.2 = true ∧ ∃ i < 512, e.1 = 0x4000 + 8 * i) →
      let m := entriesLoader 0x4003#64 entries
      m.cr3 = 0x1000 ∧ Hierarchy (fun next g => g < next) m ∧
        ∀ v, tableOf m.mem 4 0x1000 v = tableOf (referenceLoader 0x4003#64).mem 4 0x1000 v := by
  intro entries
  induction entries with
  | nil => exact fun _ => ⟨rfl, hierarchy_referenceLoader, fun _ => rfl⟩
  | cons e entries ih =>
      intro he
      obtain ⟨hcr3, h, htables⟩ := ih fun e' he' => he e' (List.mem_cons_of_mem e he')
      obtain ⟨hp, i, hi, haddr⟩ := he e List.mem_cons_self
      generalize hm : entriesLoader 0x4003#64 entries = m at hcr3 h htables
      have hcons : entriesLoader 0x4003#64 (e :: entries)
          = { m with mem := store64 m.mem (0x4000 + 8 * i) e.2 } := by
        rw [← haddr, ← hm]
        rfl
      have hlast : tableOf m.mem 4 m.cr3 (pathTo 4 0xFFFFFFFF80000000 3) = some 0x4000 := by
        rw [hcr3, htables]
        decide
      have hadds : AddsPage m.mem (store64 m.mem (0x4000 + 8 * i) e.2) 4 m.cr3
          (pathTo 4 0xFFFFFFFF80000000 3) 0x4000 i := by
        refine ⟨h.tree.unshared.sameBut_store64 h.root hlast hi e.2, hlast, rfl, ?_⟩
        rw [entryAt, load64_store64]
        exact hp
      rw [hcons]
      refine ⟨hcr3, h.addPage hadds, fun v => ?_⟩
      have hsame := tableOf_addPage hadds v
      rw [hcr3] at hsame
      rw [hsame, htables]

/-- A loader with a page for code and a page for data, in two frames. -/
def twoPageLoader : Loader Nat :=
  entriesLoader 0x4003#64 [(0x4800, 0x100003#64), (0x4808, 0x101003#64)]

theorem unaliased_twoPageLoader : Unaliased [textPhdr, dataPhdr] twoPageLoader := by
  obtain ⟨hcr3, h, htables⟩ := hierarchy_entriesLoader
    [(0x4800, 0x100003#64), (0x4808, 0x101003#64)] (by
      intro e he
      rcases List.mem_cons.mp he with rfl | he
      · exact ⟨by decide, 256, by decide, by decide⟩
      · rw [List.mem_singleton.mp he]
        exact ⟨by decide, 257, by decide, by decide⟩)
  -- The two pages and their frames.
  have hframe : ∀ ph ∈ [textPhdr, dataPhdr], ∀ g ∈ ph.pages,
      translateAddr twoPageLoader.mem twoPageLoader.cr3 (g * PAGE_SIZE)
        = some (0x100000 + (g - 0xFFFFFFFF80100) * 4096) ∧
      (g = 0xFFFFFFFF80100 ∨ g = 0xFFFFFFFF80101) := by
    intro ph hph g hg
    rcases List.mem_cons.mp hph with rfl | hph
    · rw [pages_textPhdr, Extent.mem_mk] at hg
      have hpage : g = 0xFFFFFFFF80100 := by omega
      rw [hpage]
      exact ⟨by decide, .inl rfl⟩
    · rw [List.mem_singleton.mp hph, pages_dataPhdr, Extent.mem_mk] at hg
      have hpage : g = 0xFFFFFFFF80101 := by omega
      rw [hpage]
      exact ⟨by decide, .inr rfl⟩
  refine ⟨⟨h.root, h.tree.unshared, h.clear⟩, ?_, ?_⟩
  · intro a ha _ b hb _ g hg g' hg' heq
    obtain ⟨htrans, hcases⟩ := hframe a ha g hg
    obtain ⟨htrans', hcases'⟩ := hframe b hb g' hg'
    rw [htrans, htrans', Option.some.injEq] at heq
    omega
  · intro ph hph _ g hg v t ht heq
    obtain ⟨htrans, -⟩ := hframe ph hph g hg
    rw [htrans, Option.some.injEq] at heq
    -- The tables are the four at 0x1000 to 0x4000.
    have ht' : tableOf (referenceLoader 0x4003#64).mem 4 0x1000 v = some t :=
      (htables v).symm.trans ht
    obtain ⟨k, hk, -, rfl⟩ := tableOf_referenceLoader refersToLast_clear ht'
    omega

/-- A loader whose segments are mapped and writable, but whose run does not leave their image. -/
structure Refutes (Spared : Nat → Prop) (phdr : List SegmentPhdr) (m : Loader Nat) : Prop where
  table : SegmentTable phdr
  pages : PagesWritable phdr m
  reads : ReadsFile (fileOf countingFile) countingFile phdr
  fails : ¬ NoFault (loadSegment (fileOf countingFile) phdr (m, 0)) fun s' =>
    SegmentsLoaded countingFile phdr Spared m s'.1

/-- A result is observed on a run. -/
theorem NoFault.observe {α β : Type} {x : Loading α} {P : α → Prop} {g : α → β} {b : β}
    (hx : NoFault x P) (hg : x.toOption.map g = some b) : ∃ a, P a ∧ g a = b := by
  cases x with
  | error e => cases hg
  | ok a => exact ⟨a, hx, Option.some.inj hg⟩

/-- A loader with a page for code. -/
def onePageLoader : Loader Nat := entriesLoader 0x4003#64 [(0x4800, 0x100003#64)]

/-- The entry of level 1 of the page changes, and it is not in the page. -/
theorem refutes_entry : Refutes (fun _ => False) [textPhdr] onePageLoader := by
  have hpages : PagesWritable [textPhdr] onePageLoader := pagesWritable_of_all (by decide)
  refine ⟨segmentTable_text, hpages, readsFile_fileOf _ _, ?_⟩
  intro h
  obtain ⟨s', hloaded, hbyte⟩ := h.observe (g := fun s' => s'.1.mem 0x4800) (b := 1#8)
    (by decide)
  -- The page is in the frame at 0x100000.
  have hsame := hloaded.memory 0x4800 (by
    intro ph hph hl va hva heq
    obtain ⟨f, -, hbase, htrans⟩ := hpages.frame hph hl hva
    rw [List.mem_singleton.mp hph, pages_textPhdr, Extent.mem_mk] at hva
    have hpage : va / PAGE_SIZE = 0xFFFFFFFF80100 := by omega
    have hframe : translateAddr onePageLoader.mem onePageLoader.cr3 (0xFFFFFFFF80100 * PAGE_SIZE)
        = some 0x100000 := by decide
    rw [hpage, hframe] at hbase
    cases hbase
    rw [htrans] at heq
    have := Option.some.inj heq
    omega) id
  have hbefore : onePageLoader.mem 0x4800 = 3#8 := by decide
  rw [hbefore] at hsame
  rw [hsame] at hbyte
  cases hbyte

/-- A loader with a page for code and a page for data, both in one frame. -/
def oneFrameLoader : Loader Nat :=
  entriesLoader 0x4003#64 [(0x4800, 0x100003#64), (0x4808, 0x100003#64)]

/-- Two segments on one frame: the second one overwrites the first. -/
theorem refutes_sharedFrame :
    Refutes (InEntry [textPhdr, dataPhdr] oneFrameLoader) [textPhdr, dataPhdr] oneFrameLoader := by
  refine ⟨segmentTable_text_data, pagesWritable_of_all (by decide), readsFile_fileOf _ _,
    ?_⟩
  intro h
  obtain ⟨s', hloaded, hbyte⟩ := h.observe
    (g := fun s' => (translateAddr s'.1.mem s'.1.cr3 0xFFFFFFFF80100000).map s'.1.mem)
    (b := some 4#8) (by decide)
  obtain ⟨p, hp, himage⟩ := hloaded.image textPhdr List.mem_cons_self (by decide) 0 (by decide)
  have haddr : textPhdr.pVaddr.toNat + 0 = 0xFFFFFFFF80100000 := by decide
  rw [haddr] at hp
  simp only [hp, Option.map_some, himage, Option.some.injEq] at hbyte
  revert hbyte
  decide

/-- A loader with a page for code, whose table of level 1 is referred to twice. -/
def sharedTableLoader : Loader Nat :=
  entriesLoader 0x4003#64 [(0x4800, 0x100003#64), (0x3008, 0x4003#64)]

/-- A table that is referred to twice: the rights of another page change as well. -/
theorem refutes_sharedTable :
    Refutes (InEntry [textPhdr] sharedTableLoader) [textPhdr] sharedTableLoader := by
  refine ⟨segmentTable_text, pagesWritable_of_all (by decide), readsFile_fileOf _ _, ?_⟩
  intro h
  obtain ⟨s', hloaded, hentries⟩ := h.observe
    (g := fun s' => walkEntries s'.1.mem 4 s'.1.cr3 0xFFFFFFFF80300000)
    (b := [0x2003#64, 0x3003#64, 0x4003#64, 0x100001#64]) (by decide)
  have hsame := (hloaded.translations 0xFFFFFFFF80300000 (by decide)).2 (by decide)
  simp only [hentries] at hsame
  revert hsame
  decide

/-- A loader with a page for code, in the frame of the table of level 1. -/
def tableFrameLoader : Loader Nat :=
  entriesLoader 0x4003#64 [(0x4800, 0x4003#64)]

/-- The frame of a segment holds a table: its bytes are entries, and another page is mapped. -/
theorem refutes_tableFrame :
    Refutes (InEntry [textPhdr] tableFrameLoader) [textPhdr] tableFrameLoader := by
  refine ⟨segmentTable_text, pagesWritable_of_all (by decide), readsFile_fileOf _ _, ?_⟩
  intro h
  obtain ⟨s', hloaded, htrans⟩ := h.observe
    (g := fun s' => translateAddr s'.1.mem s'.1.cr3 0xFFFFFFFF80000000) (b := some 0)
    (by decide)
  have hsame := (hloaded.translations 0xFFFFFFFF80000000 (by decide)).1
  simp only [htrans] at hsame
  revert hsame
  decide

/-- A loader with a page for code and bit 52 set in a reference on the way to it. -/
def ignoredBitLoader : Loader Nat :=
  entriesLoader 0x10000000004003#64 [(0x4800, 0x100003#64)]

/-- Bit 52 of a reference is set, which the hardware ignores: the loader changes the rights in
another place, and the code stays writable. -/
theorem refutes_ignoredBit :
    Refutes (InEntry [textPhdr] ignoredBitLoader) [textPhdr] ignoredBitLoader := by
  refine ⟨segmentTable_text, pagesWritable_of_all (by decide), readsFile_fileOf _ _, ?_⟩
  intro h
  obtain ⟨s', hloaded, hrights⟩ := h.observe
    (g := fun s' => pageRights s'.1.mem s'.1.cr3 (0xFFFFFFFF80100 * PAGE_SIZE))
    (b := some (true, false)) (by decide)
  have hexpected := hloaded.rights textPhdr (List.mem_singleton_self _) (by decide) 0xFFFFFFFF80100
    (by decide)
  simp only [hrights] at hexpected
  revert hexpected
  decide

end Concrete

end YmirC.Surtrc
