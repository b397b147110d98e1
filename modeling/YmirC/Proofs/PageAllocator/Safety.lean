import Mathlib.Tactic.Ring
import YmirC.Lib.Runs
import YmirC.Proofs.PageAllocator.Init

/-!
# `YmirC.Proofs.PageAllocator.Safety`: the page allocator over whole runs

`Owns pa₀ pa L` links the bitmap to the live blocks: a frame is used exactly when it was used
right after the initialization (`pa₀`) or belongs to a live block, and the live blocks are
disjoint ranges of frames that were unused then. `paOps_lawful` proves that the three
operations keep it, which is the contract of `PageAllocatorIf`, and `pageAllocator_safe`
carries it over every run.
-/

set_option autoImplicit false

namespace YmirC

open Runs (Reachable)

namespace PageAllocator

/-- The bitmap and the table of regions agree on the frames that can be allocated: none of them
is in a region. -/
structure Consistent (pa : PageAllocator) : Prop where
  frameEnd_le : pa.frameEnd ≤ FRAME_COUNT
  regions : ∀ r ∈ pa.reservedRegions, 0 < r.numFrames ∧ r.frame + r.numFrames ≤ FRAME_COUNT ∧
    ∀ f ∈ r.frames, 1 ≤ f → f < pa.frameEnd → pa.frameStatusAt f = .used

/-- The blocks `L` are live in `pa`, which was `pa₀` right after its initialization. -/
structure Owns (pa₀ pa : PageAllocator) (L : List Extent) : Prop where
  frameEnd : pa.frameEnd = pa₀.frameEnd
  regions : pa.reservedRegions = pa₀.reservedRegions
  used_iff : ∀ f, pa.frameStatusAt f = .used ↔
    pa₀.frameStatusAt f = .used ∨ ∃ b ∈ L, f ∈ b
  blocks : ∀ b ∈ L, 0 < b.len ∧ 1 ≤ b.start ∧ b.start + b.len ≤ pa₀.frameEnd ∧
    ∀ f ∈ b, pa₀.frameStatusAt f = .unused
  disjoint : L.Pairwise Extent.Disjoint

variable {pa₀ pa : PageAllocator} {L : List Extent}

theorem owns_init (pa₀ : PageAllocator) : Owns pa₀ pa₀ [] :=
  ⟨rfl, rfl, fun f => by simp, fun b hb => absurd hb List.not_mem_nil, List.Pairwise.nil⟩

theorem Owns.perm {L' : List Extent} (h : Owns pa₀ pa L) (hp : L.Perm L') : Owns pa₀ pa L' := by
  refine ⟨h.frameEnd, h.regions, fun f => ?_, fun b hb => h.blocks b (hp.mem_iff.mpr hb), ?_⟩
  · rw [h.used_iff f]
    simp only [hp.mem_iff]
  · exact (hp.pairwise_iff (fun h => h.symm)).mp h.disjoint

theorem Owns.unused_iff (h : Owns pa₀ pa L) (f : Nat) :
    pa.frameStatusAt f = .unused ↔ pa₀.frameStatusAt f = .unused ∧ ∀ b ∈ L, f ∉ b := by
  rw [← frameStatusAt_ne_used, ← frameStatusAt_ne_used, ne_eq, h.used_iff f, not_or]
  simp only [not_exists, not_and, ne_eq]

/-- Marking a range that fits adds it to the live blocks. -/
theorem Owns.markAllocated (h : Owns pa₀ pa L) (hend : pa₀.frameEnd ≤ FRAME_COUNT) {f k : Nat}
    (hk : 0 < k) (hf : 1 ≤ f) (hfits : pa.Fits f k) :
    (∀ b ∈ L, b.Disjoint ⟨f, k⟩) ∧ Owns pa₀ (pa.markAllocated f k) (⟨f, k⟩ :: L) := by
  have hcount : FRAME_COUNT ≤ 2 ^ 64 := by decide
  have hle : f + k ≤ pa₀.frameEnd := h.frameEnd ▸ hfits.end_le hk
  have hdisj : ∀ b ∈ L, b.Disjoint ⟨f, k⟩ := fun b hb g hgb hg =>
    ((h.unused_iff g).mp (hfits.unused hg)).2 b hb hgb
  refine ⟨hdisj, ?_⟩
  refine ⟨(mark_frameEnd pa .used f k).trans h.frameEnd,
    (mark_reservedRegions pa .used f k).trans h.regions, fun g => ?_, ?_, ?_⟩
  · show (mark .used pa f k).frameStatusAt g = .used ↔ _
    rw [frameStatusAt_mark pa .used f k g (by omega)]
    -- The frames of the block become used, and the others keep their status.
    by_cases hg : g ∈ Extent.mk f k
    · rw [if_pos hg]
      exact ⟨fun _ => .inr ⟨_, List.mem_cons_self, hg⟩, fun _ => rfl⟩
    · rw [if_neg hg, h.used_iff g]
      constructor
      · rintro (hu | ⟨b, hb, hgb⟩)
        · exact .inl hu
        · exact .inr ⟨b, List.mem_cons_of_mem _ hb, hgb⟩
      · rintro (hu | ⟨b, hb, hgb⟩)
        · exact .inl hu
        · rcases List.mem_cons.mp hb with rfl | hb
          · exact absurd hgb hg
          · exact .inr ⟨b, hb, hgb⟩
  · intro b hb
    -- The frames of the new block were unused, so they were unused at first.
    rcases List.mem_cons.mp hb with rfl | hb
    · exact ⟨hk, hf, hle, fun g hg => ((h.unused_iff g).mp (hfits.unused hg)).1⟩
    · exact h.blocks b hb
  · exact List.pairwise_cons.mpr ⟨fun b hb => (hdisj b hb).symm, h.disjoint⟩

/-- Unmarking a live block removes it from the live blocks. -/
theorem Owns.markNotUsed (hend : pa₀.frameEnd ≤ FRAME_COUNT) {f k : Nat}
    (h : Owns pa₀ pa (⟨f, k⟩ :: L)) : Owns pa₀ (pa.markNotUsed f k) L := by
  have hcount : FRAME_COUNT ≤ 2 ^ 64 := by decide
  obtain ⟨-, -, hle, hunused⟩ := h.blocks _ List.mem_cons_self
  simp only at hle
  have hdisj := (List.pairwise_cons.mp h.disjoint).1
  refine ⟨(mark_frameEnd pa .unused f k).trans h.frameEnd,
    (mark_reservedRegions pa .unused f k).trans h.regions, fun g => ?_,
    fun b hb => h.blocks b (List.mem_cons_of_mem _ hb), h.disjoint.of_cons⟩
  show (mark .unused pa f k).frameStatusAt g = .used ↔ _
  rw [frameStatusAt_mark pa .unused f k g (by omega)]
  by_cases hg : g ∈ Extent.mk f k
  · -- The block was unused at first and no other live block holds its frames.
    rw [if_pos hg]
    constructor
    · intro hc
      cases hc
    · rintro (hu | ⟨b, hb, hgb⟩)
      · rw [hunused g hg] at hu
        cases hu
      · exact absurd hgb (hdisj b hb g hg)
  · rw [if_neg hg, h.used_iff g]
    constructor
    · rintro (hu | ⟨b, hb, hgb⟩)
      · exact .inl hu
      · rcases List.mem_cons.mp hb with rfl | hb
        · exact absurd hgb hg
        · exact .inr ⟨b, hb, hgb⟩
    · rintro (hu | ⟨b, hb, hgb⟩)
      · exact .inl hu
      · exact .inr ⟨b, List.mem_cons_of_mem _ hb, hgb⟩

/-- A range that shares no frame with a recorded region passes the check of `free`. -/
theorem overlapsReserved_eq_false {f k : Nat} (hk : 0 < k) (hle : f + k ≤ FRAME_COUNT)
    (hregions : ∀ r ∈ pa.reservedRegions, 0 < r.numFrames ∧ r.frame + r.numFrames ≤ FRAME_COUNT ∧
      ∀ g ∈ r.frames, g ∉ Extent.mk f k) : pa.overlapsReserved f k = false := by
  have hcount : FRAME_COUNT < 2 ^ 64 := by decide
  unfold PageAllocator.overlapsReserved
  rw [List.any_eq_false]
  intro r hr hover
  obtain ⟨hpos, hrend, hdisj⟩ := hregions r hr
  rw [u64_of_lt (by omega), u64_of_lt (by omega), Bool.and_eq_true, decide_eq_true_eq,
    decide_eq_true_eq] at hover
  obtain ⟨g, hg, hgr⟩ := Extent.exists_mem_of_overlap (I := ⟨f, k⟩) (J := r.frames) hk hpos
    hover.1 hover.2
  exact hdisj g hgr hg

/-- A live block meets no region recorded as reserved. -/
theorem Owns.overlapsReserved (hinit : Consistent pa₀) {f k : Nat}
    (h : Owns pa₀ pa (⟨f, k⟩ :: L)) : pa.overlapsReserved f k = false := by
  obtain ⟨hk, hstart, hle, hunused⟩ := h.blocks _ List.mem_cons_self
  simp only at hk hstart hle
  have hend := hinit.frameEnd_le
  refine overlapsReserved_eq_false hk (by omega) ?_
  intro r hr
  rw [h.regions] at hr
  obtain ⟨hpos, hrend, hused⟩ := hinit.regions r hr
  refine ⟨hpos, hrend, ?_⟩
  -- A frame in both would have been used and unused at first.
  intro g hgr hg
  have hu := hunused g hg
  rw [Extent.mem_mk] at hg
  rw [hused g hgr (by omega) (by omega)] at hu
  cases hu

end PageAllocator

theorem InitOk.consistent {map : List EfiMemoryDescriptor} {pa : PageAllocator}
    (h : InitOk map pa) : pa.Consistent := by
  refine ⟨h.frameEnd_le, ?_⟩
  intro r hr
  obtain ⟨hpos, hend, hused⟩ := h.regions r hr
  exact ⟨hpos, hend, fun f hf _ _ => hused f hf⟩

/-- The address of a frame of the bitmap is in the direct map and is not rounded. -/
theorem frame2phys_of_lt {f : Nat} (hf : f < FRAME_COUNT) :
    frame2phys f = f * PAGE_SIZE ∧ f * PAGE_SIZE < DIRECT_MAP_SIZE := by
  constructor
  · apply u64_of_lt
    simp only [FRAME_COUNT, MAX_PHYSICAL_SIZE, PAGE_SIZE] at *
    omega
  · simp only [FRAME_COUNT, MAX_PHYSICAL_SIZE, DIRECT_MAP_SIZE, PAGE_SIZE] at *
    omega

open PageAllocator in
/-- The answer of a search that found nothing, or frames that fit. -/
theorem answer_take {pa₀ pa : PageAllocator} {L : List Extent} (reconstructed : Bool)
    (hinit : Consistent pa₀) (h : Owns pa₀ pa L)
    {k : Nat} (hk : 1 ≤ k) {found : Option Nat}
    (hfound : ∀ f, found = some f → 1 ≤ f ∧ pa.Fits f k) :
    PageAllocatorOps.Answer reconstructed (Owns pa₀) L k (pa.take reconstructed k found).1
      (pa.take reconstructed k found).2 := by
  cases found with
  | none => exact .inl ⟨rfl, h⟩
  | some f =>
      obtain ⟨hf, hfits⟩ := hfound f rfl
      obtain ⟨hdisj, howns⟩ := h.markAllocated hinit.frameEnd_le hk hf hfits
      have hle : f + k ≤ pa₀.frameEnd := (howns.blocks _ List.mem_cons_self).2.2.1
      have hend := hinit.frameEnd_le
      have hcount : FRAME_COUNT ≤ DIRECT_MAP_FRAMES := by decide
      obtain ⟨hphys, hlt⟩ := frame2phys_of_lt (show f < FRAME_COUNT by omega)
      -- The answer is not `NULL` because frame 0 is never found.
      simp only [PageAllocator.take, hphys]
      refine .inr ⟨phys2virt_ne_zero reconstructed hlt ?_, f, hf, by omega, rfl, hdisj, howns⟩
      simp only [PAGE_SIZE]
      omega

open PageAllocator in
/-- **The bitmap allocator meets the contract.** -/
theorem paOps_lawful {pa₀ : PageAllocator} (reconstructed : Bool) (hinit : Consistent pa₀) :
    (paOps reconstructed).Lawful reconstructed (Owns pa₀) where
  alloc := by
    intro pa L n h hn hmax
    obtain ⟨found, hrun, hfound⟩ := pa.alloc_spec reconstructed n hmax
      (h.frameEnd ▸ hinit.frameEnd_le)
    refine ⟨_, _, hrun, answer_take reconstructed hinit h ?_ hfound⟩
    simp only [framesFor, PAGE_SIZE]
    omega
  allocAlignedPages := by
    intro pa L k a h hk hpos hsize hal
    have hend : pa.frameEnd ≤ FRAME_COUNT := h.frameEnd ▸ hinit.frameEnd_le
    obtain ⟨found, hrun, hfound⟩ :=
      pa.allocAlignedPages_spec reconstructed k a hpos hal hsize hend
    refine ⟨_, _, hrun, answer_take reconstructed hinit h hk
      (fun f hf => ⟨(hfound f hf).1, (hfound f hf).2.2⟩), fun hne => ?_⟩
    cases found with
    | none => exact absurd rfl hne
    | some f =>
        obtain ⟨-, hmod, hfits⟩ := hfound f rfl
        -- The frame is a multiple of the alignment in frames, so its address is one of the
        -- alignment.
        have hlt : f < FRAME_COUNT := by
          have := (hfits 0 (by omega)).1
          omega
        obtain ⟨hphys, hdirect⟩ := frame2phys_of_lt hlt
        show virt2phys reconstructed (phys2virt reconstructed (frame2phys f)) % a = 0
        rw [hphys, virt2phys_phys2virt reconstructed hdirect]
        exact frame_mul_mod hal hmod
  free := by
    intro pa L f n h hn hmax
    have hend := hinit.frameEnd_le
    have hblock : 0 < framesFor n ∧ 1 ≤ f ∧ f + framesFor n ≤ pa₀.frameEnd ∧ _ :=
      h.blocks _ List.mem_cons_self
    obtain ⟨-, hdirect⟩ := frame2phys_of_lt (show f < FRAME_COUNT by omega)
    -- The pointer leads back to the frame it was made from.
    have hptr := phys2virt_mod_page reconstructed hdirect (Nat.mul_mod_left f PAGE_SIZE)
    have hframe : phys2frame (virt2phys reconstructed
        (phys2virt reconstructed (f * PAGE_SIZE))) = f := by
      rw [virt2phys_phys2virt reconstructed hdirect]
      exact Nat.mul_div_cancel f (by decide)
    refine ⟨_, ?_, Owns.markNotUsed hend h⟩
    simp only [paOps, PageAllocator.free, u64_framesFor hmax, hptr, Nat.sub_zero, hframe,
      h.overlapsReserved hinit, Bool.false_eq_true, if_false]
  perm := fun h hp => h.perm hp

/-! ### Runs -/

/-- The allocator with the live blocks. A block is the bytes that were asked for: its address
and the size in bytes it was obtained with. -/
structure PaSys where
  pa : PageAllocator
  live : List Extent

/-- A call of one of the three operations. -/
inductive PaCall where
  | alloc (n : Nat)
  | allocAlignedPages (numPages alignSize : Nat)
  | free (block : Extent)

/-- The calls in question: a size whose rounding does not wrap, a valid alignment, and the
release of a live block with its size. -/
def PaSys.Permitted (s : PaSys) : PaCall → Prop
  | .alloc n => 1 ≤ n ∧ n ≤ 2 ^ 64 - PAGE_SIZE
  | .allocAlignedPages k a => (1 ≤ k ∧ k < 2 ^ 64) ∧ 0 < a ∧ a < 2 ^ 64 ∧ a % PAGE_SIZE = 0
  | .free b => b ∈ s.live

/-- A result that is not `NULL` becomes a live block of `size` bytes. -/
def PaSys.grant (live : List Extent) (size : Nat) : Nat × PageAllocator → PaSys
  | (ptr, pa) => { pa := pa, live := if ptr = 0 then live else ⟨ptr, size⟩ :: live }

/-- One call, in the translation mode `reconstructed`. `none` when it does not return. -/
def PaSys.step (reconstructed : Bool) (s : PaSys) : PaCall → Option PaSys
  | .alloc n => ((paOps reconstructed).alloc n s.pa).toOption.map (grant s.live n)
  | .allocAlignedPages k a =>
      ((paOps reconstructed).allocAlignedPages k a s.pa).toOption.map
        (grant s.live (k * PAGE_SIZE))
  | .free b =>
      ((paOps reconstructed).free b.start b.len s.pa).toOption.map
        fun pa => { pa := pa, live := s.live.erase b }

open PageAllocatorOps in
/-- The run invariant: the live blocks are held. -/
def PaSys.Inv (reconstructed : Bool) (Live : PageAllocator → List Extent → Prop) (s : PaSys) :
    Prop :=
  Held reconstructed Live s.pa s.live

variable {pa₀ : PageAllocator} {reconstructed : Bool}
  {Live : PageAllocator → List Extent → Prop}

open PageAllocatorOps in
/-- An answer to a request of `size` bytes keeps the invariant. -/
theorem PaSys.inv_grant {s : PaSys} (hs : s.Inv reconstructed Live) {size ptr : Nat}
    {pa : PageAllocator} (hsize : 1 ≤ size) (hmax : size ≤ 2 ^ 64 - PAGE_SIZE)
    (hans : Answer reconstructed Live (s.live.map (blockFrames reconstructed)) (framesFor size)
      ptr pa) :
    (PaSys.grant s.live size (ptr, pa)).Inv reconstructed Live := by
  rcases held_of_answer hs hsize hmax hans with ⟨hnull, hheld⟩ | ⟨hne, -, -, -, hheld⟩
  · simp only [PaSys.grant, hnull, if_true]
    exact hheld
  · simp only [PaSys.grant, hne, if_false]
    exact hheld

open PageAllocatorOps in
/-- Every permitted call returns and keeps the invariant. -/
theorem PaSys.step_spec (hlaw : (paOps reconstructed).Lawful reconstructed Live) {s : PaSys}
    (hs : s.Inv reconstructed Live) (c : PaCall) (hc : s.Permitted c) :
    ∃ s', s.step reconstructed c = some s' ∧ s'.Inv reconstructed Live := by
  cases c with
  | alloc n =>
      obtain ⟨ptr, pa, hrun, hans⟩ := hlaw.alloc hs.live hc.1 hc.2
      refine ⟨_, ?_, PaSys.inv_grant hs hc.1 hc.2 hans⟩
      rw [PaSys.step, hrun]
      rfl
  | allocAlignedPages k a =>
      obtain ⟨⟨hk, -⟩, hpos, hsize, hal⟩ := hc
      obtain ⟨ptr, pa, hrun, hans, -⟩ := hlaw.allocAlignedPages hs.live hk hpos hsize hal
      refine ⟨PaSys.grant s.live (k * PAGE_SIZE) (ptr, pa), by rw [PaSys.step, hrun]; rfl, ?_⟩
      rcases hans with ⟨rfl, hlive⟩ | hblock
      · exact ⟨hlive, hs.blocks⟩
      · -- A block was found, so its size is far below `2 ^ 64`.
        have hle : k ≤ DIRECT_MAP_FRAMES := by
          obtain ⟨-, f, -, hle, -⟩ := hblock
          omega
        refine PaSys.inv_grant hs ?_ ?_ (by rw [framesFor_pages]; exact .inr hblock)
        · simp only [PAGE_SIZE]
          omega
        · simp only [DIRECT_MAP_FRAMES, DIRECT_MAP_SIZE, PAGE_SIZE] at *
          omega
  | free b =>
      obtain ⟨pa, hrun, hheld⟩ := hlaw.supplies.free
        (hlaw.supplies.perm hs (List.perm_cons_erase hc))
      exact ⟨{ pa := pa, live := s.live.erase b }, by rw [PaSys.step, hrun]; rfl, hheld⟩

/-- `page_allocator_init` just left `pa₀`, and no block is live. -/
def PaSys.Start (pa₀ : PageAllocator) (s : PaSys) : Prop := s = { pa := pa₀, live := [] }

/-- The states the allocator reaches after `page_allocator_init` left `pa₀`. -/
def PaSys.Run (reconstructed : Bool) (pa₀ : PageAllocator) (s : PaSys) : Prop :=
  Reachable (PaSys.Start pa₀) (PaSys.step reconstructed) PaSys.Permitted s

theorem PaSys.inv_of_run (hlaw : (paOps reconstructed).Lawful reconstructed Live)
    (hstart : Live pa₀ []) {s : PaSys} (hs : PaSys.Run reconstructed pa₀ s) :
    s.Inv reconstructed Live := by
  refine hs.invariant (P := PaSys.Inv reconstructed Live) ?_ ?_
  · rintro s rfl
    exact ⟨hstart, fun b hb => absurd hb List.not_mem_nil⟩
  · intro s c s' hinv hc hstep
    obtain ⟨s'', hrun, hinv'⟩ := PaSys.step_spec hlaw hinv c hc
    rw [hstep] at hrun
    cases hrun
    exact hinv'

open PageAllocatorOps (blockFrames) in
/-- **Page allocator safety.** In every state of every run after `page_allocator_init` on a
sorted map: the live blocks are pairwise disjoint, lie in `[1, frame_end)` and inside usable
descriptors only; every permitted call returns, `free` among them; and a frame is unused
exactly when it was unused right after the initialization and belongs to no live block, so
with no block live the bitmap is the one the initialization left. -/
theorem pageAllocator_safe (reconstructed : Bool) (map : List EfiMemoryDescriptor)
    (hmap : SortedMap map) {pa₀ : PageAllocator} (hinit : pageAllocatorInit map = .ok pa₀)
    {s : PaSys} (hs : PaSys.Run reconstructed pa₀ s) :
    s.live.Pairwise
      (fun b c => (blockFrames reconstructed b).Disjoint (blockFrames reconstructed c)) ∧
    (∀ b ∈ s.live, 0 < (blockFrames reconstructed b).len ∧ ∀ f ∈ blockFrames reconstructed b,
      1 ≤ f ∧ f < s.pa.frameEnd ∧
        (∃ d ∈ map, isUsableMemory d = true ∧ f ∈ d.frames) ∧
        ∀ d ∈ map, f ∈ d.frames → isUsableMemory d = true) ∧
    (∀ c, s.Permitted c → ∃ s', s.step reconstructed c = some s') ∧
    s.pa.frameEnd = pa₀.frameEnd ∧
    (∀ f, s.pa.frameStatusAt f = .unused ↔ pa₀.frameStatusAt f = .unused ∧
      ∀ b ∈ s.live, f ∉ blockFrames reconstructed b) ∧
    (s.live = [] → s.pa.bitmap = pa₀.bitmap) := by
  have hok := initOk_of_pageAllocatorInit hmap hinit
  have hlaw := paOps_lawful reconstructed hok.consistent
  have hinv := PaSys.inv_of_run hlaw (PageAllocator.owns_init pa₀) hs
  have howns := hinv.live
  have hunused : ∀ f, s.pa.frameStatusAt f = .unused ↔ pa₀.frameStatusAt f = .unused ∧
      ∀ b ∈ s.live, f ∉ blockFrames reconstructed b := by
    intro f
    rw [howns.unused_iff f, List.forall_mem_map]
  refine ⟨List.pairwise_map.mp howns.disjoint, fun b hb => ?_, fun c hc => ?_,
    howns.frameEnd, hunused, fun hlive => ?_⟩
  · obtain ⟨hpos, hstart, hend, hfree⟩ := howns.blocks _ (List.mem_map_of_mem hb)
    refine ⟨hpos, fun f hf => ?_⟩
    -- A frame of a live block was unused after the initialization, hence in a usable descriptor,
    -- and in no other by disjointness.
    have hlt : f < pa₀.frameEnd := by
      have := hf.2
      omega
    obtain ⟨d, hd, husable, hfd⟩ := (hok.unused_iff f hlt).mp (hfree f hf)
    refine ⟨Nat.le_trans hstart hf.1, howns.frameEnd ▸ hlt, ⟨d, hd, husable, hfd⟩, ?_⟩
    intro e he hfe
    rw [hmap.eq_of_mem_frames he hd hfe hfd]
    exact husable
  · obtain ⟨s', hstep, -⟩ := PaSys.step_spec hlaw hinv c hc
    exact ⟨s', hstep⟩
  · apply PageAllocator.bitmap_ext
    intro f
    -- With no live block the status of every frame is that of `pa₀`.
    have hf := hunused f
    rw [hlive] at hf
    cases h1 : s.pa.frameStatusAt f <;> cases h2 : pa₀.frameStatusAt f <;> simp_all

instance (s : PaSys) : ∀ c, Decidable (s.Permitted c)
  | .alloc _ => inferInstanceAs (Decidable (_ ∧ _))
  | .allocAlignedPages _ _ => inferInstanceAs (Decidable ((_ ∧ _) ∧ _ ∧ _ ∧ _))
  | .free b => inferInstanceAs (Decidable (b ∈ s.live))

/-- The memory map of the allocator's own test. -/
def testMap : List EfiMemoryDescriptor :=
  [⟨.conventionalMemory, 0x0, 1⟩, ⟨.conventionalMemory, 0x1000, 1⟩,
   ⟨.conventionalMemory, 0x3000, 1⟩, ⟨.reservedMemoryType, 0x4000, 1⟩,
   ⟨.conventionalMemory, 0x5000, 10⟩]

/-- The allocator after `page_allocator_init` on that map. -/
def testPa : PageAllocator := (pageAllocatorInit testMap).toOption.getD {}

theorem testMap_sorted : SortedMap testMap where
  sorted := by decide
  disjoint := by
    have h : testMap.Pairwise fun d e => d.physicalEnd ≤ e.physicalStart := by decide
    exact h.imp bytes_disjoint_of_le
  wellFormed := by
    have h : ∀ d ∈ testMap, d.physicalStart % PAGE_SIZE = 0 ∧ 0 < d.numberOfPages ∧
        d.physicalEnd < 2 ^ 64 := by decide
    exact fun d hd => ⟨(h d hd).1, (h d hd).2.1, (h d hd).2.2⟩

/-- Two allocations, an aligned one and a release on the test map. -/
theorem pageAllocator_safe_testMap :
    ∃ s, PaSys.Run false testPa s ∧ s.live = [⟨0x8000, 0x2000⟩, ⟨0x5000, 0x1001⟩] ∧
      s.live.Pairwise (fun b c =>
        (PageAllocatorOps.blockFrames false b).Disjoint
          (PageAllocatorOps.blockFrames false c)) := by
  have hinit : pageAllocatorInit testMap = .ok testPa := rfl
  have hstart : PaSys.Start testPa ⟨testPa, []⟩ := rfl
  obtain ⟨s, hs, hlive⟩ := Reachable.exists_of_exec (PaSys.step false) PaSys.Permitted
    (fun s => s.live = [⟨0x8000, 0x2000⟩, ⟨0x5000, 0x1001⟩])
    [.alloc 0x1000, .alloc 0x1001, .allocAlignedPages 2 0x4000, .free ⟨0x1000, 0x1000⟩]
    hstart (by decide)
  exact ⟨s, hs, hlive, (pageAllocator_safe false testMap testMap_sorted hinit hs).1⟩

end YmirC
