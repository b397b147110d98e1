import YmirC.Proofs.PageAllocator.Safety

/-!
# `YmirC.Proofs.PageAllocator.Progress`: when the page allocator finds a block

Both searches go through their candidates in order and skip none that fits. So when a block
fits at a candidate `c`, the search returns one at or before `c` (`search_finds`). The aligned
search gives up one frame too early: it finds a block that ends before `frame_end`, but not one
that ends there.

`Below pa₀ e pa` says that the live blocks of `pa` end at or before frame `e`. Over a memory
without used frames an allocation then finds a block at `e` at the latest, and the live blocks
end at most one block later. This is how a sequence of allocations is shown to succeed.
-/

set_option autoImplicit false

namespace YmirC

namespace PageAllocator

variable {map : List EfiMemoryDescriptor} {pa₀ pa : PageAllocator}

/-- A search whose step never jumps over the fitting candidate `c` returns a candidate at or
before it. -/
theorem search_finds (numFrames : Nat) (next : Nat → Nat → Option Nat) (C : Nat → Prop) {c : Nat}
    (hend : pa.frameEnd < 2 ^ 64) (hk : 1 ≤ numFrames) (hfit : pa.Fits c numFrames)
    (hnext : ∀ s i, C s → s ≤ c → i < numFrames → pa.frameStatusAt (s + i) = .used →
      ∃ s', next s i = some s' ∧ s < s' ∧ s' ≤ c ∧ C s') :
    ∀ gas start, C start → start ≤ c → c < gas + start →
      ∃ f ≤ c, C f ∧ pa.Fits f numFrames ∧
        pa.search numFrames next gas start = .ok (some f) := by
  have hlast := (hfit (numFrames - 1) (by omega)).1
  intro gas
  induction gas with
  | zero =>
      intro start _ hle hlt
      omega
  | succ gas ih =>
      intro start hstart hle hlt
      have hscan := pa.scan_spec start (by omega) hend numFrames 0 (by simp)
      simp only [search]
      cases hres : pa.scan start 0 numFrames with
      | outOfFrames =>
          -- The frames from `start` on end before those of `c`.
          rw [hres, Nat.zero_add] at hscan
          obtain ⟨j, hj, hout⟩ := hscan
          omega
      | allUnused =>
          rw [hres, Nat.zero_add] at hscan
          exact ⟨start, hle, hstart, hscan, rfl⟩
      | usedAt i =>
          rw [hres, Nat.zero_add] at hscan
          obtain ⟨hi, -, hused⟩ := hscan
          -- The step moves on, but not beyond `c`.
          obtain ⟨s', hs', hgt, hle', hC⟩ := hnext start i hstart hle hi hused
          dsimp only
          rw [hs']
          exact ih s' hC hle' (by omega)

/-- A used frame that a scan from `s ≤ c` meets lies before the fitting candidate `c`. -/
theorem Fits.lt_of_used {c k s i : Nat} (hfit : pa.Fits c k) (hs : s ≤ c) (hi : i < k)
    (hused : pa.frameStatusAt (s + i) = .used) : s + i < c := by
  by_contra hge
  have hunused := (hfit (s + i - c) (by omega)).2
  rw [show c + (s + i - c) = s + i by omega, hused] at hunused
  cases hunused

/-- `alloc` finds a block at or before any that fits. -/
theorem alloc_finds (reconstructed : Bool) {n c : Nat} (hn : 1 ≤ n) (hmax : n ≤ 2 ^ 64 - PAGE_SIZE)
    (hend : pa.frameEnd ≤ FRAME_COUNT) (hc : 1 ≤ c) (hfit : pa.Fits c (framesFor n)) :
    ∃ f ≤ c, 1 ≤ f ∧ pa.Fits f (framesFor n) ∧
      pa.alloc reconstructed n = .ok (pa.take reconstructed (framesFor n) (some f)) := by
  have hcount : FRAME_COUNT < 2 ^ 64 := by decide
  have hpos := PageAllocatorOps.framesFor_pos hn
  have hlt := (hfit 0 hpos).1
  obtain ⟨f, hle, hf, hfits, hsearch⟩ := search_finds (framesFor n) allocNext (fun f => 1 ≤ f)
    (by omega) hpos hfit (by
      intro s i hs hsc hi hused
      -- A used frame lies before `c`, so the frame behind it is at most `c`.
      have hbefore := hfit.lt_of_used hsc hi hused
      refine ⟨s + (i + 1), ?_, by omega, by omega, by omega⟩
      rw [allocNext, u64_of_lt (by omega)])
    (pa.frameEnd + 1) frameBegin (Nat.le_refl 1) hc (by omega)
  refine ⟨f, hle, hf, hfits, ?_⟩
  simp only [alloc, u64_framesFor hmax, hsearch]
  rfl

/-- `alloc_aligned_pages` finds a block at or before any aligned one that fits and ends before
`frame_end`, or is the first aligned one. -/
theorem allocAlignedPages_finds (reconstructed : Bool) {k a c : Nat} (hk : 1 ≤ k) (hpos : 0 < a)
    (hsize : a < 2 ^ 64) (hal : a % PAGE_SIZE = 0) (hend : pa.frameEnd ≤ FRAME_COUNT) (hc : 1 ≤ c)
    (hmod : c % (a / PAGE_SIZE) = 0) (hfit : pa.Fits c k)
    (hroom : c + k < pa.frameEnd ∨ c = a / PAGE_SIZE) :
    ∃ f ≤ c, 1 ≤ f ∧ f % (a / PAGE_SIZE) = 0 ∧ pa.Fits f k ∧
      pa.allocAlignedPages reconstructed k a = .ok (pa.take reconstructed k (some f)) := by
  have hcount : FRAME_COUNT < 2 ^ 63 := by decide
  obtain ⟨hframe, -⟩ := alignFrames_bounds hpos hal hsize
  rw [pa.allocAlignedPages_eq reconstructed k hal hsize]
  generalize a / PAGE_SIZE = d at *
  have hdc : d ≤ c := Nat.le_of_dvd hc (Nat.dvd_of_mod_eq_zero hmod)
  obtain ⟨f, hle, hf, hfits, hsearch⟩ := search_finds k (pa.alignedNext k d)
    (fun f => 1 ≤ f ∧ f % d = 0) (by omega) hk hfit (by
      intro s i hs hsc hi hused
      have hbefore := hfit.lt_of_used hsc hi hused
      -- Both are multiples of `d`, so the next one is not behind `c`.
      have hnext : s + d ≤ c := by
        have hdvd := Nat.dvd_sub (Nat.dvd_of_mod_eq_zero hmod) (Nat.dvd_of_mod_eq_zero hs.2)
        have := Nat.le_of_dvd (by omega) hdvd
        omega
      -- So the candidate is not the first one, and the step does not give up before it.
      have hlater : c + k < pa.frameEnd := hroom.resolve_right (by omega)
      refine ⟨s + d, ?_, by omega, hnext, by omega, ?_⟩
      · have hstart : u64 (s + d) = s + d := u64_of_lt (by omega)
        have hstop : u64 (s + d + k) = s + d + k := u64_of_lt (by omega)
        simp only [alignedNext, hstart, hstop]
        exact if_neg (by omega)
      · rw [Nat.add_mod_right]
        exact hs.2)
    (pa.frameEnd + 1) d ⟨hframe, Nat.mod_self d⟩ hdc (by omega)
  refine ⟨f, hle, hf.1, hf.2, hfits, ?_⟩
  rw [hsearch]
  rfl

/-! ### Memory without used frames -/

/-- No frame below `frame_end` is used. -/
def Clear (pa : PageAllocator) : Prop := ∀ f < pa.frameEnd, pa.frameStatusAt f = .unused

/-- The live blocks end at or before frame `e`. -/
def Below (pa₀ : PageAllocator) (e : Nat) (pa : PageAllocator) : Prop :=
  ∃ L, Owns pa₀ pa L ∧ ∀ b ∈ L, b.start + b.len ≤ e

theorem Below.fits (hclear : pa₀.Clear) {e c k : Nat} (h : Below pa₀ e pa) (hec : e ≤ c)
    (hroom : c + k ≤ pa₀.frameEnd) : pa.Fits c k := by
  obtain ⟨L, howns, hbelow⟩ := h
  intro j hj
  rw [howns.frameEnd]
  refine ⟨by omega, (howns.unused_iff _).mpr ⟨hclear _ (by omega), fun b hb hmem => ?_⟩⟩
  have hend := hbelow b hb
  have hlt := hmem.2
  omega

/-- A block taken at or before `c` leaves the live blocks below its end. -/
theorem Below.take (reconstructed : Bool) (hinit : InitOk map pa₀) {e c k f : Nat}
    (h : Below pa₀ e pa) (hec : e ≤ c) (hk : 1 ≤ k) (hf : 1 ≤ f) (hfc : f ≤ c)
    (hfits : pa.Fits f k) :
    (pa.take reconstructed k (some f)).1 ≠ 0 ∧
      virt2phys reconstructed (pa.take reconstructed k (some f)).1 < DIRECT_MAP_SIZE ∧
      Below pa₀ (c + k) (pa.take reconstructed k (some f)).2 := by
  obtain ⟨L, howns, hbelow⟩ := h
  obtain ⟨-, howns'⟩ := howns.markAllocated hinit.frameEnd_le hk hf hfits
  have hlt : f < FRAME_COUNT := by
    have hfirst := (hfits 0 hk).1
    have hend := hinit.frameEnd_le
    rw [howns.frameEnd] at hfirst
    omega
  obtain ⟨hphys, hdirect⟩ := frame2phys_of_lt hlt
  -- The address of the block, which is not `NULL` because frame 0 is never taken.
  have hptr : (pa.take reconstructed k (some f)).1 = phys2virt reconstructed (f * PAGE_SIZE) := by
    rw [← hphys]
    rfl
  rw [hptr, virt2phys_phys2virt reconstructed hdirect]
  refine ⟨phys2virt_ne_zero reconstructed hdirect ?_, hdirect, ⟨f, k⟩ :: L, howns', ?_⟩
  · simp only [PAGE_SIZE]
    omega
  · intro b hb
    rcases List.mem_cons.mp hb with rfl | hb
    · show f + k ≤ c + k
      omega
    · have := hbelow b hb
      omega

/-- `alloc` succeeds when the frames from `e` on suffice. -/
theorem Below.alloc (reconstructed : Bool) (hinit : InitOk map pa₀) (hclear : pa₀.Clear)
    {e n : Nat} (h : Below pa₀ e pa) (he : 1 ≤ e) (hn : 1 ≤ n) (hmax : n ≤ 2 ^ 64 - PAGE_SIZE)
    (hroom : e + framesFor n ≤ pa₀.frameEnd) :
    ∃ ptr pa', (paOps reconstructed).alloc n pa = .ok (ptr, pa') ∧ ptr ≠ 0 ∧
      Below pa₀ (e + framesFor n) pa' := by
  have hend : pa.frameEnd ≤ FRAME_COUNT := by
    obtain ⟨L, howns, -⟩ := h
    exact howns.frameEnd ▸ hinit.frameEnd_le
  obtain ⟨f, hfe, hf, hfits, hrun⟩ := alloc_finds reconstructed hn hmax hend he
    (h.fits hclear (Nat.le_refl e) hroom)
  obtain ⟨hne, -, hbelow⟩ := h.take reconstructed hinit (Nat.le_refl e)
    (PageAllocatorOps.framesFor_pos hn) hf hfe hfits
  exact ⟨_, _, hrun, hne, hbelow⟩

/-- `alloc_aligned_pages` succeeds when the frames from the aligned frame `c` on suffice. -/
theorem Below.allocAlignedPages (reconstructed : Bool) (hinit : InitOk map pa₀)
    (hclear : pa₀.Clear) {e c k a : Nat} (h : Below pa₀ e pa) (hk : 1 ≤ k) (hpos : 0 < a)
    (hsize : a < 2 ^ 64) (hal : a % PAGE_SIZE = 0) (hc : 1 ≤ c) (hec : e ≤ c)
    (hmod : c % (a / PAGE_SIZE) = 0) (hroom : c + k < pa₀.frameEnd) :
    ∃ ptr pa', (paOps reconstructed).allocAlignedPages k a pa = .ok (ptr, pa') ∧ ptr ≠ 0 ∧
      virt2phys reconstructed ptr < DIRECT_MAP_SIZE ∧ Below pa₀ (c + k) pa' := by
  have hframes : pa.frameEnd = pa₀.frameEnd := by
    obtain ⟨L, howns, -⟩ := h
    exact howns.frameEnd
  obtain ⟨f, hfc, hf, -, hfits, hrun⟩ := allocAlignedPages_finds reconstructed hk hpos hsize hal
    (hframes ▸ hinit.frameEnd_le) hc hmod (h.fits hclear hec (Nat.le_of_lt hroom))
    (.inl (hframes ▸ hroom))
  exact ⟨_, _, hrun, h.take reconstructed hinit hec hk hf hfc hfits⟩

/-- Pages without further alignment are found at `e` at the latest. -/
theorem Below.allocPages (reconstructed : Bool) (hinit : InitOk map pa₀) (hclear : pa₀.Clear)
    {e k : Nat} (h : Below pa₀ e pa) (he : 1 ≤ e) (hk : 1 ≤ k) (hroom : e + k < pa₀.frameEnd) :
    ∃ ptr pa', (paOps reconstructed).allocAlignedPages k PAGE_SIZE pa = .ok (ptr, pa') ∧
      ptr ≠ 0 ∧ virt2phys reconstructed ptr < DIRECT_MAP_SIZE ∧ Below pa₀ (e + k) pa' :=
  h.allocAlignedPages reconstructed hinit hclear hk (by decide) (by decide) (by decide) he
    (Nat.le_refl e) (Nat.mod_one e) hroom

end PageAllocator

open PageAllocator in
/-- The single frames the bitmap allocator has to give. -/
theorem paOps_stocked {map : List EfiMemoryDescriptor} {pa₀ : PageAllocator}
    (reconstructed : Bool) (hinit : InitOk map pa₀) (hclear : pa₀.Clear) :
    (paOps reconstructed).Stocked
      (fun pa n => ∃ e, 1 ≤ e ∧ Below pa₀ e pa ∧ e + n < pa₀.frameEnd) where
  take := by
    rintro pa n ⟨e, he, hbelow, hroom⟩
    obtain ⟨ptr, pa', hrun, hne, -, hbelow'⟩ := hbelow.allocPages reconstructed hinit hclear he
      (Nat.le_refl 1) (by omega)
    exact ⟨ptr, pa', hrun, hne, e + 1, by omega, hbelow', by omega⟩
  less := by
    rintro pa n ⟨e, he, hbelow, hroom⟩
    exact ⟨e, he, hbelow, by omega⟩

end YmirC
