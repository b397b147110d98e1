import YmirC.Arch.X86.PageTable
import YmirC.Proofs.Bits
import YmirC.Proofs.PageAllocatorIf

/-!
# `YmirC.Proofs.PageTable`: entries and tables

The entries the code writes, bit by bit, and what the functions that allocate and fill tables
do to a machine.

Two relations carry the proofs about `page.c` and `svm_npt.c`. `Sound` says that the frames in
`tables` are live blocks of the allocator, pairwise different and apart from the other live
blocks. `Grows W m m'` says that `m'` came from `m` by obtaining new table frames and writing
nothing but these and the frames `W`. A frame that is neither keeps its entries.
-/

set_option autoImplicit false

namespace YmirC

open ByteMemory Paging

/-! ### Entries -/

/-- `PHYS_MASK` is the field of bits 12 to 62. -/
theorem getLsbD_PHYS_MASK (i : Nat) :
    PHYS_MASK.getLsbD i = decide (12 ≤ i ∧ i < 12 + 51) := by
  by_cases hi : i < 64
  · have hall : ∀ j < 64, PHYS_MASK.getLsbD j = decide (12 ≤ j ∧ j < 12 + 51) := by decide
    exact hall i hi
  · rw [BitVec.getLsbD_of_ge _ _ (by omega), eq_comm, decide_eq_false_iff_not]
    omega

/-- Every bit of an entry the code writes. -/
theorem getLsbD_initializeEntry (us ps entry : BitVec 64) (phys i : Nat) :
    (initializeEntry us ps entry phys).getLsbD i
      = if 12 ≤ i ∧ i < 63 then (BitVec.ofNat 64 phys).getLsbD i
        else if i = 7 then ps.getLsbD 0
        else if i = 2 then us.getLsbD 0
        else if i = 1 then true
        else if i = 0 then true
        else entry.getLsbD i := by
  simp only [initializeEntry, ENTRY_PRESENT, ENTRY_RW, ENTRY_US, ENTRY_PS, ENTRY_PHYS]
  rw [getLsbD_setMaskedBits getLsbD_PHYS_MASK (by decide) (by decide),
    getLsbD_setMaskedBits_tobit (by decide), getLsbD_setMaskedBits_tobit (by decide),
    getLsbD_setMaskedBits_tobit (by decide), getLsbD_setMaskedBits_tobit (by decide),
    BitVec.getLsbD_ushiftRight]
  by_cases hi : 12 ≤ i ∧ i < 63
  · rw [if_pos hi, if_pos hi, Nat.add_sub_cancel' hi.1]
  · rw [if_neg hi, if_neg hi]
    rfl

/-- An entry the code writes is present. -/
@[simp] theorem present_initializeEntry (us ps entry : BitVec 64) (phys : Nat) :
    present (initializeEntry us ps entry phys) = true := by
  rw [present, getLsbD_initializeEntry]
  rfl

/-- The page-size bit of an entry the code writes. -/
@[simp] theorem large_initializeEntry (us ps entry : BitVec 64) (phys : Nat) :
    large (initializeEntry us ps entry phys) = ps.getLsbD 0 := by
  rw [large, getLsbD_initializeEntry]
  rfl

/-- The address of an entry whose address bits are those of a page. -/
theorem entryAddr_of_bits {e : BitVec 64} {phys : Nat} (hal : phys % PAGE_SIZE = 0)
    (hlt : phys < 2 ^ 52) (h : ∀ i, 12 ≤ i → i < 52 → e.getLsbD i = phys.testBit i) :
    entryAddr e = phys := by
  have hbits : e.extractLsb' 12 40 = BitVec.ofNat 40 (phys / 4096) := by
    apply BitVec.eq_of_getLsbD_eq
    intro i hi
    rw [BitVec.getLsbD_extractLsb', h _ (by omega) (by omega)]
    simp only [BitVec.getLsbD_ofNat, hi, decide_true, Bool.true_and]
    rw [show 4096 = 2 ^ 12 from rfl, Nat.testBit_div_two_pow]
    congr 1
    omega
  have hfit : phys / 4096 < 2 ^ 40 := by omega
  rw [entryAddr, hbits, BitVec.toNat_ofNat, Nat.mod_eq_of_lt hfit]
  simp only [PAGE_SIZE] at hal
  omega

/-- The address of an entry the code writes, for the physical address of a frame. -/
theorem entryAddr_initializeEntry (us ps entry : BitVec 64) {phys : Nat}
    (hal : phys % PAGE_SIZE = 0) (hlt : phys < 2 ^ 52) :
    entryAddr (initializeEntry us ps entry phys) = phys := by
  apply entryAddr_of_bits hal hlt
  intro i hlo hhi
  have h64 : i < 64 := by omega
  rw [getLsbD_initializeEntry, if_pos (by omega), BitVec.getLsbD_ofNat, decide_eq_true h64,
    Bool.true_and]

/-- The reserved address bits 52 to 62 of an entry are clear. -/
def ReservedClear (e : BitVec 64) : Prop := ∀ i, 52 ≤ i → i < 63 → e.getLsbD i = false

/-- With the reserved bits clear, `value & PHYS_MASK` is the address the hardware uses. -/
theorem physOf_eq {e : BitVec 64} (h : ReservedClear e) : physOf e = entryAddr e := by
  apply Nat.eq_of_testBit_eq
  intro i
  rw [physOf, entryAddr, show (4096 : Nat) = 2 ^ 12 from rfl, Nat.testBit_mul_two_pow,
    ← BitVec.getLsbD, ← BitVec.getLsbD, BitVec.getLsbD_and, getLsbD_PHYS_MASK,
    BitVec.getLsbD_extractLsb']
  by_cases h12 : 12 ≤ i
  · rw [Nat.add_sub_cancel' h12]
    by_cases h52 : i < 52
    · have h1 : i < 12 + 51 := by omega
      have h2 : i - 12 < 40 := by omega
      simp [h12, h1, h2]
    · have h2 : ¬ i - 12 < 40 := by omega
      by_cases h63 : i < 63
      · simp [h2, h (i) (by omega) h63]
      · have h1 : ¬ i < 12 + 51 := by omega
        simp [h1, h2]
  · simp [h12]

/-- The address in an entry is that of a frame. -/
theorem entryAddr_frame (e : BitVec 64) : entryAddr e / PAGE_SIZE * PAGE_SIZE = entryAddr e :=
  Nat.div_mul_cancel (Nat.dvd_of_mod_eq_zero (entryAddr_mod e))

/-- The reserved bits of an entry the code writes for a frame are clear. -/
theorem reservedClear_initializeEntry (us ps entry : BitVec 64) {phys : Nat}
    (hlt : phys < 2 ^ 52) : ReservedClear (initializeEntry us ps entry phys) := by
  intro i h52 h63
  have hbig : phys < 2 ^ i := Nat.lt_of_lt_of_le hlt (Nat.pow_le_pow_right (by decide) h52)
  rw [getLsbD_initializeEntry, if_pos (by omega), BitVec.getLsbD_ofNat,
    Nat.testBit_lt_two_pow hbig, Bool.and_false]

/-! ### Frames -/

/-- The entries of a frame whose bytes are the same are the same. -/
theorem entryAt_of_frame {mem mem' : Mem} {f i : Nat} (hi : i < 512)
    (h : ∀ a, a / PAGE_SIZE = f → mem' a = mem a) :
    entryAt mem' (f * PAGE_SIZE) i = entryAt mem (f * PAGE_SIZE) i := by
  apply entryAt_congr _ hi
  intro k hk
  apply h
  simp only [PAGE_SIZE]
  omega

/-- A stored entry, read back at any index of its table. -/
theorem entryAt_store64 (mem : Mem) (table i j : Nat) (v : BitVec 64) :
    entryAt (store64 mem (table + 8 * i) v) table j
      = if j = i then v else entryAt mem table j := by
  by_cases hj : j = i
  · rw [if_pos hj, hj]
    exact load64_store64 mem _ v
  · rw [if_neg hj]
    exact load64_store64_of_disjoint mem _ _ v (by omega)

/-- Storing an entry of a frame writes only that frame. -/
theorem store64_of_frame (mem : Mem) {f i a : Nat} (hi : i < 512) (v : BitVec 64)
    (ha : a / PAGE_SIZE ≠ f) : store64 mem (f * PAGE_SIZE + 8 * i) v a = mem a := by
  apply store64_apply_of_disjoint
  simp only [PAGE_SIZE] at *
  omega

namespace Machine

variable {σ : Type}

theorem entry_eq (m : Machine σ) (table i : Nat) :
    m.entry table i = entryAt m.mem (m.phys table) i := rfl

/-- The physical address behind the pointer to a frame of the direct map. -/
theorem phys_phys2virt (m : Machine σ) {f : Nat} (hf : f < DIRECT_MAP_FRAMES) :
    m.phys (phys2virt m.mappingReconstructed (f * PAGE_SIZE)) = f * PAGE_SIZE :=
  virt2phys_phys2virt _ (PageAllocatorOps.frame_lt_direct hf)

/-- Everything but memory and the writes survives the clearing loop. -/
theorem clearEntries_eq (m : Machine σ) (table : Nat) :
    ∀ n, m.clearEntries table n = { m with
      mem := (m.clearEntries table n).mem
      writes := (m.clearEntries table n).writes } := by
  intro n
  induction n with
  | zero => rfl
  | succ n ih =>
      rw [clearEntries, setEntry, write, ih]

/-- The entries of a cleared table are 0. -/
theorem entryAt_clearEntries (m : Machine σ) (table : Nat) :
    ∀ n, ∀ i < n, entryAt (m.clearEntries table n).mem (m.phys table) i = 0#64 := by
  intro n
  induction n with
  | zero => intro i hi; omega
  | succ n ih =>
      intro i hi
      have hphys : (m.clearEntries table n).phys table = m.phys table := by
        rw [clearEntries_eq]
        rfl
      show entryAt (store64 _ ((m.clearEntries table n).phys table + 8 * n) _) _ i = _
      rw [hphys, entryAt_store64]
      split
      · rfl
      · exact ih i (by omega)

/-- Clearing a table writes only its frame. -/
theorem clearEntries_mem (m : Machine σ) {table f : Nat} (hf : m.phys table = f * PAGE_SIZE)
    {a : Nat} (ha : a / PAGE_SIZE ≠ f) :
    ∀ n, n ≤ 512 → (m.clearEntries table n).mem a = m.mem a := by
  intro n
  induction n with
  | zero => intro _; rfl
  | succ n ih =>
      intro hn
      have hphys : (m.clearEntries table n).phys table = f * PAGE_SIZE := by
        rw [clearEntries_eq]
        exact hf
      show store64 _ ((m.clearEntries table n).phys table + 8 * n) _ a = _
      rw [hphys, store64_of_frame _ (by omega) _ ha]
      exact ih (by omega)

/-! ### What the page table code may change -/

/-- From `m` to `m'` the code obtained table frames and wrote only these and the frames `W`. -/
structure Grows (W : List Nat) (m m' : Machine σ) : Prop where
  tables : ∃ news, m'.tables = news ++ m.tables ∧
    ∀ a, a / PAGE_SIZE ∉ news → a / PAGE_SIZE ∉ W → m'.mem a = m.mem a
  cr3 : m'.cr3 = m.cr3
  msr : m'.msr = m.msr
  mode : m'.mappingReconstructed = m.mappingReconstructed

theorem Grows.refl (W : List Nat) (m : Machine σ) : Grows W m m :=
  ⟨⟨[], rfl, fun _ _ _ => rfl⟩, rfl, rfl, rfl⟩

theorem Grows.subset {W : List Nat} {m m' : Machine σ} (h : Grows W m m') :
    ∀ f ∈ m.tables, f ∈ m'.tables := by
  obtain ⟨news, heq, -⟩ := h.tables
  intro f hf
  rw [heq]
  exact List.mem_append_right _ hf

/-- A step may write a frame obtained by an earlier one: `V` are frames of `W` or such. -/
theorem Grows.trans {W V : List Nat} {m m' m'' : Machine σ} (h : Grows W m m')
    (h' : Grows V m' m'') (hV : ∀ f ∈ V, f ∈ W ∨ (f ∈ m'.tables ∧ f ∉ m.tables)) :
    Grows W m m'' := by
  obtain ⟨news, heq, hmem⟩ := h.tables
  obtain ⟨news', heq', hmem'⟩ := h'.tables
  refine ⟨⟨news' ++ news, by rw [heq', heq, List.append_assoc], fun a ha hW => ?_⟩,
    h'.cr3.trans h.cr3, h'.msr.trans h.msr, h'.mode.trans h.mode⟩
  rw [List.mem_append, not_or] at ha
  have hnV : a / PAGE_SIZE ∉ V := by
    intro hin
    rcases hV _ hin with hw | ⟨hnew, hold⟩
    · exact hW hw
    · rw [heq, List.mem_append] at hnew
      exact hnew.elim ha.2 hold
  rw [hmem' a ha.1 hnV, hmem a ha.2 hW]

/-- A frame that no step obtained and that is not in `W` keeps its entries. -/
theorem Grows.entryAt_of_not_mem {W : List Nat} {m m' : Machine σ} (h : Grows W m m')
    {f i : Nat} (hf : f ∉ m'.tables) (hW : f ∉ W) (hi : i < 512) :
    entryAt m'.mem (f * PAGE_SIZE) i = entryAt m.mem (f * PAGE_SIZE) i := by
  obtain ⟨news, heq, hmem⟩ := h.tables
  apply entryAt_of_frame hi
  rintro a rfl
  apply hmem a _ hW
  intro hin
  exact hf (heq ▸ List.mem_append_left _ hin)

/-- A table the machine had before, outside `W`, keeps its entries. -/
theorem Grows.entryAt_of_mem {W : List Nat} {m m' : Machine σ} (h : Grows W m m')
    (hnodup : m'.tables.Nodup) {f i : Nat} (hf : f ∈ m.tables) (hW : f ∉ W) (hi : i < 512) :
    entryAt m'.mem (f * PAGE_SIZE) i = entryAt m.mem (f * PAGE_SIZE) i := by
  obtain ⟨news, heq, hmem⟩ := h.tables
  rw [heq] at hnodup
  apply entryAt_of_frame hi
  rintro a rfl
  apply hmem a _ hW
  intro hin
  exact (List.nodup_append.mp hnodup).2.2 _ hin _ hf rfl

/-- Writing an entry of a frame. -/
theorem grows_setEntry (m : Machine σ) {table f i : Nat} (hf : m.phys table = f * PAGE_SIZE)
    (hi : i < 512) (v : BitVec 64) : Grows [f] m (m.setEntry table i v) := by
  refine ⟨⟨[], rfl, fun a _ ha => ?_⟩, rfl, rfl, rfl⟩
  rw [List.mem_singleton] at ha
  show store64 m.mem (m.phys table + 8 * i) v a = m.mem a
  rw [hf]
  exact store64_of_frame m.mem hi v ha

/-- The entries of the table just written. -/
theorem entryAt_setEntry (m : Machine σ) {table f : Nat} (hf : m.phys table = f * PAGE_SIZE)
    (i j : Nat) (v : BitVec 64) :
    entryAt (m.setEntry table i v).mem (f * PAGE_SIZE) j
      = if j = i then v else entryAt m.mem (f * PAGE_SIZE) j := by
  show entryAt (store64 m.mem (m.phys table + 8 * i) v) _ j = _
  rw [hf]
  exact entryAt_store64 m.mem _ i j v

end Machine

/-! ### Allocating a table -/

section Allocate
variable {σ : Type} {r : Bool} {ops : PageAllocatorOps σ} {Live : σ → List Extent → Prop}
  {L : List Extent}

/-- The frames in `tables` are live, different, in the direct map and in no block of `L`. -/
structure Sound (r : Bool) (Live : σ → List Extent → Prop) (L : List Extent)
    (m : Machine σ) : Prop where
  mode : m.mappingReconstructed = r
  live : Live m.pa (m.tables.map (fun f => ⟨f, 1⟩) ++ L)
  nodup : m.tables.Nodup
  direct : ∀ f ∈ m.tables, f < DIRECT_MAP_FRAMES
  apart : ∀ f ∈ m.tables, ∀ b ∈ L, f ∉ b

/-- A machine without tables whose blocks `L` are live is sound. -/
theorem sound_of_live {m : Machine σ} (hmode : m.mappingReconstructed = r)
    (htables : m.tables = []) (hlive : Live m.pa L) : Sound r Live L m := by
  refine ⟨hmode, ?_, ?_, ?_, ?_⟩
  · rw [htables]
    exact hlive
  · rw [htables]
    exact List.nodup_nil
  · simp [htables]
  · simp [htables]

/-- Writing memory keeps a machine sound. -/
theorem Sound.withMem {m : Machine σ} (h : Sound r Live L m) (mem : Mem)
    (writes : List Extent) : Sound r Live L { m with mem := mem, writes := writes } :=
  ⟨h.mode, h.live, h.nodup, h.direct, h.apart⟩

theorem Sound.write {m : Machine σ} (h : Sound r Live L m) (ptr n : Nat) (mem : Mem) :
    Sound r Live L (m.write ptr n mem) :=
  h.withMem mem _

theorem Sound.phys_phys2virt {m : Machine σ} (h : Sound r Live L m) {f : Nat}
    (hf : f ∈ m.tables) : m.phys (phys2virt r (f * PAGE_SIZE)) = f * PAGE_SIZE := by
  rw [← h.mode]
  exact m.phys_phys2virt (h.direct f hf)

/-- `allocate_table` returns a pointer to a new frame, all of whose entries are 0. -/
theorem allocateTable_spec (hlaw : ops.Lawful r Live) {m m' : Machine σ} {ptr : Nat}
    (hs : Sound r Live L m) (hrun : allocateTable ops m = .ok (ptr, m')) :
    Sound r Live L m' ∧ m.Grows [] m' ∧ ∃ f, ptr = phys2virt r (f * PAGE_SIZE) ∧
      m'.tables = f :: m.tables ∧ ∀ i < 512, entryAt m'.mem (f * PAGE_SIZE) i = 0#64 := by
  obtain ⟨p, pa, halloc, hans, -⟩ := hlaw.allocAlignedPages hs.live (k := 1) (a := PAGE_SIZE)
    (by decide) (by decide) (by decide) (by decide)
  rw [allocateTable, halloc, Run.bind_ok] at hrun
  rcases hans with ⟨rfl, -⟩ | ⟨hne, f, -, hend, hp, hdisj, hlive⟩
  · -- `allocate_table` panics on `NULL`.
    exact absurd hrun (by simp)
  have hf : f < DIRECT_MAP_FRAMES := by omega
  simp only [if_neg hne] at hrun
  have hphys : m.phys p = f * PAGE_SIZE := by
    rw [hp, ← hs.mode]
    exact m.phys_phys2virt hf
  have hframe : m.phys p / PAGE_SIZE = f := by
    rw [hphys]
    exact Nat.mul_div_cancel f (by decide)
  rw [hframe] at hrun
  obtain ⟨rfl, rfl⟩ := Prod.mk.inj (Except.ok.inj hrun)
  -- A frame of another live block would be shared with the new one.
  have hnew : ∀ b ∈ m.tables.map (fun f => (⟨f, 1⟩ : Extent)) ++ L, f ∉ b := by
    intro b hb hin
    exact hdisj b hb f hin ⟨Nat.le_refl f, by simp⟩
  have hfresh : f ∉ m.tables := by
    intro hin
    exact hnew ⟨f, 1⟩ (List.mem_append_left _ (List.mem_map_of_mem hin)) ⟨Nat.le_refl f, by simp⟩
  -- Clearing the entries changes the memory only.
  have htables : ∀ n, (Machine.clearEntries { m with pa := pa, tables := f :: m.tables } p n).tables
      = f :: m.tables := by
    intro n
    rw [Machine.clearEntries_eq]
  refine ⟨?_, ⟨⟨[f], htables _, fun a ha _ => ?_⟩, ?_, ?_, ?_⟩, f, hp, htables _, fun i hi => ?_⟩
  · rw [Machine.clearEntries_eq]
    apply Sound.withMem
    refine ⟨hs.mode, hlive, List.nodup_cons.mpr ⟨hfresh, hs.nodup⟩, ?_, ?_⟩
    · intro g hg
      rcases List.mem_cons.mp hg with rfl | hg
      · exact hf
      · exact hs.direct g hg
    · intro g hg b hb
      rcases List.mem_cons.mp hg with rfl | hg
      · exact hnew b (List.mem_append_right _ hb)
      · exact hs.apart g hg b hb
  · exact Machine.clearEntries_mem { m with pa := pa, tables := f :: m.tables } hphys
      (by simpa using ha) _ (by decide)
  · rw [Machine.clearEntries_eq]
  · rw [Machine.clearEntries_eq]
  · rw [Machine.clearEntries_eq]
  · rw [← hphys]
    exact Machine.entryAt_clearEntries { m with pa := pa, tables := f :: m.tables } p _ i hi

/-- `allocate_table` stops only when the allocator has no frame left. -/
theorem allocateTable_error (hlaw : ops.Lawful r Live) {m : Machine σ} (hs : Sound r Live L m)
    {e : Halt} (hrun : allocateTable ops m = .error e) :
    e = .panic "Failed to allocate memory for the page table." := by
  obtain ⟨ptr, s', halloc, -, -⟩ := hlaw.allocAlignedPages hs.live (Nat.le_refl 1)
    (show 0 < PAGE_SIZE by decide) (by decide) (by decide)
  simp only [allocateTable, halloc, Run.bind_ok] at hrun
  split at hrun
  · exact (Except.error.inj hrun).symm
  · cases hrun

end Allocate

/-! ### The history of tables -/

section History
variable {σ : Type}

/-- The machine `m` when the tables `T` were obtained before its own ones. -/
def Machine.withOlder (T : List Nat) (m : Machine σ) : Machine σ :=
  { m with tables := m.tables ++ T }

theorem withOlder_clearEntries (T : List Nat) (m : Machine σ) (table : Nat) :
    ∀ n, (m.withOlder T).clearEntries table n = (m.clearEntries table n).withOlder T := by
  intro n
  induction n with
  | zero => rfl
  | succ n ih => rw [Machine.clearEntries, ih, Machine.clearEntries]; rfl

/-- `allocate_table` does not look at the tables obtained before. -/
theorem withOlder_allocateTable (ops : PageAllocatorOps σ) (T : List Nat) (m : Machine σ) :
    allocateTable ops (m.withOlder T)
      = (allocateTable ops m).map fun x => (x.1, x.2.withOlder T) := by
  unfold allocateTable
  show (ops.allocAlignedPages 1 PAGE_SIZE m.pa >>= _) = _
  -- The call reads the allocator only, so both machines get the same answer.
  cases ops.allocAlignedPages 1 PAGE_SIZE m.pa with
  | error e => rfl
  | ok x =>
      obtain ⟨ptr, pa⟩ := x
      simp only [Run.bind_ok]
      split
      · rfl
      · have hclear := withOlder_clearEntries T
          { m with pa := pa, tables := m.phys ptr / PAGE_SIZE :: m.tables } ptr NUM_TABLE_ENTRIES
        exact congrArg (fun m' => Except.ok (ptr, m')) hclear

end History

section Returns
variable {σ : Type} {ops : PageAllocatorOps σ} {Stock : σ → Nat → Prop}

/-- `allocate_table` takes one frame. -/
theorem allocateTable_returns (h : ops.Stocked Stock) {m : Machine σ} {n : Nat}
    (hn : Stock m.pa (1 + n)) : ∃ ptr m', allocateTable ops m = .ok (ptr, m') ∧ Stock m'.pa n := by
  rw [Nat.add_comm] at hn
  obtain ⟨ptr, s', hrun, hne, hs'⟩ := h.take hn
  have hclear : ∀ (b : Machine σ) k, (b.clearEntries ptr k).pa = b.pa := by
    intro b k
    induction k with
    | zero => rfl
    | succ k ih => exact ih
  have hrest : (if ptr = 0 then .error (.panic "Failed to allocate memory for the page table.")
      else .ok (ptr, Machine.clearEntries { m with
        pa := s', tables := m.phys ptr / PAGE_SIZE :: m.tables } ptr NUM_TABLE_ENTRIES)
      : Run (Nat × Machine σ)) = .ok _ := if_neg hne
  refine ⟨ptr, _, Run.bind_eq_ok.mpr ⟨_, hrun, hrest⟩, ?_⟩
  rw [hclear]
  exact hs'

/-- A loop whose rounds take at most `c` frames each. -/
theorem forRange_returns {body : Nat → Machine σ → Run (Machine σ)} {c : Nat}
    (hbody : ∀ i b n, Stock b.pa (c + n) → ∃ b', body i b = .ok b' ∧ Stock b'.pa n)
    {m : Machine σ} :
    ∀ k n, Stock m.pa (k * c + n) → ∃ m', Run.forRange body k m = .ok m' ∧ Stock m'.pa n := by
  intro k
  induction k with
  | zero =>
      intro n hn
      rw [Nat.zero_mul, Nat.zero_add] at hn
      exact ⟨m, rfl, hn⟩
  | succ k ih =>
      intro n hn
      rw [Nat.succ_mul, Nat.add_assoc] at hn
      -- The rounds before leave the frames of the last one in stock.
      obtain ⟨b, hrun, hb⟩ := ih _ hn
      obtain ⟨b', hlast, hb'⟩ := hbody k b n hb
      refine ⟨b', ?_, hb'⟩
      rw [Run.forRange, hrun, Run.bind_ok, hlast]

end Returns

end YmirC
