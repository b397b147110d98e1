import YmirC.Arch.X86.Vm
import YmirC.Proofs.Mem

/-!
# `YmirC.Proofs.Vm.Load`: loading a guest

`loadKernel_eq_ok` says when `load_kernel` returns and what it has done then: two writes for the
command line and one each for the initrd, the boot parameters and the protected-mode code.

The size of the code is `kernel_size - code_offset` in 64 bits. Its check adds the load address
to it, in 64 bits again, so that a difference that wrapped passes. `loadKernel_inside_iff` is
the exact condition under which every write stays inside the guest memory.

The code is written last and is checked against the end of the guest memory only. A code that
is long enough to reach the initrd overwrites it, and `loadKernel_intact_iff` is the exact
condition under which all four images are in place at the end.

The boot protocol counts four setup sectors where the header says 0. `load_kernel` takes its
header from `bootparams_from_bzimage`, which has no such rule, so the code starts where the
protocol says exactly when the header does not say 0 (`loadKernel_protocol_iff`).
-/

set_option autoImplicit false

namespace YmirC

open ByteMemory

variable {σ : Type}

/-! ### Boot parameters -/

namespace BootParams

theorem set_apply (bp : BootParams) {offset n b : Nat} (value : BitVec (8 * n))
    (h : b < offset ∨ offset + n ≤ b) : (bp.set offset n value).bytes b = bp.bytes b :=
  storeBytes_apply_of_disjoint bp.bytes offset n b value h

/-- An entry of the E820 map is written behind the header. -/
theorem addE820Entry_apply (bp : BootParams) (addr size : BitVec 64) (type : E820Type) {b : Nat}
    (hlt : b < E820_MAP) (hne : b ≠ E820_ENTRIES) :
    (bp.addE820Entry addr size type).bytes b = bp.bytes b := by
  simp only [addE820Entry]
  rw [set_apply _ _ (by omega), set_apply _ _ (by omega), set_apply _ _ (by omega),
    set_apply _ _ (by omega)]

end BootParams

open BootParams

/-- The fields of the header that the loader reads. -/
def ReadField (b : Nat) : Prop :=
  b = SETUP_SECTS ∨ (INITRD_ADDR_MAX ≤ b ∧ b < INITRD_ADDR_MAX + 4) ∨
    (CMDLINE_SIZE ≤ b ∧ b < CMDLINE_SIZE + 4)

/-- The loader does not write the fields it reads: they are those of the image. -/
theorem kernelBootParams_apply (kernel : Nat → BitVec 8) {b : Nat} (hb : ReadField b) :
    (kernelBootParams kernel).bytes b = kernel b := by
  simp only [kernelBootParams, setLoadflag]
  simp only [ReadField, SETUP_SECTS, INITRD_ADDR_MAX, CMDLINE_SIZE, SETUP_HEADER_OFFSET] at hb
  have hmap : b < E820_MAP ∧ b ≠ E820_ENTRIES := by
    simp only [E820_MAP, E820_ENTRIES]
    omega
  rw [addE820Entry_apply _ _ _ _ hmap.1 hmap.2, addE820Entry_apply _ _ _ _ hmap.1 hmap.2]
  simp only [E820_ENTRIES, TYPE_OF_LOADER, EXT_LOADER_VER, LOADFLAGS, HEAP_END_PTR, CMD_LINE_PTR,
    VID_MODE, SETUP_HEADER_OFFSET]
  rw [set_apply _ _ (by omega), set_apply _ _ (by omega), set_apply _ _ (by omega),
    set_apply _ _ (by omega), set_apply _ _ (by omega), set_apply _ _ (by omega),
    set_apply _ _ (by omega), set_apply _ _ (by omega), set_apply _ _ (by omega)]
  have hsize : b < 0 + SIZEOF_BOOT_PARAMS := by
    simp only [SIZEOF_BOOT_PARAMS]
    omega
  show writeBytes _ 0 kernel SIZEOF_BOOT_PARAMS b = kernel b
  rw [writeBytes_apply, if_pos ⟨Nat.zero_le b, hsize⟩, Nat.sub_zero]

/-- The limit for the initrd is the one in the image. -/
theorem kernelBootParams_initrdAddrMax (kernel : Nat → BitVec 8) :
    (kernelBootParams kernel).initrdAddrMax = loadBytes kernel INITRD_ADDR_MAX 4 := by
  apply loadBytes_congr
  intro k hk
  exact kernelBootParams_apply kernel (.inr (.inl ⟨by omega, by omega⟩))

/-- The offset of the protected-mode code in an image, from its own setup header. -/
def codeOffset (kernel : Nat → BitVec 8) : Nat := ((kernel SETUP_SECTS).toNat + 1) * 512

theorem codeOffset_le (kernel : Nat → BitVec 8) : codeOffset kernel ≤ 131072 := by
  have := (kernel SETUP_SECTS).isLt
  simp only [codeOffset]
  omega

theorem loadedBootParams_protectedCodeOffset (kernel : Nat → BitVec 8) (initrdSize : Nat) :
    (loadedBootParams kernel initrdSize).protectedCodeOffset = codeOffset kernel := by
  have hsects : (loadedBootParams kernel initrdSize).setupSects = kernel SETUP_SECTS := by
    show (loadedBootParams kernel initrdSize).bytes SETUP_SECTS = _
    simp only [loadedBootParams]
    rw [set_apply _ _ (by decide), set_apply _ _ (by decide)]
    exact kernelBootParams_apply kernel (.inl rfl)
  rw [protectedCodeOffset, hsects, codeOffset]

theorem cmdlineMaxSize_le (bp : BootParams) : cmdlineMaxSize bp ≤ 256 := by
  unfold cmdlineMaxSize
  split <;> omega

theorem cmdlineLen_le (bp : BootParams) : cmdlineLen bp ≤ cmdlineMaxSize bp := by
  unfold cmdlineLen
  split <;> omega

/-! ### Loading -/

section Load
variable {guestMem kernelSize initrdSize : Nat} {kernel initrd : Nat → BitVec 8}
  {m m' : Machine σ}

/-- The size `load_kernel` computes for the code. -/
def codeSize (kernel : Nat → BitVec 8) (kernelSize : Nat) : Nat :=
  sub64 kernelSize (codeOffset kernel)

/-- The machine after the copies of `load_kernel`. -/
def loaded (guestMem : Nat) (kernel : Nat → BitVec 8) (kernelSize : Nat)
    (initrd : Nat → BitVec 8) (initrdSize : Nat) (m : Machine σ) : Machine σ :=
  let m := loadCmdline guestMem (kernelBootParams kernel) m
  let m := m.memcpyFrom (guestMem + LINUX_LAYOUT_INITRD) initrd initrdSize
  let m := m.memcpyFrom (guestMem + LINUX_LAYOUT_BOOTPARAM)
    (loadedBootParams kernel initrdSize).bytes SIZEOF_BOOT_PARAMS
  m.memcpyFrom (guestMem + LINUX_LAYOUT_KERNEL_BASE) (fun i => kernel (codeOffset kernel + i))
    (codeSize kernel kernelSize)

/-- The checks of `load_kernel` before the code pass. -/
structure Accepted (kernel : Nat → BitVec 8) (kernelSize initrdSize : Nat) : Prop where
  size : kernelSize < GUEST_MEMORY_SIZE
  memory : initrdSize ≤ GUEST_MEMORY_SIZE - LINUX_LAYOUT_INITRD
  limit : LINUX_LAYOUT_INITRD + initrdSize ≤ (loadBytes kernel INITRD_ADDR_MAX 4).toNat

theorem loadImage_eq_ok {memory memorySize imageSize addr : Nat} {image : Nat → BitVec 8} :
    loadImage memory memorySize image imageSize addr m = .ok m' ↔
      u64 (addr + imageSize) ≤ memorySize ∧ m' = m.memcpyFrom (memory + addr) image imageSize := by
  rw [loadImage, Run.ite_error_eq_ok, Nat.not_lt, Except.ok.injEq, eq_comm (a := m')]

/-- With an initrd that fits, the sum of the limit check does not wrap. -/
theorem u64_initrd {initrdSize : Nat} (h : initrdSize ≤ GUEST_MEMORY_SIZE - LINUX_LAYOUT_INITRD) :
    u64 (LINUX_LAYOUT_INITRD + initrdSize) = LINUX_LAYOUT_INITRD + initrdSize := by
  apply u64_of_lt
  simp only [GUEST_MEMORY_SIZE, LINUX_LAYOUT_INITRD] at *
  omega

/-- When `load_kernel` returns, and what it returns. -/
theorem loadKernel_eq_ok :
    loadKernel guestMem kernel kernelSize initrd initrdSize m = .ok m' ↔
      Accepted kernel kernelSize initrdSize ∧
      u64 (LINUX_LAYOUT_KERNEL_BASE + codeSize kernel kernelSize) ≤ GUEST_MEMORY_SIZE ∧
      m' = loaded guestMem kernel kernelSize initrd initrdSize m := by
  have hboot : u64 (LINUX_LAYOUT_BOOTPARAM + SIZEOF_BOOT_PARAMS) ≤ GUEST_MEMORY_SIZE := by decide
  simp only [loadKernel, Run.ite_error_eq_ok, Run.bind_eq_ok, loadImage_eq_ok,
    kernelBootParams_initrdAddrMax, loadedBootParams_protectedCodeOffset]
  constructor
  · rintro ⟨hsize, hmemory, hlimit, m1, ⟨-, rfl⟩, m2, ⟨-, rfl⟩, hcode, rfl⟩
    have hinitrd := u64_initrd (by omega : initrdSize ≤ GUEST_MEMORY_SIZE - LINUX_LAYOUT_INITRD)
    rw [hinitrd] at hlimit
    exact ⟨⟨by omega, by omega, by omega⟩, hcode, rfl⟩
  · rintro ⟨hacc, hcode, rfl⟩
    have hsize := hacc.size
    have hmemory := hacc.memory
    have hlimit := hacc.limit
    have hinitrd := u64_initrd hmemory
    have hfits : u64 (LINUX_LAYOUT_INITRD + initrdSize) ≤ GUEST_MEMORY_SIZE := by
      rw [hinitrd]
      simp only [GUEST_MEMORY_SIZE, LINUX_LAYOUT_INITRD] at *
      omega
    refine ⟨by omega, by omega, ?_, _, ⟨hfits, rfl⟩, _, ⟨hboot, rfl⟩, hcode, rfl⟩
    rw [hinitrd]
    omega

/-! ### Inside the guest memory -/

/-- From `m` to `m'` every byte written lies in the guest memory, and the copy to
`LINUX_LAYOUT_KERNEL_BASE` has at most the size of the kernel image. -/
def LoadsInside (guestMem kernelSize : Nat) (m m' : Machine σ) : Prop :=
  ∃ news, m'.writes = news ++ m.writes ∧
    (∀ w ∈ news, ∀ a ∈ w, guestMem ≤ a ∧ a < guestMem + GUEST_MEMORY_SIZE) ∧
    (∀ w ∈ news, w.start = guestMem + LINUX_LAYOUT_KERNEL_BASE → w.len ≤ kernelSize)

/-- The writes of `load_kernel`, latest first. -/
def loadWrites (guestMem : Nat) (kernel : Nat → BitVec 8) (kernelSize initrdSize : Nat) :
    List Extent :=
  [⟨guestMem + LINUX_LAYOUT_KERNEL_BASE, codeSize kernel kernelSize⟩,
   ⟨guestMem + LINUX_LAYOUT_BOOTPARAM, SIZEOF_BOOT_PARAMS⟩,
   ⟨guestMem + LINUX_LAYOUT_INITRD, initrdSize⟩,
   ⟨guestMem + LINUX_LAYOUT_CMDLINE, cmdlineLen (kernelBootParams kernel)⟩,
   ⟨guestMem + LINUX_LAYOUT_CMDLINE, cmdlineMaxSize (kernelBootParams kernel)⟩]

theorem loaded_writes :
    (loaded guestMem kernel kernelSize initrd initrdSize m).writes
      = loadWrites guestMem kernel kernelSize initrdSize ++ m.writes := rfl

/-- A code offset inside the image gives the size of the rest of the image. -/
theorem codeSize_of_le (hle : codeOffset kernel ≤ kernelSize)
    (hsize : kernelSize < GUEST_MEMORY_SIZE) :
    codeSize kernel kernelSize = kernelSize - codeOffset kernel := by
  apply sub64_of_le hle
  simp only [GUEST_MEMORY_SIZE] at hsize
  omega

/-- A code offset behind the image gives a size that wrapped. -/
theorem codeSize_of_gt (hgt : kernelSize < codeOffset kernel) :
    codeSize kernel kernelSize = kernelSize + 2 ^ 64 - codeOffset kernel := by
  have hle := codeOffset_le kernel
  simp only [codeSize, sub64, u64]
  omega

/-- With the code offset inside the image, every write stays inside. -/
theorem loadsInside_of_le (hacc : Accepted kernel kernelSize initrdSize)
    (hle : codeOffset kernel ≤ kernelSize)
    (hcode : u64 (LINUX_LAYOUT_KERNEL_BASE + codeSize kernel kernelSize) ≤ GUEST_MEMORY_SIZE) :
    LoadsInside guestMem kernelSize m
      (loaded guestMem kernel kernelSize initrd initrdSize m) := by
  have hsize := codeSize_of_le hle hacc.size
  have hlt := hacc.size
  have hmemory := hacc.memory
  have hmax := cmdlineMaxSize_le (kernelBootParams kernel)
  have hlen := cmdlineLen_le (kernelBootParams kernel)
  rw [hsize, u64_of_lt (by simp only [GUEST_MEMORY_SIZE, LINUX_LAYOUT_KERNEL_BASE] at *; omega)]
    at hcode
  -- The five writes, once for their bytes and once for the size of the code.
  refine ⟨_, loaded_writes, fun w hw a ha => ?_, fun w hw hstart => ?_⟩
  · simp only [loadWrites, hsize, List.mem_cons, List.not_mem_nil, or_false] at hw
    simp only [GUEST_MEMORY_SIZE, LINUX_LAYOUT_KERNEL_BASE, LINUX_LAYOUT_INITRD] at *
    rcases hw with rfl | rfl | rfl | rfl | rfl
    · rw [Extent.mem_mk] at ha
      omega
    · simp only [Extent.mem_mk, LINUX_LAYOUT_BOOTPARAM, SIZEOF_BOOT_PARAMS] at ha
      omega
    · rw [Extent.mem_mk] at ha
      omega
    · simp only [Extent.mem_mk, LINUX_LAYOUT_CMDLINE] at ha
      omega
    · simp only [Extent.mem_mk, LINUX_LAYOUT_CMDLINE] at ha
      omega
  · simp only [loadWrites, List.mem_cons, List.not_mem_nil, or_false] at hw
    simp only [LINUX_LAYOUT_KERNEL_BASE] at hstart
    rcases hw with rfl | rfl | rfl | rfl | rfl
    · -- Only the code starts at `LINUX_LAYOUT_KERNEL_BASE`.
      show codeSize kernel kernelSize ≤ kernelSize
      omega
    · simp only [LINUX_LAYOUT_BOOTPARAM] at hstart
      omega
    · simp only [LINUX_LAYOUT_INITRD] at hstart
      omega
    · simp only [LINUX_LAYOUT_CMDLINE] at hstart
      omega
    · simp only [LINUX_LAYOUT_CMDLINE] at hstart
      omega

/-- With the code offset behind the image the check of the code passes all the same, and more
bytes are copied than the image has. -/
theorem not_loadsInside_of_gt (guestMem : Nat) (initrd : Nat → BitVec 8) (initrdSize : Nat)
    (m : Machine σ) (hgt : kernelSize < codeOffset kernel) :
    u64 (LINUX_LAYOUT_KERNEL_BASE + codeSize kernel kernelSize) ≤ GUEST_MEMORY_SIZE ∧
      ¬ LoadsInside guestMem kernelSize m
        (loaded guestMem kernel kernelSize initrd initrdSize m) := by
  have hsize := codeSize_of_gt hgt
  have hle := codeOffset_le kernel
  constructor
  · rw [hsize]
    simp only [u64, LINUX_LAYOUT_KERNEL_BASE, GUEST_MEMORY_SIZE]
    omega
  · rintro ⟨news, heq, -, hcopy⟩
    rw [loaded_writes, List.append_left_inj] at heq
    subst heq
    have hlen : codeSize kernel kernelSize ≤ kernelSize :=
      hcopy _ List.mem_cons_self rfl
    omega

/-- `load_kernel` panics or writes inside the guest memory only, and copies at most the kernel
image, exactly when one of its checks before the code fails or the code offset in the header
is inside the image. -/
theorem loadKernel_inside_iff (guestMem : Nat) (kernel : Nat → BitVec 8) (kernelSize : Nat)
    (initrd : Nat → BitVec 8) (initrdSize : Nat) (m : Machine σ) :
    (∀ m', loadKernel guestMem kernel kernelSize initrd initrdSize m = .ok m' →
      LoadsInside guestMem kernelSize m m') ↔
    (GUEST_MEMORY_SIZE ≤ kernelSize ∨ GUEST_MEMORY_SIZE - LINUX_LAYOUT_INITRD < initrdSize ∨
      (loadBytes kernel INITRD_ADDR_MAX 4).toNat < LINUX_LAYOUT_INITRD + initrdSize ∨
      codeOffset kernel ≤ kernelSize) := by
  constructor
  · intro h
    by_contra hcon
    simp only [not_or, Nat.not_le, Nat.not_lt] at hcon
    obtain ⟨hsize, hmemory, hlimit, hgt⟩ := hcon
    obtain ⟨hcode, hnot⟩ := not_loadsInside_of_gt guestMem initrd initrdSize m hgt
    exact hnot (h _ (loadKernel_eq_ok.mpr ⟨⟨hsize, hmemory, hlimit⟩, hcode, rfl⟩))
  · intro hcond m' hrun
    obtain ⟨hacc, hcode, rfl⟩ := loadKernel_eq_ok.mp hrun
    -- `load_kernel` returned, so its checks passed and only the offset is left.
    have hle : codeOffset kernel ≤ kernelSize := by
      rcases hcond with h | h | h | h
      · exact absurd hacc.size (by omega)
      · exact absurd hacc.memory (by omega)
      · exact absurd hacc.limit (by omega)
      · exact h
    exact loadsInside_of_le hacc hle hcode

end Load

/-- A machine with cleared memory after the reconstruction. -/
def blankMachine : Machine Unit where
  mem _ := 0#8
  pa := ()
  cr3 := 0
  msr _ := 0#64
  mappingReconstructed := true
  tables := []
  writes := []

/-- An image of zeros with the given `setup_sects` that accepts an initrd anywhere. -/
def headerImage (setupSects : BitVec 8) (i : Nat) : BitVec 8 :=
  if i = SETUP_SECTS then setupSects
  else if INITRD_ADDR_MAX ≤ i ∧ i < INITRD_ADDR_MAX + 4 then 0xFF#8
  else 0#8

/-- An image of 4096 bytes whose header says that the setup code has 255 sectors: `load_kernel`
returns, and it has copied almost 2^64 bytes. -/
theorem not_loadsInside_headerImage :
    ∃ m', loadKernel (phys2virt true 0x200000) (headerImage 0xFF#8) 4096 (fun _ => 0#8) 0
        blankMachine = .ok m' ∧
      ¬ LoadsInside (phys2virt true 0x200000) 4096 blankMachine m' := by
  have hgt : 4096 < codeOffset (headerImage 0xFF#8) := by decide
  obtain ⟨hcode, hnot⟩ := not_loadsInside_of_gt (phys2virt true 0x200000) (fun _ => 0#8) 0
    blankMachine hgt
  exact ⟨_, loadKernel_eq_ok.mpr ⟨⟨by decide, by decide, by decide⟩, hcode, rfl⟩, hnot⟩

/-! ### The images in place -/

section Intact
variable {base kernelSize initrdSize : Nat} {kernel initrd : Nat → BitVec 8} {m m' : Machine σ}

/-- The byte behind a pointer. -/
def byteAt (m : Machine σ) (ptr : Nat) : BitVec 8 := m.mem (m.phys ptr)

/-- The four images are in guest memory together: the initrd, the boot parameters, the part of
the command line that fits, and the protected-mode code. -/
structure Intact (guestMem : Nat) (kernel : Nat → BitVec 8) (kernelSize : Nat)
    (initrd : Nat → BitVec 8) (initrdSize : Nat) (m : Machine σ) : Prop where
  initrd : ∀ i < initrdSize, byteAt m (guestMem + (LINUX_LAYOUT_INITRD + i)) = initrd i
  bootParams : ∀ i < SIZEOF_BOOT_PARAMS,
    byteAt m (guestMem + (LINUX_LAYOUT_BOOTPARAM + i))
      = (loadedBootParams kernel initrdSize).bytes i
  cmdline : ∀ i < min KERNEL_CMDLINE_LEN (cmdlineMaxSize (kernelBootParams kernel)),
    byteAt m (guestMem + (LINUX_LAYOUT_CMDLINE + i)) = kernelCmdline i
  code : ∀ i < kernelSize - codeOffset kernel,
    byteAt m (guestMem + (LINUX_LAYOUT_KERNEL_BASE + i)) = kernel (codeOffset kernel + i)

/-- Wherever the code reaches into the initrd, its bytes are those of the initrd. -/
def CodeSparesInitrd (kernel : Nat → BitVec 8) (kernelSize : Nat) (initrd : Nat → BitVec 8)
    (initrdSize : Nat) : Prop :=
  ∀ i < initrdSize,
    LINUX_LAYOUT_INITRD + i < LINUX_LAYOUT_KERNEL_BASE + (kernelSize - codeOffset kernel) →
    kernel (codeOffset kernel + (LINUX_LAYOUT_INITRD + i - LINUX_LAYOUT_KERNEL_BASE)) = initrd i

/-- Every byte after a copy from outside, through a pointer. -/
theorem byteAt_memcpyFrom (m : Machine σ) (dest n ptr : Nat) (bytes : Nat → BitVec 8) :
    byteAt (m.memcpyFrom dest bytes n) ptr
      = if m.phys dest ≤ m.phys ptr ∧ m.phys ptr < m.phys dest + n
          then bytes (m.phys ptr - m.phys dest) else byteAt m ptr :=
  writeBytes_apply m.mem (m.phys dest) (m.phys ptr) bytes n

/-- Every byte after a fill, through a pointer. -/
theorem byteAt_memset (m : Machine σ) (dest n ptr : Nat) (c : BitVec 8) :
    byteAt (m.memset dest c n) ptr
      = if m.phys dest ≤ m.phys ptr ∧ m.phys ptr < m.phys dest + n then c else byteAt m ptr :=
  fillBytes_apply m.mem (m.phys dest) (m.phys ptr) c n

theorem phys_memcpyFrom (m : Machine σ) (dest n ptr : Nat) (bytes : Nat → BitVec 8) :
    (m.memcpyFrom dest bytes n).phys ptr = m.phys ptr := rfl

theorem phys_memset (m : Machine σ) (dest n ptr : Nat) (c : BitVec 8) :
    (m.memset dest c n).phys ptr = m.phys ptr := rfl

/-- A pointer into the guest memory, which is a block of the direct map. -/
theorem phys_guestMem (hbase : base + GUEST_MEMORY_SIZE ≤ DIRECT_MAP_SIZE) {x : Nat}
    (hx : x < GUEST_MEMORY_SIZE) :
    m.phys (phys2virt m.mappingReconstructed base + x) = base + x := by
  rw [phys2virt_add _ (by omega)]
  exact virt2phys_phys2virt _ (by omega)

/-- Every byte of the guest memory after the copies of `load_kernel`. -/
theorem loaded_byteAt (hbase : base + GUEST_MEMORY_SIZE ≤ DIRECT_MAP_SIZE) {x : Nat}
    (hx : x < GUEST_MEMORY_SIZE) :
    byteAt (loaded (phys2virt m.mappingReconstructed base) kernel kernelSize initrd initrdSize m)
        (phys2virt m.mappingReconstructed base + x)
      = if LINUX_LAYOUT_KERNEL_BASE ≤ x ∧ x < LINUX_LAYOUT_KERNEL_BASE + codeSize kernel kernelSize
          then kernel (codeOffset kernel + (x - LINUX_LAYOUT_KERNEL_BASE))
        else if LINUX_LAYOUT_BOOTPARAM ≤ x ∧ x < LINUX_LAYOUT_BOOTPARAM + SIZEOF_BOOT_PARAMS
          then (loadedBootParams kernel initrdSize).bytes (x - LINUX_LAYOUT_BOOTPARAM)
        else if LINUX_LAYOUT_INITRD ≤ x ∧ x < LINUX_LAYOUT_INITRD + initrdSize
          then initrd (x - LINUX_LAYOUT_INITRD)
        else if LINUX_LAYOUT_CMDLINE ≤ x ∧
            x < LINUX_LAYOUT_CMDLINE + cmdlineLen (kernelBootParams kernel)
          then kernelCmdline (x - LINUX_LAYOUT_CMDLINE)
        else if LINUX_LAYOUT_CMDLINE ≤ x ∧
            x < LINUX_LAYOUT_CMDLINE + cmdlineMaxSize (kernelBootParams kernel)
          then 0#8
        else m.mem (base + x) := by
  have hphys : ∀ y, y < GUEST_MEMORY_SIZE →
      m.phys (phys2virt m.mappingReconstructed base + y) = base + y :=
    fun y hy => phys_guestMem hbase hy
  have hkernel := hphys LINUX_LAYOUT_KERNEL_BASE (by decide)
  have hboot := hphys LINUX_LAYOUT_BOOTPARAM (by decide)
  have hinitrd := hphys LINUX_LAYOUT_INITRD (by decide)
  have hcmdline := hphys LINUX_LAYOUT_CMDLINE (by decide)
  have hbyte : byteAt m (phys2virt m.mappingReconstructed base + x) = m.mem (base + x) := by
    rw [byteAt, hphys x hx]
  -- The copies from the last to the first: a later one hides an earlier one.
  simp only [loaded, loadCmdline, byteAt_memcpyFrom, byteAt_memset, phys_memcpyFrom, phys_memset,
    hkernel, hboot, hinitrd, hcmdline, hphys x hx, hbyte]
  simp only [Nat.add_le_add_iff_left, Nat.add_assoc, Nat.add_lt_add_iff_left,
    Nat.add_sub_add_left]

/-- The boot parameters, the command line and the code are in place whatever the sizes. -/
theorem loaded_fixed (initrd : Nat → BitVec 8) (initrdSize : Nat) (m : Machine σ)
    (hbase : base + GUEST_MEMORY_SIZE ≤ DIRECT_MAP_SIZE)
    (hcode : LINUX_LAYOUT_KERNEL_BASE + codeSize kernel kernelSize ≤ GUEST_MEMORY_SIZE) :
    let g := phys2virt m.mappingReconstructed base
    let m' := loaded g kernel kernelSize initrd initrdSize m
    (∀ i < SIZEOF_BOOT_PARAMS, byteAt m' (g + (LINUX_LAYOUT_BOOTPARAM + i))
      = (loadedBootParams kernel initrdSize).bytes i) ∧
    (∀ i < cmdlineLen (kernelBootParams kernel), byteAt m' (g + (LINUX_LAYOUT_CMDLINE + i))
      = kernelCmdline i) ∧
    (∀ i < codeSize kernel kernelSize, byteAt m' (g + (LINUX_LAYOUT_KERNEL_BASE + i))
      = kernel (codeOffset kernel + i)) := by
  have hmax := cmdlineMaxSize_le (kernelBootParams kernel)
  have hlen := cmdlineLen_le (kernelBootParams kernel)
  -- Nothing written later reaches the boot parameters or the command line, and the code comes
  -- last.
  refine ⟨fun i hi => ?_, fun i hi => ?_, fun i hi => ?_⟩
  · simp only [SIZEOF_BOOT_PARAMS] at hi
    rw [loaded_byteAt hbase (by simp only [GUEST_MEMORY_SIZE, LINUX_LAYOUT_BOOTPARAM]; omega),
      if_neg (by simp only [LINUX_LAYOUT_KERNEL_BASE, LINUX_LAYOUT_BOOTPARAM]; omega),
      if_pos (by simp only [SIZEOF_BOOT_PARAMS]; omega), Nat.add_sub_cancel_left]
  · rw [loaded_byteAt hbase (by simp only [GUEST_MEMORY_SIZE, LINUX_LAYOUT_CMDLINE]; omega),
      if_neg (by simp only [LINUX_LAYOUT_KERNEL_BASE, LINUX_LAYOUT_CMDLINE]; omega),
      if_neg (by
        simp only [LINUX_LAYOUT_BOOTPARAM, LINUX_LAYOUT_CMDLINE, SIZEOF_BOOT_PARAMS]; omega),
      if_neg (by simp only [LINUX_LAYOUT_INITRD, LINUX_LAYOUT_CMDLINE]; omega),
      if_pos (by omega), Nat.add_sub_cancel_left]
  · rw [loaded_byteAt hbase (by omega), if_pos (by omega), Nat.add_sub_cancel_left]

/-- The bytes where the initrd was loaded: those the code reaches are the code's. -/
theorem loaded_initrd (kernel : Nat → BitVec 8) (kernelSize : Nat) (initrd : Nat → BitVec 8)
    (m : Machine σ) (hbase : base + GUEST_MEMORY_SIZE ≤ DIRECT_MAP_SIZE)
    (hmemory : initrdSize ≤ GUEST_MEMORY_SIZE - LINUX_LAYOUT_INITRD) {i : Nat}
    (hi : i < initrdSize) :
    byteAt (loaded (phys2virt m.mappingReconstructed base) kernel kernelSize initrd initrdSize m)
        (phys2virt m.mappingReconstructed base + (LINUX_LAYOUT_INITRD + i))
      = if LINUX_LAYOUT_INITRD + i < LINUX_LAYOUT_KERNEL_BASE + codeSize kernel kernelSize
          then kernel (codeOffset kernel + (LINUX_LAYOUT_INITRD + i - LINUX_LAYOUT_KERNEL_BASE))
        else initrd i := by
  have hx : LINUX_LAYOUT_INITRD + i < GUEST_MEMORY_SIZE := by
    simp only [GUEST_MEMORY_SIZE, LINUX_LAYOUT_INITRD] at *
    omega
  have hbehind : LINUX_LAYOUT_KERNEL_BASE ≤ LINUX_LAYOUT_INITRD + i := by
    simp only [LINUX_LAYOUT_KERNEL_BASE, LINUX_LAYOUT_INITRD]
    omega
  rw [loaded_byteAt hbase hx]
  -- The code is written behind the initrd, so it wins where they meet.
  by_cases hover : LINUX_LAYOUT_INITRD + i < LINUX_LAYOUT_KERNEL_BASE + codeSize kernel kernelSize
  · rw [if_pos ⟨hbehind, hover⟩, if_pos hover]
  · rw [if_neg (fun h => hover h.2), if_neg hover,
      if_neg (by
        simp only [LINUX_LAYOUT_INITRD, LINUX_LAYOUT_BOOTPARAM, SIZEOF_BOOT_PARAMS]; omega),
      if_pos (by omega), Nat.add_sub_cancel_left]

/-- The number of bytes of the command line that are copied. -/
theorem cmdlineLen_eq (bp : BootParams) :
    cmdlineLen bp = min KERNEL_CMDLINE_LEN (cmdlineMaxSize bp) := by
  unfold cmdlineLen
  split <;> omega

/-- After the copies of `load_kernel` the images are in place exactly when the code spares the
initrd. -/
theorem intact_loaded_iff (hbase : base + GUEST_MEMORY_SIZE ≤ DIRECT_MAP_SIZE)
    (hacc : Accepted kernel kernelSize initrdSize) (hle : codeOffset kernel ≤ kernelSize)
    (hcode : u64 (LINUX_LAYOUT_KERNEL_BASE + codeSize kernel kernelSize) ≤ GUEST_MEMORY_SIZE) :
    Intact (phys2virt m.mappingReconstructed base) kernel kernelSize initrd initrdSize
        (loaded (phys2virt m.mappingReconstructed base) kernel kernelSize initrd initrdSize m) ↔
      CodeSparesInitrd kernel kernelSize initrd initrdSize := by
  have hsize := codeSize_of_le hle hacc.size
  have hlt := hacc.size
  rw [hsize, u64_of_lt (by simp only [GUEST_MEMORY_SIZE, LINUX_LAYOUT_KERNEL_BASE] at *; omega),
    ← hsize] at hcode
  obtain ⟨hboot, hcmdline, hkernel⟩ := loaded_fixed initrd initrdSize m hbase hcode
  rw [hsize] at hkernel
  rw [cmdlineLen_eq] at hcmdline
  have hinitrd := fun i => loaded_initrd kernel kernelSize initrd m hbase hacc.memory (i := i)
  rw [hsize] at hinitrd
  constructor
  · -- Where the code reaches, the byte is both the initrd's and the code's.
    intro h i hi hover
    have hbyte := h.initrd i hi
    rw [hinitrd i hi, if_pos hover] at hbyte
    exact hbyte
  · intro h
    refine ⟨fun i hi => ?_, hboot, hcmdline, hkernel⟩
    rw [hinitrd i hi]
    split
    · rename_i hover
      exact h i hi hover
    · rfl

/-- When `load_kernel` returns, with guest memory a block of the direct map and the code offset
inside the image, the four images are in place exactly when the code spares the initrd. -/
theorem loadKernel_intact_iff (base : Nat) (kernel : Nat → BitVec 8) (kernelSize : Nat)
    (initrd : Nat → BitVec 8) (initrdSize : Nat) (m m' : Machine σ)
    (hbase : base + GUEST_MEMORY_SIZE ≤ DIRECT_MAP_SIZE) (hle : codeOffset kernel ≤ kernelSize)
    (hrun : loadKernel (phys2virt m.mappingReconstructed base) kernel kernelSize initrd
      initrdSize m = .ok m') :
    Intact (phys2virt m.mappingReconstructed base) kernel kernelSize initrd initrdSize m' ↔
      CodeSparesInitrd kernel kernelSize initrd initrdSize := by
  obtain ⟨hacc, hcode, rfl⟩ := loadKernel_eq_ok.mp hrun
  exact intact_loaded_iff hbase hacc hle hcode

end Intact

/-- `load_kernel` returns on an image of 97MiB with an initrd of one byte. -/
theorem loadKernel_large :
    loadKernel (phys2virt true 0x200000) (headerImage 1#8) 101711872 (fun _ => 1#8) 1
        blankMachine
      = .ok (loaded (phys2virt true 0x200000) (headerImage 1#8) 101711872 (fun _ => 1#8) 1
          blankMachine) :=
  loadKernel_eq_ok.mpr ⟨⟨by decide, by decide, by decide⟩, by decide, rfl⟩

theorem loadKernel_intact_iff_large :
    Intact (phys2virt true 0x200000) (headerImage 1#8) 101711872 (fun _ => 1#8) 1
        (loaded (phys2virt true 0x200000) (headerImage 1#8) 101711872 (fun _ => 1#8) 1
          blankMachine) ↔
      CodeSparesInitrd (headerImage 1#8) 101711872 (fun _ => 1#8) 1 :=
  loadKernel_intact_iff 0x200000 (headerImage 1#8) 101711872 (fun _ => 1#8) 1 blankMachine _
    (by decide) (by decide) loadKernel_large

/-- An image of 97MiB reaches the initrd at 96MiB: `load_kernel` returns, and the byte of the
initrd is overwritten. -/
theorem not_intact_large :
    ∃ m', loadKernel (phys2virt true 0x200000) (headerImage 1#8) 101711872 (fun _ => 1#8) 1
        blankMachine = .ok m' ∧
      4096 ≤ 101711872 ∧ codeOffset (headerImage 1#8) ≤ 101711872 ∧
      ¬ Intact (phys2virt true 0x200000) (headerImage 1#8) 101711872 (fun _ => 1#8) 1 m' := by
  refine ⟨_, loadKernel_large, by decide, by decide, fun hintact => ?_⟩
  have hbase : 0x200000 + GUEST_MEMORY_SIZE ≤ DIRECT_MAP_SIZE := by decide
  have hspares := (intact_loaded_iff (m := blankMachine) hbase
    ⟨by decide, by decide, by decide⟩ (by decide) (by decide)).mp hintact
  have hbyte := hspares 0 (by decide) (by decide)
  exact absurd hbyte (by decide)

/-! ### The boot protocol -/

/-- The offset of the protected-mode code by the boot protocol: 0 setup sectors mean 4. -/
def protocolOffset (kernel : Nat → BitVec 8) : Nat :=
  let s := (kernel SETUP_SECTS).toNat
  ((if s = 0 then 4 else s) + 1) * 512

/-- A byte of the image that `bootparams_from_bzimage` copies. -/
theorem fromBzimage_apply (kernel : Nat → BitVec 8) {b : Nat} (hb : b < SIZEOF_BOOT_PARAMS) :
    (BootParams.fromBzimage kernel).bytes b = kernel b := by
  simp only [BootParams.fromBzimage]
  rw [writeBytes_apply, if_pos ⟨Nat.zero_le b, by omega⟩, Nat.sub_zero]

/-- The test on the number of setup sectors puts 4 for 0. -/
theorem protectedCodeOffset_ite (hdr : SetupHeader) :
    (if hdr.setupSects = 0#8 then (⟨fun i => if i = 0 then 4#8 else hdr.bytes i⟩ : SetupHeader)
        else hdr).protectedCodeOffset
      = ((if hdr.setupSects.toNat = 0 then 4 else hdr.setupSects.toNat) + 1) * 512 := by
  by_cases h0 : hdr.setupSects = 0#8
  · rw [if_pos h0, if_pos (by rw [h0]; rfl)]
    rfl
  · have hne : hdr.setupSects.toNat ≠ 0 := fun h => h0 (BitVec.eq_of_toNat_eq h)
    rw [if_neg h0, if_neg hne]
    rfl

/-- `setupheader_from_bzimage` follows the protocol. -/
theorem fromBzimage_protectedCodeOffset (kernel : Nat → BitVec 8) :
    (SetupHeader.fromBzimage kernel).protectedCodeOffset = protocolOffset kernel := by
  have hsects : writeBytes (fun _ => 0#8) 0 (fun i => kernel (SETUP_HEADER_OFFSET + i))
      SIZEOF_SETUP_HEADER 0 = kernel SETUP_SECTS := by
    rw [writeBytes_apply, if_pos (by decide), Nat.sub_zero, Nat.add_zero, SETUP_SECTS]
  rw [SetupHeader.fromBzimage, protectedCodeOffset_ite]
  simp only [SetupHeader.setupSects, hsects, protocolOffset]

theorem hdr_setupSects (bp : BootParams) : bp.hdr.setupSects = bp.setupSects := rfl

/-- `bootparams_from_bzimage` takes the number of the header as it is. -/
theorem hdr_protectedCodeOffset (kernel : Nat → BitVec 8) :
    (BootParams.fromBzimage kernel).hdr.protectedCodeOffset = codeOffset kernel := by
  have hsects : (BootParams.fromBzimage kernel).setupSects = kernel SETUP_SECTS := by
    rw [BootParams.setupSects]
    exact fromBzimage_apply kernel (by decide)
  rw [SetupHeader.protectedCodeOffset, hdr_setupSects, hsects, codeOffset]

theorem codeOffset_eq_protocolOffset_iff (kernel : Nat → BitVec 8) :
    codeOffset kernel = protocolOffset kernel ↔ kernel SETUP_SECTS ≠ 0#8 := by
  unfold codeOffset protocolOffset
  by_cases h0 : kernel SETUP_SECTS = 0#8
  · simp [h0]
  · have hne : (kernel SETUP_SECTS).toNat ≠ 0 := fun h => h0 (BitVec.eq_of_toNat_eq h)
    simp [h0, hne]

/-- The bytes at `LINUX_LAYOUT_KERNEL_BASE` are those of the image from `offset` on. -/
def PlacedFrom (guestMem : Nat) (kernel : Nat → BitVec 8) (kernelSize offset : Nat)
    (m : Machine σ) : Prop :=
  ∀ i < kernelSize - offset,
    m.mem (m.phys (guestMem + LINUX_LAYOUT_KERNEL_BASE) + i) = kernel (offset + i)

/-- The bytes a copy from outside leaves behind its pointer. -/
theorem memcpyFrom_mem (m : Machine σ) (dest : Nat) (bytes : Nat → BitVec 8) {n i : Nat}
    (hi : i < n) : (m.memcpyFrom dest bytes n).mem (m.phys dest + i) = bytes i := by
  simp only [Machine.memcpyFrom, Machine.write]
  rw [writeBytes_apply, if_pos ⟨by omega, by omega⟩, Nat.add_sub_cancel_left]

/-- `load_kernel` places the code from the offset in its own header. The code is what it copies
last. -/
theorem placedFrom_loaded (guestMem : Nat) (kernel : Nat → BitVec 8) {kernelSize : Nat}
    (initrd : Nat → BitVec 8) (initrdSize : Nat) (m : Machine σ)
    (hsize : kernelSize < GUEST_MEMORY_SIZE) :
    PlacedFrom guestMem kernel kernelSize (codeOffset kernel)
      (loaded guestMem kernel kernelSize initrd initrdSize m) := by
  intro i hi
  have hcode : codeSize kernel kernelSize = kernelSize - codeOffset kernel :=
    codeSize_of_le (by omega) hsize
  rw [loaded, phys_memcpyFrom, memcpyFrom_mem _ _ _ (by omega)]

/-- When `load_kernel` returns, the header of `bootparams_from_bzimage` gives the offset of
`setupheader_from_bzimage` and the code was placed from there, exactly when the number of setup
sectors in the image is not 0. -/
theorem loadKernel_protocol_iff (guestMem : Nat) (kernel : Nat → BitVec 8) (kernelSize : Nat)
    (initrd : Nat → BitVec 8) (initrdSize : Nat) (m m' : Machine σ)
    (hrun : loadKernel guestMem kernel kernelSize initrd initrdSize m = .ok m') :
    ((BootParams.fromBzimage kernel).hdr.protectedCodeOffset
        = (SetupHeader.fromBzimage kernel).protectedCodeOffset ∧
      PlacedFrom guestMem kernel kernelSize (protocolOffset kernel) m') ↔
    kernel SETUP_SECTS ≠ 0#8 := by
  obtain ⟨hacc, -, rfl⟩ := loadKernel_eq_ok.mp hrun
  rw [hdr_protectedCodeOffset, fromBzimage_protectedCodeOffset,
    codeOffset_eq_protocolOffset_iff]
  constructor
  · rintro ⟨hsects, -⟩
    exact hsects
  · intro hsects
    refine ⟨hsects, ?_⟩
    rw [← (codeOffset_eq_protocolOffset_iff kernel).mpr hsects]
    exact placedFrom_loaded guestMem kernel initrd initrdSize m hacc.size

/-- `load_kernel` returns on an image of 4096 bytes with one setup sector. -/
theorem loadKernel_oneSector :
    loadKernel (phys2virt true 0x200000) (headerImage 1#8) 4096 (fun _ => 0#8) 0 blankMachine
      = .ok (loaded (phys2virt true 0x200000) (headerImage 1#8) 4096 (fun _ => 0#8) 0
          blankMachine) :=
  loadKernel_eq_ok.mpr ⟨⟨by decide, by decide, by decide⟩, by decide, rfl⟩

theorem loadKernel_protocol_iff_oneSector :
    ((BootParams.fromBzimage (headerImage 1#8)).hdr.protectedCodeOffset
        = (SetupHeader.fromBzimage (headerImage 1#8)).protectedCodeOffset ∧
      PlacedFrom (phys2virt true 0x200000) (headerImage 1#8) 4096 (protocolOffset (headerImage 1#8))
        (loaded (phys2virt true 0x200000) (headerImage 1#8) 4096 (fun _ => 0#8) 0
          blankMachine)) ↔
    headerImage 1#8 SETUP_SECTS ≠ 0#8 :=
  loadKernel_protocol_iff (phys2virt true 0x200000) (headerImage 1#8) 4096 (fun _ => 0#8) 0
    blankMachine _ loadKernel_oneSector

/-- An image of 4096 bytes whose header says 0 setup sectors. The protocol has the code at 2560,
where the image is 0. `load_kernel` returns with the code from 512, and the 0xFF that is at 556
in the image is at 44 in the code. -/
theorem not_loadKernel_protocol :
    ∃ m', loadKernel (phys2virt true 0x200000) (headerImage 0#8) 4096 (fun _ => 0#8) 0
        blankMachine = .ok m' ∧
      (BootParams.fromBzimage (headerImage 0#8)).hdr.protectedCodeOffset = 512 ∧
      (SetupHeader.fromBzimage (headerImage 0#8)).protectedCodeOffset = 2560 ∧
      ¬ PlacedFrom (phys2virt true 0x200000) (headerImage 0#8) 4096 2560 m' := by
  refine ⟨_, loadKernel_eq_ok.mpr ⟨⟨by decide, by decide, by decide⟩, by decide, rfl⟩, ?_, ?_, ?_⟩
  · rw [hdr_protectedCodeOffset]
    decide
  · rw [fromBzimage_protectedCodeOffset]
    decide
  · intro hplaced
    have hzero := hplaced 44 (by decide)
    have hcode := placedFrom_loaded (phys2virt true 0x200000) (headerImage 0#8) (fun _ => 0#8) 0
      blankMachine (show 4096 < GUEST_MEMORY_SIZE by decide) 44 (by decide)
    rw [hcode] at hzero
    exact absurd hzero (by decide)

end YmirC
