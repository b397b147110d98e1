import YmirC.Mem

/-!
# `YmirC.Proofs.Mem`: address arithmetic without wrapping

The 64-bit operations agree with the operations on `Nat` inside their range, and the two
translations are inverse on the direct map.
-/

set_option autoImplicit false

namespace YmirC

theorem PAGE_SIZE_2MB_eq : PAGE_SIZE_2MB = 2097152 := rfl

theorem u64_of_lt {n : Nat} (h : n < 2 ^ 64) : u64 n = n := Nat.mod_eq_of_lt h

theorem u64_lt (n : Nat) : u64 n < 2 ^ 64 := Nat.mod_lt _ (by decide)

theorem sub64_of_le {a b : Nat} (hle : b ≤ a) (ha : a < 2 ^ 64) : sub64 a b = a - b := by
  unfold sub64
  rw [u64_of_lt (Nat.lt_of_le_of_lt hle ha)]
  unfold u64
  omega

theorem phys2virt_false (p : Nat) : phys2virt false p = p := by simp [phys2virt]

/-- After the reconstruction the direct map starts at `DIRECT_MAP_BASE`. -/
theorem phys2virt_true {p : Nat} (hp : p < DIRECT_MAP_SIZE) :
    phys2virt true p = p + DIRECT_MAP_BASE := by
  have hlt : p + DIRECT_MAP_BASE < 2 ^ 64 := by
    simp only [DIRECT_MAP_BASE, DIRECT_MAP_SIZE] at *
    omega
  simp only [phys2virt, Bool.not_true, Bool.false_eq_true, if_false, u64_of_lt hlt]

/-- In the direct map the two translations are inverse, in both modes. -/
theorem virt2phys_phys2virt (reconstructed : Bool) {p : Nat} (hp : p < DIRECT_MAP_SIZE) :
    virt2phys reconstructed (phys2virt reconstructed p) = p := by
  cases reconstructed with
  | false => simp [virt2phys, phys2virt_false]
  | true =>
      have hlt : p + DIRECT_MAP_BASE < KERNEL_BASE := by
        simp only [DIRECT_MAP_BASE, DIRECT_MAP_SIZE, KERNEL_BASE] at *
        omega
      have hmax : KERNEL_BASE < 2 ^ 64 := by decide
      rw [phys2virt_true hp]
      simp only [virt2phys, Bool.not_true, Bool.false_eq_true, if_false, if_pos hlt]
      rw [sub64_of_le (Nat.le_add_left _ _) (Nat.lt_trans hlt hmax), Nat.add_sub_cancel]

/-- Inside the direct map offsets and translations agree. -/
theorem phys2virt_add (reconstructed : Bool) {p off : Nat} (h : p + off < DIRECT_MAP_SIZE) :
    phys2virt reconstructed p + off = phys2virt reconstructed (p + off) := by
  cases reconstructed with
  | false => rw [phys2virt_false, phys2virt_false]
  | true => rw [phys2virt_true h, phys2virt_true (Nat.lt_of_le_of_lt (Nat.le_add_right p off) h),
      Nat.add_right_comm]

/-- A page-aligned address stays page aligned in both modes. -/
theorem phys2virt_mod_page (reconstructed : Bool) {p : Nat} (hp : p < DIRECT_MAP_SIZE)
    (hal : p % PAGE_SIZE = 0) : phys2virt reconstructed p % PAGE_SIZE = 0 := by
  cases reconstructed with
  | false => rw [phys2virt_false, hal]
  | true =>
      have hbase : DIRECT_MAP_BASE % PAGE_SIZE = 0 := by decide
      rw [phys2virt_true hp, Nat.add_mod, hal, hbase]
      decide

/-- An address of the direct map other than 0 is not `NULL` in either mode. -/
theorem phys2virt_ne_zero (reconstructed : Bool) {p : Nat} (hp : p < DIRECT_MAP_SIZE)
    (h0 : p ≠ 0) : phys2virt reconstructed p ≠ 0 := by
  cases reconstructed with
  | false => rwa [phys2virt_false]
  | true =>
      rw [phys2virt_true hp]
      omega

/-- A frame that is a multiple of the alignment in frames has an aligned address. -/
theorem frame_mul_mod {f a : Nat} (hal : a % PAGE_SIZE = 0) (hf : f % (a / PAGE_SIZE) = 0) :
    f * PAGE_SIZE % a = 0 := by
  obtain ⟨d, rfl⟩ := Nat.dvd_of_mod_eq_zero hal
  have hdiv : PAGE_SIZE * d / PAGE_SIZE = d := Nat.mul_div_cancel_left d (by decide)
  rw [hdiv] at hf
  obtain ⟨q, rfl⟩ := Nat.dvd_of_mod_eq_zero hf
  rw [Nat.mul_comm, ← Nat.mul_assoc]
  exact Nat.mul_mod_right _ _

end YmirC
