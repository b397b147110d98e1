import Mathlib.Algebra.Group.Nat.Defs
import Mathlib.Data.List.Basic

/-!
# `YmirC.Lib.ByteMemory`: byte-addressed memory with 64-bit words

Memory is a function from addresses to bytes. A 64-bit word is read and written as eight
bytes, lowest byte first. Two facts about words carry every proof over this memory: a load
sees the store at its own address (`load64_store64`), and no other store that does not touch
its eight bytes (`load64_store64_of_disjoint`).

`copyBytes`, `writeBytes` and `fillBytes` are the ascending byte loops of `memcpy` (inside this
memory and from outside) and `memset`. Their specifications say what every byte of memory is
afterwards (`copyBytes_apply`, `writeBytes_apply`, `fillBytes_apply`); the copy inside needs the
two ranges disjoint for that.
-/

set_option autoImplicit false

namespace ByteMemory

/-- Memory: the byte at each address. -/
abbrev Mem : Type := Nat → BitVec 8

/-- The `n` bytes at `a`, the first one lowest. -/
def loadBytes (m : Mem) (a : Nat) : (n : Nat) → BitVec (8 * n)
  | 0 => 0#0
  | n + 1 => (m (a + n) ++ loadBytes m a n).cast (by omega)

/-- The 64-bit word at `a`. -/
def load64 (m : Mem) (a : Nat) : BitVec 64 := loadBytes m a 8

/-- Memory with the `n` bytes of `v` at `a`, the lowest first. -/
def storeBytes (m : Mem) (a n : Nat) (v : BitVec (8 * n)) : Mem := fun b =>
  if a ≤ b ∧ b < a + n then v.extractLsb' (8 * (b - a)) 8 else m b

/-- Memory with the 64-bit word `v` at `a`. -/
def store64 (m : Mem) (a : Nat) (v : BitVec 64) : Mem := storeBytes m a 8 v

/-- The memory whose 64-bit word number `k` is `w k`. -/
def ofWords (w : Nat → BitVec 64) : Mem := fun a => (w (a / 8)).extractLsb' (8 * (a % 8)) 8

/-- The loop `while (n--) *d++ = *s++`. -/
def copyBytes (m : Mem) (dest src : Nat) : Nat → Mem
  | 0 => m
  | n + 1 =>
      let m' := copyBytes m dest src n
      fun b => if b = dest + n then m' (src + n) else m' b

/-- The loop `while (n--) *d++ = *s++` from an object outside this memory. -/
def writeBytes (m : Mem) (dest : Nat) (bytes : Nat → BitVec 8) : Nat → Mem
  | 0 => m
  | n + 1 => fun b => if b = dest + n then bytes n else writeBytes m dest bytes n b

/-- The loop `while (n--) *p++ = c`. -/
def fillBytes (m : Mem) (p : Nat) (c : BitVec 8) (n : Nat) : Mem := writeBytes m p (fun _ => c) n

/-! ### Words -/

/-- Bit `i` of a loaded value is bit `i % 8` of byte `i / 8`. -/
theorem getLsbD_loadBytes (m : Mem) (a i : Nat) :
    ∀ n, i < 8 * n → (loadBytes m a n).getLsbD i = (m (a + i / 8)).getLsbD (i % 8) := by
  intro n
  induction n with
  | zero => intro hi; omega
  | succ n ih =>
      intro hi
      simp only [loadBytes, BitVec.getLsbD_cast, BitVec.getLsbD_append]
      by_cases hlt : i < 8 * n
      · rw [if_pos hlt]
        exact ih hlt
      · have hdiv : i / 8 = n := by omega
        have hmod : i - 8 * n = i % 8 := by omega
        rw [if_neg hlt, hdiv, hmod]

theorem getLsbD_load64 (m : Mem) (a i : Nat) (hi : i < 64) :
    (load64 m a).getLsbD i = (m (a + i / 8)).getLsbD (i % 8) :=
  getLsbD_loadBytes m a i 8 hi

/-- A loaded value depends on its bytes only. -/
theorem loadBytes_congr {m m' : Mem} {a a' n : Nat} (h : ∀ k < n, m (a + k) = m' (a' + k)) :
    loadBytes m a n = loadBytes m' a' n := by
  apply BitVec.eq_of_getLsbD_eq
  intro i hi
  rw [getLsbD_loadBytes m a i n hi, getLsbD_loadBytes m' a' i n hi, h (i / 8) (by omega)]

theorem load64_congr {m m' : Mem} {a a' : Nat} (h : ∀ k < 8, m (a + k) = m' (a' + k)) :
    load64 m a = load64 m' a' :=
  loadBytes_congr h

/-- A load sees the store at its own address. -/
@[simp] theorem load64_store64 (m : Mem) (a : Nat) (v : BitVec 64) :
    load64 (store64 m a v) a = v := by
  apply BitVec.eq_of_getLsbD_eq
  intro i hi
  have hlt : a ≤ a + i / 8 ∧ a + i / 8 < a + 8 := by omega
  have hmod : i % 8 < 8 := by omega
  have hidx : 8 * (a + i / 8 - a) + i % 8 = i := by omega
  rw [getLsbD_load64 _ a i hi, store64, storeBytes, if_pos hlt, BitVec.getLsbD_extractLsb', hidx]
  simp [hmod]

/-- The bytes outside the stored ones are as before. -/
theorem storeBytes_apply_of_disjoint (m : Mem) (a n b : Nat) (v : BitVec (8 * n))
    (h : b < a ∨ a + n ≤ b) : storeBytes m a n v b = m b := by
  rw [storeBytes, if_neg (by omega)]

theorem store64_apply_of_disjoint (m : Mem) (a b : Nat) (v : BitVec 64)
    (h : b < a ∨ a + 8 ≤ b) : store64 m a v b = m b :=
  storeBytes_apply_of_disjoint m a 8 b v h

/-- A load does not see a store that touches none of its bytes. -/
theorem load64_store64_of_disjoint (m : Mem) (a b : Nat) (v : BitVec 64)
    (h : a + 8 ≤ b ∨ b + 8 ≤ a) : load64 (store64 m a v) b = load64 m b := by
  apply load64_congr
  intro k hk
  exact store64_apply_of_disjoint m a (b + k) v (by omega)

/-- A word of a memory given by its words. -/
theorem load64_ofWords (w : Nat → BitVec 64) (k : Nat) : load64 (ofWords w) (8 * k) = w k := by
  apply BitVec.eq_of_getLsbD_eq
  intro i hi
  have hword : (8 * k + i / 8) / 8 = k := by omega
  have hbit : 8 * ((8 * k + i / 8) % 8) + i % 8 = i := by omega
  have hmod : i % 8 < 8 := by omega
  rw [getLsbD_load64 _ _ i hi, ofWords, BitVec.getLsbD_extractLsb', hword, hbit]
  simp [hmod]

/-! ### Copying and filling -/

/-- A copy leaves the bytes outside its destination alone. -/
theorem copyBytes_apply_of_not_mem (m : Mem) (dest src b : Nat) :
    ∀ n, ¬ (dest ≤ b ∧ b < dest + n) → copyBytes m dest src n b = m b := by
  intro n
  induction n with
  | zero => intro _; rfl
  | succ n ih =>
      intro hb
      have hne : b ≠ dest + n := by omega
      show (if b = dest + n then _ else copyBytes m dest src n b) = m b
      rw [if_neg hne]
      exact ih (by omega)

/-- Every byte after a copy between disjoint ranges. -/
theorem copyBytes_apply (m : Mem) (dest src b : Nat) :
    ∀ n, (dest + n ≤ src ∨ src + n ≤ dest) → copyBytes m dest src n b
      = if dest ≤ b ∧ b < dest + n then m (src + (b - dest)) else m b := by
  intro n
  induction n with
  | zero =>
      intro _
      rw [if_neg (by omega)]
      rfl
  | succ n ih =>
      intro hdisj
      -- The source byte of this round is still the original one.
      have hsrc : copyBytes m dest src n (src + n) = m (src + n) :=
        copyBytes_apply_of_not_mem m dest src (src + n) n (by omega)
      show (if b = dest + n then copyBytes m dest src n (src + n)
        else copyBytes m dest src n b) = _
      rw [hsrc, ih (by omega)]
      by_cases hb : b = dest + n
      · have hin : dest ≤ b ∧ b < dest + (n + 1) := by omega
        have hoff : b - dest = n := by omega
        rw [if_pos hb, if_pos hin, hoff]
      · have hiff : (dest ≤ b ∧ b < dest + n) ↔ (dest ≤ b ∧ b < dest + (n + 1)) := by omega
        rw [if_neg hb, if_congr hiff rfl rfl]

/-- Every byte after a copy from outside. -/
theorem writeBytes_apply (m : Mem) (dest b : Nat) (bytes : Nat → BitVec 8) :
    ∀ n, writeBytes m dest bytes n b
      = if dest ≤ b ∧ b < dest + n then bytes (b - dest) else m b := by
  intro n
  induction n with
  | zero =>
      rw [if_neg (by omega)]
      rfl
  | succ n ih =>
      show (if b = dest + n then bytes n else writeBytes m dest bytes n b) = _
      by_cases hb : b = dest + n
      · have hoff : b - dest = n := by omega
        rw [if_pos hb, if_pos (by omega), hoff]
      · have hiff : (dest ≤ b ∧ b < dest + n) ↔ (dest ≤ b ∧ b < dest + (n + 1)) := by omega
        rw [if_neg hb, ih, if_congr hiff rfl rfl]

/-- Every byte after a fill. -/
theorem fillBytes_apply (m : Mem) (p b : Nat) (c : BitVec 8) (n : Nat) :
    fillBytes m p c n b = if p ≤ b ∧ b < p + n then c else m b :=
  writeBytes_apply m p b (fun _ => c) n

/-- A word inside the destination of a copy is the word at its place in the source. -/
theorem load64_copyBytes (m : Mem) (dest src n k : Nat)
    (hdisj : dest + n ≤ src ∨ src + n ≤ dest) (hk : k + 8 ≤ n) :
    load64 (copyBytes m dest src n) (dest + k) = load64 m (src + k) := by
  apply load64_congr
  intro j hj
  have hin : dest ≤ dest + k + j ∧ dest + k + j < dest + n := by omega
  have hoff : src + (dest + k + j - dest) = src + k + j := by omega
  rw [copyBytes_apply m dest src _ n hdisj, if_pos hin, hoff]

/-- A word outside the destination of a copy is as before. -/
theorem load64_copyBytes_of_disjoint (m : Mem) (dest src n a : Nat)
    (h : a + 8 ≤ dest ∨ dest + n ≤ a) :
    load64 (copyBytes m dest src n) a = load64 m a := by
  apply load64_congr
  intro j hj
  exact copyBytes_apply_of_not_mem m dest src (a + j) n (by omega)

end ByteMemory
