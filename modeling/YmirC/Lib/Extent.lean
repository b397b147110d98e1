import Mathlib.Algebra.Group.Nat.Defs
import Mathlib.Data.List.Basic

/-!
# `YmirC.Lib.Extent`: half-open ranges of numbers

A block of frames or of bytes is an extent `[start, start + len)`. Two extents are
disjoint when they share no number. `Extent.exists_mem_of_overlap` turns the usual
comparison of the ends of two nonempty extents into a number both hold.
-/

set_option autoImplicit false

/-- The numbers `start, …, start + len - 1`. -/
structure Extent where
  start : Nat
  len : Nat
  deriving DecidableEq, Repr

namespace Extent

instance : Membership Nat Extent where
  mem I x := I.start ≤ x ∧ x < I.start + I.len

theorem mem_def (I : Extent) (x : Nat) : x ∈ I ↔ I.start ≤ x ∧ x < I.start + I.len := Iff.rfl

@[simp] theorem mem_mk (a n x : Nat) : x ∈ Extent.mk a n ↔ a ≤ x ∧ x < a + n := Iff.rfl

instance (I : Extent) (x : Nat) : Decidable (x ∈ I) :=
  inferInstanceAs (Decidable (_ ∧ _))

/-- The two extents share no number. -/
def Disjoint (I J : Extent) : Prop := ∀ x, x ∈ I → x ∉ J

theorem Disjoint.symm {I J : Extent} (h : I.Disjoint J) : J.Disjoint I :=
  fun x hJ hI => h x hI hJ

/-- Two nonempty extents that each start before the other ends share a number. -/
theorem exists_mem_of_overlap {I J : Extent} (hI : 0 < I.len) (hJ : 0 < J.len)
    (h1 : I.start < J.start + J.len) (h2 : J.start < I.start + I.len) :
    ∃ x, x ∈ I ∧ x ∈ J := by
  rcases Nat.le_total I.start J.start with hle | hle
  · exact ⟨J.start, ⟨hle, h2⟩, ⟨Nat.le_refl _, by omega⟩⟩
  · exact ⟨I.start, ⟨Nat.le_refl _, by omega⟩, ⟨hle, h1⟩⟩

end Extent
