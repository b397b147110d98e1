import Mathlib.Algebra.Group.Nat.Defs

/-!
# `YmirC.Bits`: the helpers of `ymirc/bits.h`

The unsigned C types are bit vectors of the same width. A shift count is the `unsigned int`
the source passes, as a `Nat`. Every helper of the source that guards its count
(`if (nth >= 64) return 0`) keeps the guard.

The 128-bit helpers call `__builtin_ctzll` on a mask that C narrows to 64 bits, and shift by
counts nothing bounds. What GCC leaves undefined stays open in the model: the builtin is a
parameter known on nonzero arguments only (`IsCtzll`), and a shift outside the width of its
operand has no result (`shiftLeft?`).
-/

set_option autoImplicit false

namespace YmirC

/-- `tobit`. -/
def tobit (nth : Nat) : BitVec 64 := if nth ≥ 64 then 0#64 else 1#64 <<< nth

/-- `tobit_16`. -/
def tobit16 (nth : Nat) : BitVec 16 := if nth ≥ 16 then 0#16 else 1#16 <<< nth

/-- `tobit_8`. -/
def tobit8 (nth : Nat) : BitVec 8 := if nth ≥ 8 then 0#8 else 1#8 <<< nth

/-- `isset`. -/
def isset (val : BitVec 64) (nth : Nat) : Bool :=
  if nth ≥ 64 then false else val >>> nth &&& 1#64 != 0#64

/-- `isset_8`. -/
def isset8 (val : BitVec 8) (nth : Nat) : Bool :=
  if nth ≥ 8 then false else val >>> nth &&& 1#8 != 0#8

/-- `isset_16`. -/
def isset16 (val : BitVec 16) (nth : Nat) : Bool :=
  if nth ≥ 16 then false else val >>> nth &&& 1#16 != 0#16

/-- `concat_64`. -/
def concat64 (a b : BitVec 64) : BitVec 64 :=
  ((a &&& 0xFFFFFFFF#64) <<< 32) ||| (b &&& 0xFFFFFFFF#64)

/-- `__builtin_ctzll` on a nonzero argument: the index of the lowest set bit. GCC leaves the
result for 0 undefined; the search below answers 64 there, and no caller relies on it. -/
def ctzll (mask : BitVec 64) : Nat :=
  ((List.range 64).find? (fun i => mask.getLsbD i)).getD 64

/-- `set_masked_bits`, returning the new value of `*target`. -/
def setMaskedBits (target val mask : BitVec 64) : BitVec 64 :=
  let shift := ctzll mask
  (target &&& ~~~mask) ||| ((val <<< shift) &&& mask)

/-- `get_lower_bits`. -/
def getLowerBits (val : BitVec 64) (bits : BitVec 8) : BitVec 64 :=
  if bits.toNat ≥ 64 then val else val &&& ((1#64 <<< bits.toNat) - 1#64)

/-- `ctz` may be the compiler's `__builtin_ctzll`: its result is documented for every nonzero
argument, and any `int` may come back for 0. -/
def IsCtzll (ctz : BitVec 64 → Int) : Prop := ∀ mask, mask ≠ 0#64 → ctz mask = ctzll mask

/-- `x << n`, which C defines for a count from 0 up to the width of `x`, exclusive. -/
def shiftLeft? {w : Nat} (x : BitVec w) (n : Int) : Option (BitVec w) :=
  if 0 ≤ n ∧ n < w then some (x <<< n.toNat) else none

/-- `set_masked_bits_128`, returning the new value of `*target`. The argument of
`__builtin_ctzll` is an `unsigned long long`: the call keeps the low 64 bits of the mask. -/
def setMaskedBits128 (ctz : BitVec 64 → Int) (target val mask : BitVec 128) :
    Option (BitVec 128) := do
  let shift := ctz (mask.setWidth 64)
  let shifted ← shiftLeft? val shift
  return (target &&& ~~~mask) ||| (shifted &&& mask)

/-- `get_lower_bits_128`. The literal `1ULL` has 64 bits, and so has what is subtracted from
it; only the result is widened. -/
def getLowerBits128 (val : BitVec 128) (bits : BitVec 8) : Option (BitVec 128) :=
  if bits.toNat ≥ 128 then some val else do
    let one ← shiftLeft? 1#64 (bits.toNat : Int)
    return val &&& (one - 1#64).setWidth 128

end YmirC
