import Mathlib.Data.Nat.Digits.Lemmas
import YmirC.Log

/-!
# `YmirC.Proofs.Log.Digits`: the numerals of `log.c`

`write_int` fills its buffer with the decimal digits of a value, lowest first
(`intDigits_eq`), and prints the buffer backwards: the result is the decimal numeral of every
`int` except the smallest one, whose negation is itself (`writeInt_decimal_iff`). `write_hex`
prints sixteen digits that denote its argument (`denotesHex_hexLoop`).
-/

set_option autoImplicit false

namespace YmirC

/-! ### Decimal digits -/

/-- The character of a decimal digit. -/
def digitChar (d : Nat) : CChar := BitVec.ofNat 8 (48 + d)

/-- The decimal digits of a number, lowest first, with one digit for 0. -/
def decimalDigits (n : Nat) : List Nat := if n = 0 then [0] else Nat.digits 10 n

theorem decimalDigits_of_lt {n : Nat} (hn : n < 10) : decimalDigits n = [n] := by
  unfold decimalDigits
  split
  · next h0 => rw [h0]
  · next h0 => exact Nat.digits_of_lt 10 n h0 hn

theorem decimalDigits_of_ge {n : Nat} (hn : 10 ≤ n) :
    decimalDigits n = n % 10 :: decimalDigits (n / 10) := by
  rw [decimalDigits, if_neg (by omega), decimalDigits, if_neg (by omega),
    Nat.digits_def' (by decide) (by omega)]

/-- The remainder and the quotient of the loop, on a value that is not negative. -/
theorem srem_ofNat {n : Nat} (hn : n < 2 ^ 31) :
    (BitVec.ofNat 32 n).srem 10#32 = BitVec.ofNat 32 (n % 10) := by
  have hmsb : (BitVec.ofNat 32 n).msb = false := by
    rw [BitVec.msb_eq_false_iff_two_mul_lt, BitVec.toNat_ofNat]
    omega
  rw [BitVec.srem_eq, hmsb]
  apply BitVec.eq_of_toNat_eq
  show ((BitVec.ofNat 32 n).umod 10#32).toNat = _
  simp
  omega

theorem sdiv_ofNat {n : Nat} (hn : n < 2 ^ 31) :
    (BitVec.ofNat 32 n).sdiv 10#32 = BitVec.ofNat 32 (n / 10) := by
  have hmsb : (BitVec.ofNat 32 n).msb = false := by
    rw [BitVec.msb_eq_false_iff_two_mul_lt, BitVec.toNat_ofNat]
    omega
  rw [BitVec.sdiv_eq, hmsb]
  apply BitVec.eq_of_toNat_eq
  show ((BitVec.ofNat 32 n).udiv 10#32).toNat = _
  simp
  omega

theorem zero_slt_ofNat {n : Nat} (hn : n < 2 ^ 31) :
    (0#32).slt (BitVec.ofNat 32 n) = decide (0 < n) := by
  have hnat : (BitVec.ofNat 32 n).toNat = n := by
    rw [BitVec.toNat_ofNat]
    omega
  rw [BitVec.slt_eq_decide, BitVec.toInt_eq_toNat_of_lt (x := BitVec.ofNat 32 n) (by omega), hnat]
  simp

/-- The cell the loop fills. -/
theorem digit_cell {n : Nat} (hn : n < 2 ^ 31) :
    ((BitVec.ofNat 32 n).srem 10#32 + (ascii '0').setWidth 32).setWidth 8
      = digitChar (n % 10) := by
  rw [srem_ofNat hn]
  apply BitVec.eq_of_toNat_eq
  simp [digitChar, ascii]
  omega

/-- The loop of `write_int` fills one cell for every decimal digit. -/
theorem intDigits_eq (cells n : Nat) (hn : n < 2 ^ 31) (hcells : n < 10 ^ cells)
    (hpos : 0 < cells) :
    intDigits cells (BitVec.ofNat 32 n) = some ((decimalDigits n).map digitChar) := by
  induction cells generalizing n with
  | zero => omega
  | succ cells ih =>
      show (if (0#32).slt ((BitVec.ofNat 32 n).sdiv 10#32) then
          (intDigits cells ((BitVec.ofNat 32 n).sdiv 10#32)).map
            (((BitVec.ofNat 32 n).srem 10#32 + (ascii '0').setWidth 32).setWidth 8 :: ·)
        else some [((BitVec.ofNat 32 n).srem 10#32 + (ascii '0').setWidth 32).setWidth 8]) = _
      rw [digit_cell hn, sdiv_ofNat hn, zero_slt_ofNat (by omega)]
      by_cases hten : n < 10
      · -- The last digit: the quotient is 0.
        rw [if_neg (by simp; omega), decimalDigits_of_lt hten, Nat.mod_eq_of_lt hten]
        rfl
      · have hlt : n / 10 < 10 ^ cells := by
          rw [Nat.pow_succ] at hcells
          omega
        have hcells' : 0 < cells := by
          by_contra h0
          rw [show cells = 0 by omega] at hlt
          omega
        rw [if_pos (by simp; omega), ih (n / 10) (by omega) hlt hcells',
          decimalDigits_of_ge (n := n) (by omega)]
        rfl

/-! ### `write_int` -/

theorem length_decimalDigits_le {n k : Nat} (hk : 0 < k) (hn : n < 10 ^ k) :
    (decimalDigits n).length ≤ k := by
  unfold decimalDigits
  split
  · exact hk
  · exact Nat.digits_length_le_iff (by decide) n |>.mpr hn

/-- The magnitude `write_int` hands to its loop. -/
theorem negated_eq {v : BitVec 32} (hv : v ≠ 0x80000000#32) :
    (if v.slt 0#32 then -v else v) = BitVec.ofNat 32 v.toInt.natAbs ∧
      v.toInt.natAbs < 2 ^ 31 := by
  have hne : v.toNat ≠ 2 ^ 31 := fun h => hv (BitVec.eq_of_toNat_eq h)
  have hcond := BitVec.toInt_eq_toNat_cond v
  have hlt := v.isLt
  rw [BitVec.slt_eq_decide, BitVec.toInt_zero]
  by_cases hneg : v.toInt < 0
  · rw [decide_eq_true hneg, if_pos rfl]
    split at hcond
    · omega
    · refine ⟨BitVec.eq_of_toNat_eq ?_, by omega⟩
      rw [BitVec.toNat_neg, BitVec.toNat_ofNat]
      omega
  · rw [decide_eq_false hneg, if_neg (by decide)]
    split at hcond
    · refine ⟨BitVec.eq_of_toNat_eq ?_, by omega⟩
      rw [BitVec.toNat_ofNat]
      omega
    · omega

/-- The buffer of every `int` but the smallest. -/
theorem intBuffer_eq {v : BitVec 32} (hv : v ≠ 0x80000000#32) :
    intBuffer v = some ((decimalDigits v.toInt.natAbs).map digitChar
      ++ if v.slt 0#32 then [ascii '-'] else []) := by
  obtain ⟨hval, hlt⟩ := negated_eq hv
  have hlen := length_decimalDigits_le (n := v.toInt.natAbs) (k := 10) (by decide) (by omega)
  have hloop := intDigits_eq 12 v.toInt.natAbs hlt (by omega) (by decide)
  simp only [intBuffer, hval, hloop, Option.bind_eq_bind, Option.bind_some, List.length_map]
  cases v.slt 0#32 with
  | true => rw [if_pos rfl, if_pos (by omega), if_pos rfl]; rfl
  | false => simp

/-- `write_int` prints every `int`. -/
theorem writeInt_isSome (v : BitVec 32) : (writeInt v).isSome := by
  by_cases hv : v = 0x80000000#32
  · rw [hv]
    decide
  · rw [writeInt, intBuffer_eq hv]
    rfl

/-- `out` is the decimal form of `v`: a minus sign for the negative ones, then the digits of
the magnitude, without a leading zero. -/
def DecimalForm (v : BitVec 32) (out : List CChar) : Prop :=
  ∃ ds : List Nat, out = (if v.toInt < 0 then [ascii '-'] else []) ++ ds.map digitChar ∧
    (∀ d ∈ ds, d < 10) ∧ (ds = [0] ∨ ∃ d rest, ds = d :: rest ∧ d ≠ 0) ∧
    Nat.ofDigits 10 ds.reverse = v.toInt.natAbs

/-- The digits of a number, highest first, are its numeral. -/
theorem decimalDigits_reverse (n : Nat) :
    (∀ d ∈ (decimalDigits n).reverse, d < 10) ∧
      ((decimalDigits n).reverse = [0] ∨
        ∃ d rest, (decimalDigits n).reverse = d :: rest ∧ d ≠ 0) ∧
      Nat.ofDigits 10 (decimalDigits n) = n := by
  unfold decimalDigits
  split
  · next h0 =>
    rw [h0]
    exact ⟨by simp, Or.inl rfl, rfl⟩
  · next h0 =>
    refine ⟨?_, ?_, Nat.ofDigits_digits 10 n⟩
    · intro d hd
      exact Nat.digits_lt_base (by decide) (List.mem_reverse.mp hd)
    · -- The highest digit is the last one of the list, and not zero.
      have hne : Nat.digits 10 n ≠ [] := Nat.digits_ne_nil_iff_ne_zero.mpr h0
      have hlast := Nat.getLast_digit_ne_zero 10 h0
      refine Or.inr ⟨(Nat.digits 10 n).getLast hne, (Nat.digits 10 n).dropLast.reverse, ?_, hlast⟩
      conv_lhs => rw [← List.dropLast_append_getLast hne]
      rw [List.reverse_append, List.reverse_singleton]
      rfl

/-- The negation of the smallest `int` is itself: its remainder is negative, and one character
before the digits comes out behind the sign. -/
theorem writeInt_min : writeInt 0x80000000#32 = some [ascii '-', ascii '('] := by decide

/-- One character is too few for the digits of its magnitude. -/
theorem not_decimalForm_min : ¬ DecimalForm 0x80000000#32 [ascii '-', ascii '('] := by
  rintro ⟨ds, hds, hdigits, -, hvalue⟩
  have hlen := congrArg List.length hds
  rw [if_pos (by decide)] at hlen
  simp only [List.length_append, List.length_map, List.length_cons, List.length_nil] at hlen
  have hlong : Nat.ofDigits 10 ds.reverse < 10 ^ ds.reverse.length :=
    Nat.ofDigits_lt_base_pow_length (by decide) fun d hd => hdigits d (List.mem_reverse.mp hd)
  rw [hvalue, List.length_reverse, show ds.length = 1 by omega] at hlong
  exact absurd hlong (by decide)

/-- `write_int` prints the decimal form, from at most 12 cells, of every `int` that has a
negation. -/
theorem writeInt_decimal_iff (v : BitVec 32) :
    (∃ buf out, intBuffer v = some buf ∧ buf.length ≤ 12 ∧ writeInt v = some out ∧
      DecimalForm v out) ↔ v ≠ 0x80000000#32 := by
  constructor
  · rintro ⟨buf, out, -, -, hout, hform⟩ rfl
    rw [writeInt_min] at hout
    obtain rfl := Option.some.inj hout
    exact not_decimalForm_min hform
  · intro hv
    have hbuf := intBuffer_eq hv
    obtain ⟨-, hlt⟩ := negated_eq hv
    have hlen := length_decimalDigits_le (n := v.toInt.natAbs) (k := 10) (by decide) (by omega)
    obtain ⟨hdigits, hlead, hvalue⟩ := decimalDigits_reverse v.toInt.natAbs
    refine ⟨_, _, hbuf, ?_, by rw [writeInt, hbuf]; rfl, (decimalDigits v.toInt.natAbs).reverse,
      ?_, hdigits, hlead, by rw [List.reverse_reverse]; exact hvalue⟩
    · rw [List.length_append, List.length_map]
      split <;> simp <;> omega
    · rw [List.reverse_append, List.map_reverse, BitVec.slt_eq_decide, BitVec.toInt_zero]
      by_cases hneg : v.toInt < 0
      · simp [hneg]
      · simp [hneg]

/-- `write_int(INT_MIN)` prints `-(`. -/
theorem not_writeInt_decimal :
    ¬ ∀ v : BitVec 32, ∃ buf out, intBuffer v = some buf ∧ buf.length ≤ 12 ∧
      writeInt v = some out ∧ DecimalForm v out := by
  intro h
  obtain ⟨buf, out, -, -, hout, hform⟩ := h 0x80000000#32
  rw [writeInt_min] at hout
  obtain rfl := Option.some.inj hout
  exact not_decimalForm_min hform

/-! ### `write_hex` -/

/-- `text` are sixteen upper-case hexadecimal digits that denote `v`. -/
def DenotesHex (v : BitVec 64) (text : List CChar) : Prop :=
  text.length = 16 ∧ (∀ c ∈ text, c ∈ hexDigits) ∧
    Nat.ofDigits 16 (text.reverse.map hexDigits.idxOf) = v.toNat

/-- The digit the loop picks. -/
theorem hexDigit_eq (value : BitVec 64) (i : Nat) :
    (value >>> (i * 4) &&& 0xF#64).toNat = value.toNat / 16 ^ i % 16 := by
  rw [BitVec.toNat_and, BitVec.toNat_ushiftRight, Nat.shiftRight_eq_div_pow,
    show (0xF#64).toNat = 2 ^ 4 - 1 by decide, Nat.and_two_pow_sub_one_eq_mod, Nat.mul_comm,
    Nat.pow_mul]

theorem idxOf_hexDigits {d : Nat} (hd : d < 16) : hexDigits.idxOf (hexDigits.getD d 0#8) = d := by
  revert d
  decide

theorem getD_mem_hexDigits {d : Nat} (hd : d < 16) : hexDigits.getD d 0#8 ∈ hexDigits := by
  revert d
  decide

theorem getD_idxOf_hexDigits {c : CChar} (hc : c ∈ hexDigits) :
    hexDigits.getD (hexDigits.idxOf c) 0#8 = c := by
  revert c
  decide

/-- `n` rounds of the loop print `n` digits, which denote the value modulo `16 ^ n`. -/
theorem hexLoop_spec (value : BitVec 64) (n : Nat) :
    (hexLoop value n).length = n ∧ (∀ c ∈ hexLoop value n, c ∈ hexDigits) ∧
      Nat.ofDigits 16 ((hexLoop value n).reverse.map hexDigits.idxOf) = value.toNat % 16 ^ n := by
  induction n with
  | zero => simp [hexLoop, Nat.mod_one]
  | succ n ih =>
      obtain ⟨hlen, hmem, hvalue⟩ := ih
      have hd : value.toNat / 16 ^ n % 16 < 16 := Nat.mod_lt _ (by decide)
      rw [hexLoop, hexDigit_eq]
      refine ⟨by rw [List.length_cons, hlen], ?_, ?_⟩
      · intro c hc
        cases List.mem_cons.mp hc with
        | inl heq => exact heq ▸ getD_mem_hexDigits hd
        | inr htail => exact hmem c htail
      · rw [List.reverse_cons, List.map_append, Nat.ofDigits_append, hvalue, List.length_map,
          List.length_reverse, hlen, List.map_singleton, idxOf_hexDigits hd,
          Nat.ofDigits_singleton, Nat.pow_succ, Nat.mod_mul]

theorem denotesHex_hexLoop (value : BitVec 64) : DenotesHex value (hexLoop value 16) := by
  obtain ⟨hlen, hmem, hvalue⟩ := hexLoop_spec value 16
  refine ⟨hlen, hmem, ?_⟩
  rw [hvalue]
  exact Nat.mod_eq_of_lt value.isLt

/-- Sixteen digits are determined by the value they denote. -/
theorem DenotesHex.unique {v : BitVec 64} {text text' : List CChar} (h : DenotesHex v text)
    (h' : DenotesHex v text') : text = text' := by
  obtain ⟨hlen, hmem, hvalue⟩ := h
  obtain ⟨hlen', hmem', hvalue'⟩ := h'
  have hlt : ∀ (t : List CChar), (∀ c ∈ t, c ∈ hexDigits) →
      ∀ d ∈ t.reverse.map hexDigits.idxOf, d < 16 := by
    intro t ht d hd
    obtain ⟨c, hc, rfl⟩ := List.mem_map.mp hd
    exact List.idxOf_lt_length_of_mem (ht c (List.mem_reverse.mp hc))
  have hdigits := Nat.ofDigits_inj_of_len_eq (b := 16) (by decide)
    (by simp [hlen, hlen']) (hlt text hmem) (hlt text' hmem') (hvalue.trans hvalue'.symm)
  -- Each digit is found again from its value.
  have hback : ∀ (t : List CChar), (∀ c ∈ t, c ∈ hexDigits) →
      (t.reverse.map hexDigits.idxOf).map (hexDigits.getD · 0#8) = t.reverse := by
    intro t ht
    rw [List.map_map]
    exact (List.map_congr_left fun c hc =>
      getD_idxOf_hexDigits (ht c (List.mem_reverse.mp hc))).trans (List.map_id _)
  rw [← List.reverse_inj, ← hback text hmem, hdigits, hback text' hmem']

end YmirC
