import YmirC.Proofs.Log.Digits

/-!
# `YmirC.Proofs.Log.Printf`: what `log_printf` reads and writes

A format is read from the left as a list of pieces (`pieces`): ordinary characters, and `%`
with the character behind it. What may be left over is a single `%` before the NUL.

One turn of the loop is one piece (`printLoop_piece`), so a whole format is a run over its
pieces (`printLoop_pieces`). Behind the last piece the loop finds the NUL and stops
(`logPrintf_pieces`), unless a `%` dangles there: then the conversion takes the NUL for its
character, writes it, and the loop goes on behind it (`printLoop_dangling`).

`Formats` is the reference: one rule for every kind of piece.
-/

set_option autoImplicit false

namespace YmirC

/-! ### The pieces of a format -/

/-- A piece of a format: an ordinary character, or `%` and the character behind it. -/
inductive Piece where
  | char (c : CChar)
  | conv (c : CChar)
  deriving DecidableEq

/-- The characters of a piece. -/
def Piece.chars : Piece → List CChar
  | .char c => [c]
  | .conv c => [ascii '%', c]

/-- The pieces of a format, from the left. -/
def pieces : List CChar → List Piece
  | [] => []
  | [c] => if c = ascii '%' then [] else [.char c]
  | c :: c' :: fmt =>
      if c = ascii '%' then .conv c' :: pieces fmt else .char c :: pieces (c' :: fmt)

/-- The format ends in a `%` that no piece takes. -/
def dangling : List CChar → Bool
  | [] => false
  | [c] => c == ascii '%'
  | c :: c' :: fmt => if c = ascii '%' then dangling fmt else dangling (c' :: fmt)

/-- A format is its pieces and the `%` that may dangle. -/
theorem pieces_chars (fmt : List CChar) :
    fmt = (pieces fmt).flatMap Piece.chars ++ if dangling fmt then [ascii '%'] else [] := by
  induction fmt using pieces.induct with
  | case1 => simp [pieces, dangling]
  | case2 => simp [pieces, dangling]
  | case3 c hc => simp [pieces, dangling, hc, Piece.chars]
  | case4 c' fmt ih => simpa [pieces, dangling, Piece.chars] using ih
  | case5 c c' fmt hc ih => simpa [pieces, dangling, hc, Piece.chars] using ih

/-- An ordinary character is not `%`. -/
theorem ne_of_mem_pieces {fmt : List CChar} {c : CChar} (h : Piece.char c ∈ pieces fmt) :
    c ≠ ascii '%' := by
  induction fmt using pieces.induct with
  | case1 => cases h
  | case2 => simp [pieces] at h
  | case3 c₀ hc => simp [pieces, hc] at h; exact h ▸ hc
  | case4 c' fmt ih =>
      simp only [pieces, if_true, List.mem_cons, reduceCtorEq, false_or] at h
      exact ih h
  | case5 c₀ c' fmt hc ih =>
      rw [pieces, if_neg hc] at h
      cases List.mem_cons.mp h with
      | inl heq =>
          obtain rfl := Piece.char.inj heq
          exact hc
      | inr htail => exact ih htail

/-! ### Memory behind a string -/

theorem CString.byte_append {s : CString} {pre rest : List CChar} {c : CChar}
    (h : s.chars = pre ++ c :: rest) : s.byte pre.length = c := by
  rw [CString.byte, if_neg (by rw [h]; simp), h]
  simp

theorem CString.byte_length (s : CString) : s.byte s.chars.length = 0#8 := if_pos rfl

/-- `write_string` prints the characters before the NUL. -/
theorem writeString_nul {str : List CChar} (h : 0#8 ∉ str) : writeString (str ++ [0#8]) = str := by
  induction str with
  | nil => rfl
  | cons c str ih =>
      have hc : c ≠ 0#8 := fun heq => h (heq ▸ List.mem_cons_self)
      rw [List.cons_append, writeString, if_neg hc, ih fun hmem => h (List.mem_cons_of_mem c hmem)]

/-! ### One turn of the loop -/

theorem Trace.after_after (out out' : List CChar) (reads reads' : List Nat) (t : Trace) :
    Trace.after out reads (Trace.after out' reads' t)
      = Trace.after (out ++ out') (reads ++ reads') t := by
  simp [Trace.after]

theorem Trace.after_nil : Trace.after [] [] = id := rfl

/-- The text of a piece at argument `k`, and the next argument. -/
def Piece.text (args : VaList) (k : Nat) : Piece → Option (List CChar × Nat)
  | .char c => some ([c], k)
  | .conv c => conversion args k c

/-- The text of a list of pieces. -/
def piecesText (args : VaList) : (k : Nat) → List Piece → Option (List CChar × Nat)
  | k, [] => some ([], k)
  | k, p :: ps =>
      (p.text args k).bind fun (text, k') =>
        (piecesText args k' ps).map fun (rest, last) => (text ++ rest, last)

theorem piecesText_cons {va : VaList} {k k₁ k' : Nat} {p : Piece} {ps : List Piece}
    {text rest : List CChar} (hp : p.text va k = some (text, k₁))
    (hps : piecesText va k₁ ps = some (rest, k')) :
    piecesText va k (p :: ps) = some (text ++ rest, k') := by
  rw [piecesText, hp]
  show (piecesText va k₁ ps).map (fun (rest, last) => (text ++ rest, last)) = _
  rw [hps]
  rfl

section Loop
variable {fmt : CString} {args : VaList} {fuel i k : Nat}

theorem printLoop_nul (h : fmt.byte i = 0#8) :
    printLoop fmt args (fuel + 1) i k = some { out := [], reads := [i], used := k } :=
  if_pos h

/-- One turn on a conversion takes `%` and the character behind it, whatever that is. -/
theorem printLoop_conv {text : List CChar} {k' : Nat} (h : fmt.byte i = ascii '%')
    (hconv : conversion args k (fmt.byte (i + 1)) = some (text, k')) :
    printLoop fmt args (fuel + 1) i k
      = (printLoop fmt args fuel (i + 2) k').map (Trace.after text [i, i + 1]) := by
  rw [printLoop, h, if_neg (by decide), if_pos rfl, hconv]
  rfl

/-- One turn of the loop is one piece. -/
theorem printLoop_piece (fuel : Nat) {pre rest text : List CChar} {p : Piece} {k' : Nat}
    (hmem : fmt.chars = pre ++ p.chars ++ rest) (hp : ∀ c, p = .char c → c ≠ ascii '%')
    (htext : p.text args k = some (text, k')) :
    printLoop fmt args (fuel + 1) pre.length k
      = (printLoop fmt args fuel (pre ++ p.chars).length k').map
          (Trace.after text (List.range' pre.length p.chars.length)) := by
  cases p with
  | char c =>
      have hchars : fmt.chars = pre ++ c :: rest := by simpa [Piece.chars] using hmem
      have hbyte : fmt.byte pre.length = c := CString.byte_append hchars
      have hc0 : c ≠ 0#8 := by
        rintro rfl
        exact fmt.nonzero (by rw [hchars]; simp)
      obtain ⟨rfl, rfl⟩ : [c] = text ∧ k = k' := by simpa [Piece.text] using htext
      rw [printLoop, hbyte, if_neg hc0, if_neg (hp c rfl), List.length_append]
      rfl
  | conv c =>
      have hpercent : fmt.byte pre.length = ascii '%' :=
        CString.byte_append (show fmt.chars = pre ++ ascii '%' :: (c :: rest) by
          simpa [Piece.chars] using hmem)
      have hbyte : fmt.byte (pre.length + 1) = c := by
        have hchars : fmt.chars = (pre ++ [ascii '%']) ++ c :: rest := by
          simpa [Piece.chars] using hmem
        simpa using CString.byte_append hchars
      rw [printLoop_conv hpercent (hbyte ▸ htext), List.length_append]
      rfl

/-- A run over pieces: one unit of fuel each, the text in order, and every character read. -/
theorem printLoop_pieces (fuel : Nat) (ps : List Piece) {pre rest text : List CChar}
    {k k' : Nat} (hmem : fmt.chars = pre ++ ps.flatMap Piece.chars ++ rest)
    (hps : ∀ c, Piece.char c ∈ ps → c ≠ ascii '%')
    (htext : piecesText args k ps = some (text, k')) :
    printLoop fmt args (fuel + ps.length) pre.length k
      = (printLoop fmt args fuel (pre ++ ps.flatMap Piece.chars).length k').map
          (Trace.after text (List.range' pre.length (ps.flatMap Piece.chars).length)) := by
  induction ps generalizing pre text k with
  | nil =>
      obtain ⟨rfl, rfl⟩ : [] = text ∧ k = k' := by simpa [piecesText] using htext
      simp [Trace.after_nil]
  | cons p ps ih =>
      obtain ⟨⟨head, k₁⟩, hhead, htail⟩ := Option.bind_eq_some_iff.mp htext
      obtain ⟨⟨tail, last⟩, hrest, heq⟩ := Option.map_eq_some_iff.mp htail
      obtain ⟨rfl, rfl⟩ : head ++ tail = text ∧ last = k' := by simpa using heq
      have hmem₁ : fmt.chars = pre ++ p.chars ++ (ps.flatMap Piece.chars ++ rest) := by
        simpa using hmem
      have hmem₂ : fmt.chars = (pre ++ p.chars) ++ ps.flatMap Piece.chars ++ rest := by
        simpa using hmem
      have hstep := printLoop_piece (fuel + ps.length) hmem₁
        (fun c hc => hps c (hc ▸ List.mem_cons_self)) hhead
      have hrun := ih hmem₂ (fun c hc => hps c (List.mem_cons_of_mem p hc)) hrest
      rw [List.length_cons, ← Nat.add_assoc, hstep, hrun, Option.map_map]
      simp [Function.comp_def, Trace.after_after, List.range'_append_1,
        List.flatMap_cons]

/-- Every run that ends has read the character it started at. -/
theorem mem_reads_of_printLoop {t : Trace} (h : printLoop fmt args fuel i k = some t) :
    i ∈ t.reads := by
  cases fuel with
  | zero => cases h
  | succ fuel =>
      rw [printLoop] at h
      split at h
      · obtain rfl := Option.some.inj h
        exact List.mem_singleton_self i
      · split at h
        · obtain ⟨_, _, hmap⟩ := Option.bind_eq_some_iff.mp h
          obtain ⟨t', -, rfl⟩ := Option.map_eq_some_iff.mp hmap
          simp [Trace.after]
        · obtain ⟨t', -, rfl⟩ := Option.map_eq_some_iff.mp h
          simp [Trace.after]

end Loop

/-! ### A whole format -/

theorem zero_notMem_writeInt {v : BitVec 32} {text : List CChar} (h : writeInt v = some text) :
    0#8 ∉ text := by
  by_cases hv : v = 0x80000000#32
  · rw [hv, writeInt_min] at h
    obtain rfl := Option.some.inj h
    decide
  · rw [writeInt, intBuffer_eq hv] at h
    obtain rfl := Option.some.inj h
    intro hmem
    rw [List.mem_reverse, List.mem_append, List.mem_map] at hmem
    rcases hmem with ⟨d, hd, heq⟩ | hmem
    · have hlt := (decimalDigits_reverse v.toInt.natAbs).1 d (List.mem_reverse.mpr hd)
      have hnat := congrArg BitVec.toNat heq
      simp [digitChar] at hnat
      omega
    · split at hmem <;> simp [ascii] at hmem

theorem zero_notMem_hexLoop (value : BitVec 64) : 0#8 ∉ hexLoop value 16 := fun h =>
  absurd ((denotesHex_hexLoop value).2.1 _ h) (by decide)

/-- A conversion of a character of the format has a text, without a NUL. -/
theorem conversion_text (args : VaList) (k : Nat) {c : CChar} (hc : c ≠ 0#8) :
    ∃ text k', conversion args k c = some (text, k') ∧ 0#8 ∉ text := by
  unfold conversion
  split
  · obtain ⟨text, htext⟩ := Option.isSome_iff_exists.mp
      (writeInt_isSome ((args.slot k).setWidth 32))
    exact ⟨text, k + 1, by rw [htext]; rfl, zero_notMem_writeInt htext⟩
  split
  · exact ⟨_, _, rfl, zero_notMem_hexLoop _⟩
  split
  · refine ⟨_, _, rfl, ?_⟩
    have hdigits := zero_notMem_hexLoop (args.slot k)
    simpa [writePtr, ascii] using hdigits
  split
  · have hstr := (args.string (args.slot k)).nonzero
    exact ⟨_, _, rfl, by rwa [writeString_nul hstr]⟩
  split
  · exact ⟨_, _, rfl, by decide⟩
  · exact ⟨_, _, rfl, by simpa [ascii] using hc.symm⟩

/-- So has a list of pieces. -/
theorem piecesText_text (args : VaList) (k : Nat) {ps : List Piece}
    (h : ∀ p ∈ ps, 0#8 ∉ p.chars) : ∃ text k', piecesText args k ps = some (text, k') ∧
      0#8 ∉ text := by
  induction ps generalizing k with
  | nil => exact ⟨[], k, rfl, List.not_mem_nil⟩
  | cons p ps ih =>
      have hp := h p List.mem_cons_self
      obtain ⟨head, k₁, hhead, h0⟩ : ∃ head k₁, p.text args k = some (head, k₁) ∧ 0#8 ∉ head := by
        cases p with
        | char c => exact ⟨[c], k, rfl, hp⟩
        | conv c => exact conversion_text args k fun heq => hp (by simp [Piece.chars, heq])
      obtain ⟨tail, k', htail, h0'⟩ := ih k₁ fun q hq => h q (List.mem_cons_of_mem p hq)
      exact ⟨head ++ tail, k', piecesText_cons hhead htail, by simp [h0, h0']⟩

section Format
variable {fmt : CString} {args : VaList} {text : List CChar} {k : Nat}

theorem zero_notMem_pieces (fmt : CString) : ∀ p ∈ pieces fmt.chars, 0#8 ∉ p.chars := by
  intro p hp h0
  apply fmt.nonzero
  rw [pieces_chars fmt.chars]
  exact List.mem_append_left _ (List.mem_flatMap.mpr ⟨p, hp, h0⟩)

theorem writeString_levelStr (level : Int) :
    writeString (levelStr level ++ [0#8]) = levelStr level ∧ 0#8 ∉ levelStr level := by
  have h0 : 0#8 ∉ levelStr level := by
    unfold levelStr
    repeat' split
    all_goals decide
  exact ⟨writeString_nul h0, h0⟩

/-- A format without a dangling `%`: the loop stops at the NUL. -/
theorem logPrintf_pieces (level : Int) (hfmt : dangling fmt.chars = false)
    (htext : piecesText args 0 (pieces fmt.chars) = some (text, k)) {fuel : Nat}
    (hfuel : (pieces fmt.chars).length < fuel) :
    logPrintf true fuel level fmt args
      = some { out := levelStr level ++ text, reads := List.range' 0 (fmt.chars.length + 1),
               used := k } := by
  obtain ⟨spare, rfl⟩ : ∃ spare, fuel = spare + 1 + (pieces fmt.chars).length :=
    ⟨fuel - 1 - (pieces fmt.chars).length, by omega⟩
  have hchars := pieces_chars fmt.chars
  rw [hfmt] at hchars
  have hall : (pieces fmt.chars).flatMap Piece.chars = fmt.chars := by simpa using hchars.symm
  have hmem : fmt.chars = [] ++ (pieces fmt.chars).flatMap Piece.chars ++ [] := by
    simpa using hall.symm
  have hrun := printLoop_pieces (spare + 1) (pieces fmt.chars) hmem
    (fun c hc => ne_of_mem_pieces hc) htext
  rw [List.nil_append, hall, printLoop_nul fmt.byte_length] at hrun
  rw [logPrintf, if_pos rfl, (writeString_levelStr level).1,
    show printLoop fmt args _ 0 0 = _ from hrun]
  simp [Trace.after, List.range'_concat]

/-- A format with a dangling `%`: the conversion reads the NUL, writes it, and the loop goes on
at the character behind it. -/
theorem printLoop_dangling (hfmt : dangling fmt.chars = true)
    (htext : piecesText args 0 (pieces fmt.chars) = some (text, k)) (fuel : Nat) :
    printLoop fmt args (fuel + 1 + (pieces fmt.chars).length) 0 0
      = (printLoop fmt args fuel (fmt.chars.length + 1) k).map
          (Trace.after (text ++ [ascii '%', 0#8]) (List.range' 0 (fmt.chars.length + 1))) := by
  have hchars := pieces_chars fmt.chars
  rw [hfmt, if_pos rfl] at hchars
  have hlen := congrArg List.length hchars
  rw [List.length_append, List.length_singleton] at hlen
  have hmem : fmt.chars = [] ++ (pieces fmt.chars).flatMap Piece.chars ++ [ascii '%'] := by
    simpa using hchars
  have hrun := printLoop_pieces (fuel + 1) (pieces fmt.chars) hmem
    (fun c hc => ne_of_mem_pieces hc) htext
  have hpercent := CString.byte_append hchars
  have hnul : fmt.byte (((pieces fmt.chars).flatMap Piece.chars).length + 1) = 0#8 := by
    rw [← hlen]
    exact fmt.byte_length
  have hconv : conversion args k
      (fmt.byte (((pieces fmt.chars).flatMap Piece.chars).length + 1))
        = some ([ascii '%', 0#8], k) := by
    rw [hnul]
    rfl
  rw [List.nil_append, printLoop_conv hpercent hconv, Option.map_map] at hrun
  rw [show printLoop fmt args _ 0 0 = _ from hrun, hlen]
  simp [Function.comp_def, Trace.after_after, List.range'_concat]

end Format

/-! ### The format is not read past its NUL -/

/-- The call ends, reads no character of the format behind its NUL, and writes no NUL. -/
def PrintsSafely (isSet : Bool) (level : Int) (fmt : CString) (args : VaList) : Prop :=
  ∃ n t, (∀ fuel ≥ n, logPrintf isSet fuel level fmt args = some t) ∧
    (∀ i ∈ t.reads, i ≤ fmt.chars.length) ∧ 0#8 ∉ t.out

/-- `log_printf` is safe on a format exactly when no `%` dangles at its end, or nothing is
printed at all. -/
theorem logPrintf_safe_iff (isSet : Bool) (level : Int) (fmt : CString) (args : VaList) :
    PrintsSafely isSet level fmt args ↔ isSet = false ∨ dangling fmt.chars = false := by
  obtain ⟨text, k, htext, h0⟩ := piecesText_text args 0 (zero_notMem_pieces fmt)
  constructor
  · rintro ⟨n, t, hrun, hreads, -⟩
    by_contra hnot
    obtain ⟨hset, hfmt⟩ := not_or.mp hnot
    rw [Bool.not_eq_false] at hset hfmt
    have ht := hrun (n + 1 + (pieces fmt.chars).length) (by omega)
    rw [hset, logPrintf, if_pos rfl, printLoop_dangling hfmt htext] at ht
    obtain ⟨t₁, hmap, rfl⟩ := Option.map_eq_some_iff.mp ht
    obtain ⟨t₂, hloop, rfl⟩ := Option.map_eq_some_iff.mp hmap
    -- The loop tests the character behind the NUL.
    have hread := mem_reads_of_printLoop hloop
    have hle := hreads (fmt.chars.length + 1) (by simp [Trace.after, hread])
    omega
  · intro h
    cases isSet with
    | false => exact ⟨0, _, fun _ _ => rfl, by simp, by simp⟩
    | true =>
      have hfmt := h.resolve_left (by decide)
      refine ⟨(pieces fmt.chars).length + 1, _,
        fun fuel hfuel => logPrintf_pieces level hfmt htext hfuel, ?_, ?_⟩
      · intro i hi
        have := List.mem_range'_1.mp hi
        omega
      · simp [h0, (writeString_levelStr level).2]

/-- `"%"`. -/
def percentOnly : CString := ⟨[ascii '%'], by decide, fun _ => 0#8⟩

/-- A list without arguments. -/
def noArgs : VaList := ⟨fun _ => 0#64, fun _ => percentOnly⟩

/-- `log_printf(LOG_LEVEL_ERROR, "%")` writes the NUL and reads the byte behind it. -/
theorem not_logPrintf_safe :
    ¬ ∀ (isSet : Bool) (level : Int) (fmt : CString) (args : VaList),
      PrintsSafely isSet level fmt args := by
  intro h
  obtain ⟨n, t, hrun, hreads, -⟩ := h true LOG_LEVEL_ERROR percentOnly noArgs
  have hprinted : logPrintf true (n + 2) LOG_LEVEL_ERROR percentOnly noArgs
      = some ⟨literal "[ERROR] %" ++ [0#8], [0, 1, 2], 0⟩ := rfl
  rw [hrun (n + 2) (by omega)] at hprinted
  obtain rfl := Option.some.inj hprinted
  exact absurd (hreads 2 (by decide)) (by decide)

/-! ### The reference formatter -/

/-- An argument, with the type its conversion takes. -/
inductive Arg where
  | int (v : BitVec 32)
  | hex (v : BitVec 64)
  | ptr (v : BitVec 64)
  | str (s : CString)

/-- The characters of the conversions that take an argument. -/
def Arg.letter : Arg → CChar
  | .int _ => ascii 'd'
  | .hex _ => ascii 'x'
  | .ptr _ => ascii 'p'
  | .str _ => ascii 's'

/-- The conversions of a piece that take an argument. -/
def Piece.letters : Piece → List CChar
  | .char _ => []
  | .conv c => if c ∈ [ascii 'd', ascii 'x', ascii 'p', ascii 's'] then [c] else []

/-- The arguments match the conversions of the pieces in order and type. -/
def Matches (ps : List Piece) (args : List Arg) : Prop :=
  args.map Arg.letter = ps.flatMap Piece.letters

/-- The reference: the text of a format with its arguments. -/
inductive Formats : List Piece → List Arg → List CChar → Prop
  | nil : Formats [] [] []
  | char (c : CChar) {ps : List Piece} {args : List Arg} {text : List CChar} :
      Formats ps args text → Formats (.char c :: ps) args (c :: text)
  | int (v : BitVec 32) {digits : List CChar} {ps : List Piece} {args : List Arg}
      {text : List CChar} : writeInt v = some digits → Formats ps args text →
      Formats (.conv (ascii 'd') :: ps) (.int v :: args) (digits ++ text)
  | hex (v : BitVec 64) {digits : List CChar} {ps : List Piece} {args : List Arg}
      {text : List CChar} : DenotesHex v digits → Formats ps args text →
      Formats (.conv (ascii 'x') :: ps) (.hex v :: args) (digits ++ text)
  | ptr (v : BitVec 64) {digits : List CChar} {ps : List Piece} {args : List Arg}
      {text : List CChar} : DenotesHex v digits → Formats ps args text →
      Formats (.conv (ascii 'p') :: ps) (.ptr v :: args) (literal "0x" ++ digits ++ text)
  | str (s : CString) {ps : List Piece} {args : List Arg} {text : List CChar} :
      Formats ps args text →
      Formats (.conv (ascii 's') :: ps) (.str s :: args) (s.chars ++ text)
  | percent {ps : List Piece} {args : List Arg} {text : List CChar} : Formats ps args text →
      Formats (.conv (ascii '%') :: ps) args (ascii '%' :: text)
  | other (c : CChar) {ps : List Piece} {args : List Arg} {text : List CChar} :
      c ∉ [ascii 'd', ascii 'x', ascii 'p', ascii 's', ascii '%'] → Formats ps args text →
      Formats (.conv c :: ps) args (ascii '%' :: c :: text)

/-- The slot of an argument holds it. An `int` takes the low half of its slot. -/
def Arg.InSlot (va : VaList) (k : Nat) : Arg → Prop
  | .int v => (va.slot k).setWidth 32 = v
  | .hex v => va.slot k = v
  | .ptr v => va.slot k = v
  | .str s => va.string (va.slot k) = s

/-- The slots from `k` on hold the arguments. -/
def VaList.Holds (va : VaList) : (k : Nat) → List Arg → Prop
  | _, [] => True
  | k, a :: args => a.InSlot va k ∧ va.Holds (k + 1) args

/-- The default case of the inner `switch`. -/
theorem conversion_other (va : VaList) (k : Nat) {c : CChar}
    (hc : c ∉ [ascii 'd', ascii 'x', ascii 'p', ascii 's', ascii '%']) :
    conversion va k c = some ([ascii '%', c], k) := by
  simp only [List.mem_cons, List.not_mem_nil, or_false, not_or] at hc
  obtain ⟨hd, hx, hp, hs, hpercent⟩ := hc
  rw [conversion, if_neg hd, if_neg hx, if_neg hp, if_neg hs, if_neg hpercent]

/-- A conversion prints its argument as the reference does, and takes it. -/
theorem conversion_letter (va : VaList) (k : Nat) {a : Arg} (h : a.InSlot va k) :
    ∃ text, conversion va k a.letter = some (text, k + 1) ∧
      ∀ {ps args rest}, Formats ps args rest →
        Formats (.conv a.letter :: ps) (a :: args) (text ++ rest) := by
  cases a with
  | int v =>
      obtain ⟨digits, hdigits⟩ := Option.isSome_iff_exists.mp (writeInt_isSome v)
      have hconv : conversion va k (ascii 'd') = some (digits, k + 1) := by
        rw [conversion, if_pos rfl, show (va.slot k).setWidth 32 = v from h, hdigits]
        rfl
      exact ⟨digits, hconv, .int v hdigits⟩
  | hex v =>
      obtain rfl : va.slot k = v := h
      exact ⟨_, rfl, .hex _ (denotesHex_hexLoop _)⟩
  | ptr v =>
      obtain rfl : va.slot k = v := h
      exact ⟨_, rfl, .ptr _ (denotesHex_hexLoop _)⟩
  | str s =>
      obtain rfl : va.string (va.slot k) = s := h
      have hconv : conversion va k (ascii 's')
          = some ((va.string (va.slot k)).chars, k + 1) := by
        show some (writeString ((va.string (va.slot k)).chars ++ [0#8]), k + 1) = _
        rw [writeString_nul (va.string (va.slot k)).nonzero]
      exact ⟨_, hconv, .str _⟩

/-- The other conversions print themselves, and take no argument. -/
theorem conversion_noLetter (va : VaList) (k : Nat) {c : CChar}
    (hc : c ∉ [ascii 'd', ascii 'x', ascii 'p', ascii 's']) :
    ∃ text, conversion va k c = some (text, k) ∧
      ∀ {ps args rest}, Formats ps args rest → Formats (.conv c :: ps) args (text ++ rest) := by
  by_cases hpercent : c = ascii '%'
  · subst hpercent
    exact ⟨[ascii '%'], rfl, .percent⟩
  · have hother : c ∉ [ascii 'd', ascii 'x', ascii 'p', ascii 's', ascii '%'] := by
      simp only [List.mem_cons, List.not_mem_nil, or_false, not_or] at hc ⊢
      exact ⟨hc.1, hc.2.1, hc.2.2.1, hc.2.2.2, hpercent⟩
    exact ⟨[ascii '%', c], conversion_other va k hother, .other c hother⟩

/-- Arguments that match the pieces give the text of the reference, one slot for each. -/
theorem formats_of_matches (va : VaList) (k : Nat) {ps : List Piece} {args : List Arg}
    (hmatch : Matches ps args) (hargs : va.Holds k args) :
    ∃ text, piecesText va k ps = some (text, k + args.length) ∧ Formats ps args text := by
  induction ps generalizing k args with
  | nil =>
      obtain rfl : args = [] := List.map_eq_nil_iff.mp hmatch
      exact ⟨[], rfl, .nil⟩
  | cons p ps ih =>
      cases p with
      | char c =>
          obtain ⟨text, htext, hformats⟩ := ih k hmatch hargs
          exact ⟨[c] ++ text, piecesText_cons rfl htext, .char c hformats⟩
      | conv c =>
          rw [Matches, List.flatMap_cons, Piece.letters] at hmatch
          by_cases hletter : c ∈ [ascii 'd', ascii 'x', ascii 'p', ascii 's']
          · -- The next argument has the type of the conversion.
            rw [if_pos hletter] at hmatch
            obtain ⟨a, rest, rfl, rfl, hrest⟩ := List.map_eq_cons_iff.mp hmatch
            obtain ⟨hslot, hargs'⟩ := hargs
            obtain ⟨text, htext, hformats⟩ := ih (k + 1) hrest hargs'
            obtain ⟨text', hconv, hstep⟩ := conversion_letter va k hslot
            rw [Nat.add_assoc, Nat.add_comm 1] at htext
            exact ⟨text' ++ text, piecesText_cons hconv htext, hstep hformats⟩
          · rw [if_neg hletter] at hmatch
            obtain ⟨text, htext, hformats⟩ := ih k hmatch hargs
            obtain ⟨text', hconv, hstep⟩ := conversion_noLetter va k hletter
            exact ⟨text' ++ text, piecesText_cons hconv htext, hstep hformats⟩

/-- The reference has one text. -/
theorem Formats.unique {ps : List Piece} {args : List Arg} {text text' : List CChar}
    (h : Formats ps args text) (h' : Formats ps args text') : text = text' := by
  induction h generalizing text' with
  | nil => cases h'; rfl
  | char c _ ih =>
      cases h' with
      | char _ h' => rw [ih h']
  | int v hdigits _ ih =>
      cases h' with
      | int _ hdigits' h' =>
          rw [ih h', Option.some.inj (hdigits.symm.trans hdigits')]
      | other _ hc _ => exact absurd (by decide) hc
  | hex v hdigits _ ih =>
      cases h' with
      | hex _ hdigits' h' => rw [ih h', hdigits.unique hdigits']
      | other _ hc _ => exact absurd (by decide) hc
  | ptr v hdigits _ ih =>
      cases h' with
      | ptr _ hdigits' h' => rw [ih h', hdigits.unique hdigits']
      | other _ hc _ => exact absurd (by decide) hc
  | str s _ ih =>
      cases h' with
      | str _ h' => rw [ih h']
      | other _ hc _ => exact absurd (by decide) hc
  | percent _ ih =>
      cases h' with
      | percent h' => rw [ih h']
      | other _ hc _ => exact absurd (by decide) hc
  | other c hc _ ih =>
      cases h' with
      | other _ _ h' => rw [ih h']
      | _ => exact absurd (by decide) hc

/-- `log_printf` writes the level's prefix and then exactly the text of the reference, and
takes as many arguments as there are. -/
theorem logPrintf_formats (level : Int) (fmt : CString) (va : VaList) (args : List Arg)
    (hfmt : dangling fmt.chars = false) (hmatch : Matches (pieces fmt.chars) args)
    (hargs : va.Holds 0 args) :
    ∃ n t, (∀ fuel ≥ n, logPrintf true fuel level fmt va = some t) ∧ t.used = args.length ∧
      ∀ text, Formats (pieces fmt.chars) args text ↔ t.out = levelStr level ++ text := by
  obtain ⟨text, htext, hformats⟩ := formats_of_matches va 0 hmatch hargs
  refine ⟨(pieces fmt.chars).length + 1, _,
    fun fuel hfuel => logPrintf_pieces level hfmt htext hfuel, Nat.zero_add _, ?_⟩
  intro text'
  constructor
  · intro h
    rw [h.unique hformats]
  · intro h
    rw [← List.append_cancel_left h]
    exact hformats

/-- `"%d: 0x%x %s %q%%\n"`. -/
def mixedFormat : CString := ⟨literal "%d: 0x%x %s %q%%\n", by decide, fun _ => 0#8⟩

/-- Three arguments, the last one a pointer to `"Hello"`. -/
def mixedArgs : VaList :=
  ⟨fun k => [0xFFFFFFD6#64, 42#64, 0x1000#64].getD k 0#64,
    fun _ => ⟨literal "Hello", by decide, fun _ => 0#8⟩⟩

theorem logPrintf_formats_mixed :
    ∃ n t, (∀ fuel ≥ n, logPrintf true fuel LOG_LEVEL_INFO mixedFormat mixedArgs = some t) ∧
      t.used = 3 ∧ ∀ text, Formats (pieces mixedFormat.chars)
        [.int (-42#32), .hex 42#64, .str (mixedArgs.string 0x1000#64)] text ↔
          t.out = levelStr LOG_LEVEL_INFO ++ text :=
  logPrintf_formats LOG_LEVEL_INFO mixedFormat mixedArgs
    [.int (-42#32), .hex 42#64, .str (mixedArgs.string 0x1000#64)] (by decide)
    (by unfold Matches; decide) ⟨rfl, rfl, rfl, trivial⟩

end YmirC
