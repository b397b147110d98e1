/-!
# `YmirC.Log`: the formatted logger (`ymirc/log.c`)

`log_printf` scans its format with an index that moves in two places, and hands every
character it produces to the write function. The model keeps the trace of a call: the
characters in order, the indices of the format it read, and the arguments it took.

A string is what its pointer shows: the characters, the NUL, and the bytes that happen to
follow in memory (`CString.after`), which a scan that misses the NUL would go on to read. The
main loop therefore takes fuel; `none` is a call that is still running, or one that has left
the buffer of `write_int`.
-/

set_option autoImplicit false

namespace YmirC

/-- A `char`. -/
abbrev CChar : Type := BitVec 8

/-- The character constant `'c'`. -/
def ascii (c : Char) : CChar := BitVec.ofNat 8 c.toNat

/-- The characters of a string literal, without its NUL. -/
def literal (s : String) : List CChar := s.toList.map ascii

/-- What a `const char *` points to. -/
structure CString where
  chars : List CChar
  nonzero : 0#8 ∉ chars
  /-- The memory behind the NUL, by its distance from the start of the string. -/
  after : Nat → CChar

/-- `s[i]`. -/
def CString.byte (s : CString) (i : Nat) : CChar :=
  if i = s.chars.length then 0#8 else s.chars.getD i (s.after i)

/-- `write_string`: the loop over the bytes from `str` on, up to the first NUL. -/
def writeString : List CChar → List CChar
  | [] => []
  | c :: str => if c = 0#8 then [] else c :: writeString str

/-! ### `write_int` -/

/-- The `do` loop of `write_int` on a buffer with `cells` free cells: the cells it fills, in
order. A write behind the last cell has no result. -/
def intDigits : (cells : Nat) → (val : BitVec 32) → Option (List CChar)
  | 0, _ => none
  | cells + 1, val =>
      let c := (val.srem 10#32 + (ascii '0').setWidth 32).setWidth 8
      let val := val.sdiv 10#32
      if (0#32).slt val then (intDigits cells val).map (c :: ·) else some [c]

/-- `buf[0..i)` of `write_int` before it is printed. -/
def intBuffer (val : BitVec 32) : Option (List CChar) := do
  let negative := val.slt 0#32
  let val := if negative then -val else val
  let buf ← intDigits 12 val
  if negative then
    if buf.length < 12 then return buf ++ [ascii '-'] else none
  else return buf

/-- `write_int`: the buffer, last cell first. -/
def writeInt (val : BitVec 32) : Option (List CChar) := (intBuffer val).map List.reverse

/-! ### `write_hex` and `write_ptr` -/

/-- `hex`. -/
def hexDigits : List CChar := literal "0123456789ABCDEF"

/-- The loop `for (i = n - 1; i >= 0; i--)` of `write_hex`. -/
def hexLoop (value : BitVec 64) : (n : Nat) → List CChar
  | 0 => []
  | i + 1 => hexDigits.getD (value >>> (i * 4) &&& 0xF#64).toNat 0#8 :: hexLoop value i

/-- `write_hex`. -/
def writeHex (value : BitVec 64) : List CChar := hexLoop value 16

/-- `write_ptr`: `sizeof(uintptr_t) * 2` digits. -/
def writePtr (ptr : BitVec 64) : List CChar := ascii '0' :: ascii 'x' :: hexLoop ptr (8 * 2)

/-! ### `log_printf` -/

def LOG_LEVEL_DEBUG : Int := 0
def LOG_LEVEL_INFO : Int := 1
def LOG_LEVEL_WARN : Int := 2
def LOG_LEVEL_ERROR : Int := 3
def LOG_LEVEL_NONE : Int := 4

/-- `level_str`. -/
def levelStr (level : Int) : List CChar :=
  if level = LOG_LEVEL_DEBUG then literal "[DEBUG] "
  else if level = LOG_LEVEL_INFO then literal "[INFO ] "
  else if level = LOG_LEVEL_WARN then literal "[WARN ] "
  else if level = LOG_LEVEL_ERROR then literal "[ERROR] "
  else literal ""

/-- A `va_list`: every argument has a slot of eight bytes, and a slot that holds a `char *`
has the string it points to. -/
structure VaList where
  slot : Nat → BitVec 64
  string : BitVec 64 → CString

/-- What a call did: the characters it wrote, the indices of the format it read and the number
of arguments it took. -/
structure Trace where
  out : List CChar
  reads : List Nat
  used : Nat
  deriving DecidableEq, Repr

/-- More characters and reads in front. -/
def Trace.after (out : List CChar) (reads : List Nat) (t : Trace) : Trace :=
  { t with out := out ++ t.out, reads := reads ++ t.reads }

/-- The inner `switch` on the character behind `%`, at argument `k`: what it writes, and the
next argument. -/
def conversion (args : VaList) (k : Nat) (c : CChar) : Option (List CChar × Nat) :=
  if c = ascii 'd' then (writeInt ((args.slot k).setWidth 32)).map (·, k + 1)
  else if c = ascii 'x' then some (writeHex (args.slot k), k + 1)
  else if c = ascii 'p' then some (writePtr (args.slot k), k + 1)
  else if c = ascii 's' then
    let str := args.string (args.slot k)
    some (writeString (str.chars ++ [0#8]), k + 1)
  else if c = ascii '%' then some ([ascii '%'], k)
  else some ([ascii '%', c], k)

/-- The `for` loop of `log_printf` from index `i` and argument `k`. -/
def printLoop (fmt : CString) (args : VaList) : (fuel i k : Nat) → Option Trace
  | 0, _, _ => none
  | fuel + 1, i, k =>
      if fmt.byte i = 0#8 then some { out := [], reads := [i], used := k }
      else if fmt.byte i = ascii '%' then
        (conversion args k (fmt.byte (i + 1))).bind fun (text, k') =>
          (printLoop fmt args fuel (i + 2) k').map (Trace.after text [i, i + 1])
      else (printLoop fmt args fuel (i + 1) k).map (Trace.after [fmt.byte i] [i])

/-- `log_printf`. `isSet` says that a write function is set. -/
def logPrintf (isSet : Bool) (fuel : Nat) (level : Int) (fmt : CString) (args : VaList) :
    Option Trace :=
  if isSet then
    (printLoop fmt args fuel 0 0).map (Trace.after (writeString (levelStr level ++ [0#8])) [])
  else some { out := [], reads := [], used := 0 }

end YmirC
