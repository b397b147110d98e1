import Mathlib.Algebra.Group.Nat.Defs

/-!
# `YmirC.Lib.Pic8259`: a pair of 8259A interrupt controllers

Each chip has a request register, which its inputs set, and a `Setup`, which the processor
programs through a command port and a data port. The initialization command words ICW1 to ICW4
come in sequence (`Phase`), and the operation command words OCW1 to OCW3 afterwards. The priority
mode is fully nested: input 0 comes first, and an input in service holds back itself and those
behind it. The rotating modes, the special mask mode and the poll command are left out.

The output of the secondary chip is wired to input 2 of the primary one. `acknowledge` is the
cycle in which the processor fetches the vector. When the request it was told of is gone by then,
the chip answers with its input 7, and nothing goes in service.
-/

set_option autoImplicit false

namespace Pic8259

/-- What the next write to the data port is. -/
inductive Phase where
  | ready
  | icw2
  | icw3
  | icw4
  deriving DecidableEq, Repr

structure Setup where
  phase : Phase
  /-- ICW1: there is no other chip. -/
  single : Bool
  /-- ICW1: there will be an ICW4. -/
  needsIcw4 : Bool
  /-- ICW2. -/
  base : BitVec 8
  /-- ICW3. -/
  cascade : BitVec 8
  /-- ICW4. -/
  mode : BitVec 8
  /-- The mask register. -/
  imr : BitVec 8
  /-- The in-service register. -/
  isr : BitVec 8
  /-- The command port reads the in-service register, and not the request register. -/
  readIsr : Bool
  deriving DecidableEq, Repr

structure Chip where
  setup : Setup
  /-- The request register. -/
  irr : BitVec 8
  deriving DecidableEq, Repr

/-! ### One chip -/

/-- The first input that is requested and not masked, or in service. -/
def Chip.first (c : Chip) : Option Nat :=
  (List.range 8).find? fun i =>
    c.irr.getLsbD i && !c.setup.imr.getLsbD i || c.setup.isr.getLsbD i

/-- The input the chip interrupts for. -/
def Chip.request (c : Chip) : Option Nat :=
  if c.setup.phase ≠ .ready then none else c.first.filter fun i => !c.setup.isr.getLsbD i

/-- The chip answers for the input `i`. In the mode with automatic EOI it stays out of service. -/
def Chip.serve (c : Chip) (i : Nat) : Chip where
  setup :=
    if c.setup.mode.getLsbD 1 then c.setup else { c.setup with isr := c.setup.isr ||| 1#8 <<< i }
  irr := c.irr &&& ~~~(1#8 <<< i)

/-- The specific and the nonspecific EOI. -/
def Setup.ocw2 (s : Setup) (v : BitVec 8) : Setup :=
  if v &&& 0xF8#8 = 0x60#8 then { s with isr := s.isr &&& ~~~(1#8 <<< (v &&& 7#8).toNat) }
  else if v = 0x20#8 then
    match (List.range 8).find? fun i => s.isr.getLsbD i with
    | some i => { s with isr := s.isr &&& ~~~(1#8 <<< i) }
    | none => s
  else s

/-- Which register the command port reads. -/
def Setup.ocw3 (s : Setup) (v : BitVec 8) : Setup :=
  if v.getLsbD 1 then { s with readIsr := v.getLsbD 0 } else s

/-- ICW1 clears the mask, and what is in service. -/
def Setup.icw1 (s : Setup) (v : BitVec 8) : Setup :=
  { s with
      phase := .icw2
      single := v.getLsbD 1
      needsIcw4 := v.getLsbD 0
      mode := if v.getLsbD 0 then s.mode else 0#8
      imr := 0#8
      isr := 0#8
      readIsr := false }

/-- A write to the command port. -/
def Setup.writeCommand (s : Setup) (v : BitVec 8) : Setup :=
  if v.getLsbD 4 then s.icw1 v else if v.getLsbD 3 then s.ocw3 v else s.ocw2 v

/-- A write to the data port. -/
def Setup.writeData (s : Setup) (v : BitVec 8) : Setup :=
  match s.phase with
  | .ready => { s with imr := v }
  | .icw2 =>
      { s with
          base := v &&& 0xF8#8
          phase := if !s.single then .icw3 else if s.needsIcw4 then .icw4 else .ready }
  | .icw3 => { s with cascade := v, phase := if s.needsIcw4 then .icw4 else .ready }
  | .icw4 => { s with mode := v, phase := .ready }

/-- ICW1 clears the requests, too. -/
def Chip.writeCommand (c : Chip) (v : BitVec 8) : Chip where
  setup := c.setup.writeCommand v
  irr := if v.getLsbD 4 then 0#8 else c.irr

def Chip.writeData (c : Chip) (v : BitVec 8) : Chip := { c with setup := c.setup.writeData v }

def Chip.readCommand (c : Chip) : BitVec 8 := if c.setup.readIsr then c.setup.isr else c.irr

def Chip.readData (c : Chip) : BitVec 8 := c.setup.imr

/-! ### The pair -/

structure Pair where
  primary : Chip
  secondary : Chip
  deriving DecidableEq, Repr

namespace Pair

/-- The input of the primary chip that the secondary one is wired to. -/
def cascadeLine : Nat := 2

/-- The primary chip with the output of the secondary one at its input. -/
def upper (p : Pair) : Chip :=
  { p.primary with
      irr := if p.secondary.request.isSome then p.primary.irr ||| 1#8 <<< cascadeLine
        else p.primary.irr &&& ~~~(1#8 <<< cascadeLine) }

/-- The processor is told of an interrupt. -/
def intr (p : Pair) : Bool := p.upper.request.isSome

/-- A device raises its line. Line `cascadeLine` has no device. -/
def raise (p : Pair) (line : Nat) : Pair :=
  if line < 8 then { p with primary := { p.primary with irr := p.primary.irr ||| 1#8 <<< line } }
  else { p with
    secondary := { p.secondary with irr := p.secondary.irr ||| 1#8 <<< (line - 8) } }

/-- A device takes its request back. -/
def lower (p : Pair) (line : Nat) : Pair :=
  if line < 8 then
    { p with primary := { p.primary with irr := p.primary.irr &&& ~~~(1#8 <<< line) } }
  else { p with
    secondary := { p.secondary with irr := p.secondary.irr &&& ~~~(1#8 <<< (line - 8)) } }

/-- The secondary chip has the answer to a request at the input `i` of the primary one. -/
def passesOn (p : Pair) (i : Nat) : Bool :=
  !p.primary.setup.single && i = cascadeLine && p.primary.setup.cascade.getLsbD i

/-- The processor fetches the vector. -/
def acknowledge (p : Pair) : BitVec 8 × Pair :=
  match p.upper.request with
  | none => (p.primary.setup.base + 7#8, p)
  | some i =>
      if p.passesOn i then
        match p.secondary.request with
        | none => (p.secondary.setup.base + 7#8, { p with primary := p.primary.serve i })
        | some j =>
            (p.secondary.setup.base + BitVec.ofNat 8 j,
              { primary := p.primary.serve i, secondary := p.secondary.serve j })
      else (p.primary.setup.base + BitVec.ofNat 8 i, { p with primary := p.primary.serve i })

end Pair

/-! ### Requests -/

section Request
variable {c : Chip} {i : Nat}

theorem Chip.first_eq_some (h : c.first = some i) :
    i < 8 ∧ (c.irr.getLsbD i && !c.setup.imr.getLsbD i || c.setup.isr.getLsbD i) = true ∧
      ∀ j < i, (c.irr.getLsbD j && !c.setup.imr.getLsbD j || c.setup.isr.getLsbD j) = false := by
  obtain ⟨hi, k, hk, hkth, hlt⟩ := List.find?_eq_some_iff_getElem.mp h
  rw [List.getElem_range] at hkth
  subst hkth
  refine ⟨by simpa using hk, hi, fun j hj => ?_⟩
  have hbefore := hlt j hj
  rw [List.getElem_range] at hbefore
  exact Bool.not_eq_true' _ ▸ hbefore

/-- The input a ready chip interrupts for is requested and not masked, and nothing in front of it
is in service. -/
theorem Chip.request_eq_some (h : c.request = some i) :
    i < 8 ∧ c.irr.getLsbD i = true ∧ c.setup.imr.getLsbD i = false ∧
      ∀ j ≤ i, c.setup.isr.getLsbD j = false := by
  rw [Chip.request] at h
  split at h
  · cases h
  · obtain ⟨hfirst, hserve⟩ := Option.filter_eq_some_iff.mp h
    obtain ⟨hlt, hi, hbefore⟩ := Chip.first_eq_some hfirst
    simp only [Bool.not_eq_true'] at hserve
    rw [hserve, Bool.or_false, Bool.and_eq_true, Bool.not_eq_true'] at hi
    refine ⟨hlt, hi.1, hi.2, fun j hj => ?_⟩
    rcases Nat.lt_or_eq_of_le hj with hlt | rfl
    · exact (Bool.or_eq_false_iff.mp (hbefore j hlt)).2
    · exact hserve

/-- A masked chip is silent. -/
theorem Chip.request_eq_none
    (hmask : ∀ i < 8, c.irr.getLsbD i = true → c.setup.imr.getLsbD i = true) :
    c.request = none := by
  cases hreq : c.request with
  | none => rfl
  | some i =>
      obtain ⟨hlt, hirr, himr, -⟩ := Chip.request_eq_some hreq
      rw [hmask i hlt hirr] at himr
      cases himr

/-- A ready chip with nothing in service interrupts for the first request that is not masked. -/
theorem Chip.request_isSome (hready : c.setup.phase = .ready) (hisr : c.setup.isr = 0#8)
    (hi : i < 8) (hirr : c.irr.getLsbD i = true) (himr : c.setup.imr.getLsbD i = false) :
    ∃ j ≤ i, c.request = some j := by
  have hmem : (c.first).isSome := by
    rw [Chip.first, List.find?_isSome]
    exact ⟨i, List.mem_range.mpr hi, by simp [hirr, himr]⟩
  obtain ⟨j, hj⟩ := Option.isSome_iff_exists.mp hmem
  obtain ⟨-, -, hbefore⟩ := Chip.first_eq_some hj
  refine ⟨j, Nat.le_of_not_lt fun hlt => ?_, ?_⟩
  · have hfalse := hbefore i hlt
    simp [hirr, himr] at hfalse
  · rw [Chip.request, if_neg (fun hne => hne hready), hj]
    simp [hisr]

end Request

end Pic8259
