import Mathlib.Logic.Relation
import Mathlib.Tactic.SplitIfs

/-!
# `YmirC.Lib.Uart16550`: a 16550 UART

The processor programs the `Setup` and hands bytes to the transmitter, which holds them in `tx`
until they are shifted out one by one. Bytes that arrive wait in `rx`. Both have one place, or
sixteen with the FIFOs on. `Move` is what the device does by itself.

A frame on the line has the format and the rate of the moment it is sent. `stream` is all the
transmitter has been given and has not lost, sent or not. A move keeps it
(`Move.stream`), and a byte that is written to an empty transmitter is its last one
(`stream_write`).

Left out are the modem lines, and the errors of the receiver other than the overrun.
-/

set_option autoImplicit false

namespace Uart16550

/-- What the processor programs. -/
structure Setup where
  /-- The line control register. Its bit 7 is the divisor latch access bit. -/
  lcr : BitVec 8
  /-- The interrupt enable register. -/
  ier : BitVec 8
  /-- Bit 0 of the FIFO control register. -/
  fifo : Bool
  /-- The modem control register. Its bit 4 is the loop back. -/
  mcr : BitVec 8
  scratch : BitVec 8
  divisor : BitVec 16
  deriving DecidableEq, Repr

/-- A byte on the line. -/
structure Frame where
  byte : BitVec 8
  lcr : BitVec 8
  divisor : BitVec 16
  deriving DecidableEq, Repr

structure Uart where
  setup : Setup
  /-- The bytes for the transmitter, the first one first. -/
  tx : List (BitVec 8)
  /-- The byte in the shift register. -/
  shift : Option (BitVec 8)
  /-- What has been sent. -/
  sent : List Frame
  /-- The bytes for the processor. -/
  rx : List (BitVec 8)
  overrun : Bool
  /-- The interrupt for an empty transmitter is pending. -/
  txEmpty : Bool
  deriving DecidableEq, Repr

def Setup.dlab (s : Setup) : Bool := s.lcr.getLsbD 7

def Setup.loopBack (s : Setup) : Bool := s.mcr.getLsbD 4

def Setup.capacity (s : Setup) : Nat := if s.fifo then 16 else 1

/-- What a write to a register programs. -/
def Setup.write (s : Setup) (v : BitVec 8) : (register : Nat) → Setup
  | 0 => if s.dlab then { s with divisor := s.divisor.extractLsb' 8 8 ++ v } else s
  | 1 =>
      if s.dlab then { s with divisor := v ++ s.divisor.extractLsb' 0 8 }
      else { s with ier := v &&& 0x0F#8 }
  | 2 => { s with fifo := v.getLsbD 0 }
  | 3 => { s with lcr := v }
  | 4 => { s with mcr := v &&& 0x1F#8 }
  | 7 => { s with scratch := v }
  | _ => s

namespace Uart

/-! ### The registers -/

/-- The identification register: the interrupt of the highest priority. -/
def iir (u : Uart) : BitVec 8 :=
  (if u.setup.fifo then 0xC0#8 else 0#8) |||
    if u.setup.ier.getLsbD 2 && u.overrun then 6#8
    else if u.setup.ier.getLsbD 0 && !u.rx.isEmpty then 4#8
    else if u.setup.ier.getLsbD 1 && u.txEmpty then 2#8
    else 1#8

/-- The line status register. -/
def lsr (u : Uart) : BitVec 8 :=
  (if u.rx.isEmpty then 0#8 else 0x01#8) ||| (if u.overrun then 0x02#8 else 0#8) |||
    (if u.tx.isEmpty then 0x20#8 else 0#8) |||
    (if u.tx.isEmpty && u.shift.isNone then 0x40#8 else 0#8)

/-- A byte for the transmitter. The last byte is lost when there is no room. -/
def put (u : Uart) (v : BitVec 8) : Uart :=
  { u with tx := u.tx.take (u.setup.capacity - 1) ++ [v], txEmpty := false }

/-- What a write to a register does to the bytes. Whenever the FIFOs are switched they are
cleared. -/
def writeData (u : Uart) (v : BitVec 8) : (register : Nat) → Uart
  | 0 => if u.setup.dlab then u else u.put v
  | 1 =>
      { u with
          txEmpty := u.txEmpty ||
            !u.setup.dlab && !u.setup.ier.getLsbD 1 && v.getLsbD 1 && u.tx.isEmpty }
  | 2 =>
      if v.getLsbD 0 ≠ u.setup.fifo then { u with tx := [], rx := [] }
      else if v.getLsbD 0 then
        { u with
            tx := if v.getLsbD 2 then [] else u.tx
            rx := if v.getLsbD 1 then [] else u.rx }
      else u
  | _ => u

/-- A write to a register. -/
def write (u : Uart) (v : BitVec 8) (register : Nat) : Uart :=
  { u.writeData v register with setup := u.setup.write v register }

/-- A read from a register. -/
def read (u : Uart) : (register : Nat) → BitVec 8 × Uart
  | 0 =>
      if u.setup.dlab then (u.setup.divisor.extractLsb' 0 8, u)
      else (u.rx.headD 0#8, { u with rx := u.rx.tail })
  | 1 => (if u.setup.dlab then u.setup.divisor.extractLsb' 8 8 else u.setup.ier, u)
  | 2 => (u.iir, if u.iir &&& 0x0F#8 = 2#8 then { u with txEmpty := false } else u)
  | 3 => (u.setup.lcr, u)
  | 4 => (u.setup.mcr, u)
  | 5 => (u.lsr, { u with overrun := false })
  | 7 => (u.setup.scratch, u)
  | _ => (0#8, u)

/-! ### The device -/

/-- A byte arrives. -/
def receive (u : Uart) (v : BitVec 8) : Uart :=
  if u.rx.length < u.setup.capacity then { u with rx := u.rx ++ [v] }
  else { u with overrun := true, rx := if u.setup.fifo then u.rx else [v] }

/-- The next byte goes to the shift register. -/
def load (u : Uart) (v : BitVec 8) (rest : List (BitVec 8)) : Uart :=
  { u with tx := rest, shift := some v, txEmpty := u.txEmpty || rest.isEmpty }

/-- The byte in the shift register is sent. With the loop back on it goes to the receiver. -/
def emit (u : Uart) (v : BitVec 8) : Uart :=
  if u.setup.loopBack then { u.receive v with shift := none }
  else { u with shift := none, sent := u.sent ++ [⟨v, u.setup.lcr, u.setup.divisor⟩] }

/-- What the device does by itself. -/
inductive Move : Uart → Uart → Prop
  | load {u : Uart} {v : BitVec 8} {rest : List (BitVec 8)} :
      u.shift = none → u.tx = v :: rest → Move u (u.load v rest)
  | emit {u : Uart} {v : BitVec 8} : u.shift = some v → Move u (u.emit v)
  | receive {u : Uart} (v : BitVec 8) : u.setup.loopBack = false → Move u (u.receive v)

/-! ### The stream -/

/-- All bytes of the transmitter. -/
def stream (u : Uart) : List (BitVec 8) := u.sent.map Frame.byte ++ u.shift.toList ++ u.tx

section Lemmas
variable {u u' : Uart}

@[simp] theorem receive_setup (v : BitVec 8) : (u.receive v).setup = u.setup := by
  unfold receive
  split <;> rfl

@[simp] theorem receive_sent (v : BitVec 8) : (u.receive v).sent = u.sent := by
  unfold receive
  split <;> rfl

@[simp] theorem receive_stream (v : BitVec 8) : (u.receive v).stream = u.stream := by
  unfold receive
  split <;> rfl

@[simp] theorem receive_tx (v : BitVec 8) : (u.receive v).tx = u.tx := by
  unfold receive
  split <;> rfl

@[simp] theorem emit_setup (v : BitVec 8) : (u.emit v).setup = u.setup := by
  unfold emit
  split
  · exact receive_setup v
  · rfl

@[simp] theorem emit_tx (v : BitVec 8) : (u.emit v).tx = u.tx := by
  unfold emit
  split
  · exact receive_tx v
  · rfl

@[simp] theorem emit_shift (v : BitVec 8) : (u.emit v).shift = none := by
  unfold emit
  split <;> rfl

/-- A move keeps what is programmed. -/
theorem Move.setup (h : Move u u') : u'.setup = u.setup := by
  cases h with
  | load _ _ => rfl
  | emit _ => exact emit_setup _
  | receive v _ => exact receive_setup v

/-- A move keeps the stream. -/
theorem Move.stream (h : Move u u') (hloop : u.setup.loopBack = false) :
    u'.stream = u.stream := by
  cases h with
  | load hshift htx => simp [Uart.stream, Uart.load, hshift, htx]
  | emit hshift => simp [Uart.stream, Uart.emit, hshift, hloop]
  | receive v _ => exact receive_stream v

/-- What a move sends is a frame of the programmed format. -/
theorem Move.sent (h : Move u u') : ∃ new, u'.sent = u.sent ++ new ∧
    ∀ f ∈ new, f.lcr = u.setup.lcr ∧ f.divisor = u.setup.divisor := by
  cases h with
  | load _ _ => exact ⟨[], by simp [Uart.load]⟩
  | @emit v _ =>
      by_cases hloop : u.setup.loopBack
      · exact ⟨[], by simp [Uart.emit, hloop]⟩
      · exact ⟨[⟨v, u.setup.lcr, u.setup.divisor⟩], by simp [Uart.emit, hloop]⟩
  | receive v _ => exact ⟨[], by simp⟩

/-- An empty transmitter stays empty. -/
theorem Move.tx (h : Move u u') (htx : u.tx = []) : u'.tx = [] := by
  cases h with
  | load _ hcons => simp [htx] at hcons
  | emit _ => rw [emit_tx, htx]
  | receive v _ => rw [receive_tx, htx]

/-- A move may lose bytes in the loop back, and gives the transmitter none. -/
theorem Move.stream_sublist (h : Move u u') : u'.stream.Sublist u.stream := by
  by_cases hloop : u.setup.loopBack = false
  · exact h.stream hloop ▸ .refl _
  cases h with
  | load hshift htx => simp [Uart.stream, Uart.load, hshift, htx]
  | emit hshift => simp [Uart.stream, Uart.emit, hshift, hloop]
  | receive v h => exact absurd h hloop

/-- The data port is the only way to the transmitter, and not with the divisor latch. -/
theorem write_stream_sublist (v : BitVec 8) {register : Nat}
    (h : register ≠ 0 ∨ u.setup.dlab = true) :
    (u.write v register).stream.Sublist u.stream := by
  show (u.writeData v register).stream.Sublist u.stream
  unfold writeData
  split
  · have hdlab : u.setup.dlab = true := h.resolve_left (by simp)
    simp [hdlab]
  · exact .refl _
  · split_ifs <;> simp [stream]
  · exact .refl _

/-- A byte for an empty transmitter is not lost. -/
theorem stream_write (htx : u.tx = []) (hdlab : u.setup.dlab = false) (v : BitVec 8) :
    (u.write v 0).stream = u.stream ++ [v] := by
  simp [stream, write, writeData, put, hdlab, htx]

/-- A read keeps what is programmed, and the transmitter. -/
theorem read_keeps (register : Nat) :
    (u.read register).2.setup = u.setup ∧ (u.read register).2.stream = u.stream ∧
      (u.read register).2.sent = u.sent ∧ (u.read register).2.tx = u.tx := by
  unfold read
  split
  · split <;> exact ⟨rfl, rfl, rfl, rfl⟩
  · exact ⟨rfl, rfl, rfl, rfl⟩
  · simp only
    split <;> exact ⟨rfl, rfl, rfl, rfl⟩
  all_goals exact ⟨rfl, rfl, rfl, rfl⟩

/-- Bit 5 of the line status. -/
theorem lsr_txEmpty (u : Uart) : u.lsr.getLsbD 5 = u.tx.isEmpty := by
  unfold lsr
  cases u.rx.isEmpty <;> cases u.overrun <;> cases u.tx.isEmpty <;> cases u.shift.isNone <;> rfl

/-- The transmitter gets empty by itself. -/
theorem exists_drained (u : Uart) : ∃ u', Relation.ReflTransGen Move u u' ∧ u'.tx = [] := by
  generalize hn : u.tx = tx
  induction tx generalizing u with
  | nil => exact ⟨u, .refl, hn⟩
  | cons v rest ih =>
      have hload : ∀ w : Uart, w.shift = none → w.tx = v :: rest →
          ∃ u', Relation.ReflTransGen Move w u' ∧ u'.tx = [] := by
        intro w hshift htx
        obtain ⟨u', hmoves, htx'⟩ := ih (w.load v rest) rfl
        exact ⟨u', .head (.load hshift htx) hmoves, htx'⟩
      cases hshift : u.shift with
      | none => exact hload u hshift hn
      | some b =>
          obtain ⟨u', hmoves, htx'⟩ := hload (u.emit b) (emit_shift b) ((emit_tx b).trans hn)
          exact ⟨u', .head (.emit hshift) hmoves, htx'⟩

end Lemmas

end Uart

end Uart16550
