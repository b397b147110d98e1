import Mathlib.Tactic.SplitIfs
import YmirC.Arch.X86.Serial
import YmirC.Proofs.Bits

/-!
# `YmirC.Proofs.Serial`: the console loses nothing

`serialInit_spec` is about the set-up of a port. Whatever its registers held before, it ends with
eight data bits, no parity, one stop bit and the divisor of the rate, and no byte has been handed
to a transmitter. `serialWriteString_spec` is about the bytes printed afterwards. While the UARTs go
on by themselves and the guest reads the ports passed through to it, the line and the
transmitter together have the bytes printed so far, in order and each one once.

The driver waits for the transmitter in `write_byte`. Between the answer and the write nothing but
the device can touch the transmitter, and the device leaves an empty one empty (`Move.tx`).
-/

set_option autoImplicit false

namespace YmirC

open Interleave Uart16550

/-! ### The ports -/

/-- The registers of a port are eight ports in a row. -/
theorem serialRegister_addr (port : SerialPort) :
    ∀ r < 8, serialRegister (port.addr + BitVec.ofNat 16 r) = some (port, r) := by
  cases port <;> decide

namespace SerialMachine

variable {m m' : SerialMachine}

@[simp] theorem setUart_same (m : SerialMachine) (port : SerialPort) (u : Uart) :
    (m.setUart port u).uart port = u := Function.update_self _ _ _

@[simp] theorem setUart_of_ne (m : SerialMachine) {port com : SerialPort} (h : com ≠ port)
    (u : Uart) :
    (m.setUart port u).uart com = m.uart com := Function.update_of_ne h _ _

theorem outb_addr (m : SerialMachine) (v : BitVec 8) (port : SerialPort) {r : Nat} (hr : r < 8) :
    m.outb v (port.addr + BitVec.ofNat 16 r) = m.setUart port ((m.uart port).write v r) := by
  rw [outb, serialRegister_addr port r hr]

theorem inb_addr (m : SerialMachine) (port : SerialPort) {r : Nat} (hr : r < 8) :
    m.inb (port.addr + BitVec.ofNat 16 r)
      = (((m.uart port).read r).1, m.setUart port ((m.uart port).read r).2) := by
  rw [inb, serialRegister_addr port r hr]

/-- What a read leaves of a UART. -/
theorem inb_keeps (m : SerialMachine) (port : BitVec 16) (com : SerialPort) :
    (((m.inb port).2.uart com).setup = (m.uart com).setup) ∧
      ((m.inb port).2.uart com).stream = (m.uart com).stream ∧
      ((m.inb port).2.uart com).sent = (m.uart com).sent ∧
      ((m.inb port).2.uart com).tx = (m.uart com).tx := by
  unfold inb
  split
  · rename_i com' register _
    by_cases hcom : com = com'
    · subst hcom
      simp only [setUart_same]
      exact Uart.read_keeps register
    · simp only [setUart_of_ne m hcom, and_self]
  · exact ⟨rfl, rfl, rfl, rfl⟩

/-- A UART after a move: it has moved, or has been read. -/
theorem Move.uart (h : Move m m') (com : SerialPort) :
    (m.uart com).Move (m'.uart com) ∨
      (m'.uart com).setup = (m.uart com).setup ∧ (m'.uart com).stream = (m.uart com).stream ∧
        (m'.uart com).sent = (m.uart com).sent ∧ (m'.uart com).tx = (m.uart com).tx := by
  cases h with
  | @device port u hmove =>
      by_cases hcom : com = port
      · subst hcom
        exact Or.inl (by rwa [setUart_same])
      · rw [setUart_of_ne m hcom]
        exact Or.inr ⟨rfl, rfl, rfl, rfl⟩
  | passThrough _ _ => exact Or.inr (inb_keeps m _ com)

theorem Move.setup (h : Move m m') (com : SerialPort) :
    (m'.uart com).setup = (m.uart com).setup :=
  (h.uart com).elim Uart.Move.setup fun h => h.1

theorem Move.stream_sublist (h : Move m m') (com : SerialPort) :
    ((m'.uart com).stream).Sublist (m.uart com).stream :=
  (h.uart com).elim Uart.Move.stream_sublist fun h => h.2.1 ▸ .refl _

theorem Move.stream (h : Move m m') {com : SerialPort}
    (hloop : (m.uart com).setup.loopBack = false) :
    (m'.uart com).stream = (m.uart com).stream :=
  (h.uart com).elim (fun h => h.stream hloop) fun h => h.2.1

theorem Move.sent (h : Move m m') (com : SerialPort) :
    ∃ new, (m'.uart com).sent = (m.uart com).sent ++ new ∧
      ∀ f ∈ new, f.lcr = (m.uart com).setup.lcr ∧ f.divisor = (m.uart com).setup.divisor := by
  obtain h | h := h.uart com
  · exact h.sent
  · exact ⟨[], by rw [h.2.2.1, List.append_nil], by simp⟩

theorem Move.tx (h : Move m m') {com : SerialPort} (htx : (m.uart com).tx = []) :
    (m'.uart com).tx = [] :=
  (h.uart com).elim (fun h => h.tx htx) fun h => h.2.2.2.trans htx

/-- A transmitter gets empty by itself. -/
theorem exists_drained (m : SerialMachine) (port : SerialPort) :
    ∃ m', Relation.ReflTransGen Move m m' ∧ (m'.uart port).tx = [] := by
  obtain ⟨u, hmoves, htx⟩ := Uart.exists_drained (m.uart port)
  generalize hv : m.uart port = v at hmoves
  induction hmoves using Relation.ReflTransGen.head_induction_on generalizing m with
  | refl => exact ⟨m, .refl, hv ▸ htx⟩
  | head hmove _ ih =>
      subst hv
      obtain ⟨m', hmoves, htx'⟩ := ih (m.setUart port _) (setUart_same m port _)
      exact ⟨m', .head (.device hmove) hmoves, htx'⟩

end SerialMachine

/-! ### The set-up of a port -/

/-- The ports are programmed as in `s`, and no byte has been handed to a transmitter since `m₀`. -/
structure SerialQuiet (s : SerialPort → Setup) (m₀ m : SerialMachine) : Prop where
  setup : ∀ com, (m.uart com).setup = s com
  stream : ∀ com, ((m.uart com).stream).Sublist (m₀.uart com).stream

section Init
variable {s : SerialPort → Setup} {m₀ m : SerialMachine}

theorem quietSerial_stable (s : SerialPort → Setup) (m₀ : SerialMachine) :
    Stable SerialMachine.Move (SerialQuiet s m₀) := fun _ _ h hmove =>
  ⟨fun com => (hmove.setup com).trans (h.setup com),
    fun com => (hmove.stream_sublist com).trans (h.stream com)⟩

/-- A write that is not to the data port, or is to the divisor latch. -/
theorem SerialQuiet.outb {port : SerialPort} {t : Setup}
    (h : SerialQuiet (Function.update s port t) m₀ m) (v : BitVec 8) {r : Nat} (hr : r < 8)
    (hdata : r ≠ 0 ∨ t.dlab = true) :
    SerialQuiet (Function.update s port (t.write v r)) m₀
      (m.outb v (port.addr + BitVec.ofNat 16 r)) := by
  have ht : (m.uart port).setup = t := (h.setup port).trans (Function.update_self _ _ _)
  rw [m.outb_addr v port hr]
  constructor
  · intro com
    by_cases hcom : com = port
    · subst hcom
      rw [SerialMachine.setUart_same, Function.update_self, ← ht]
      rfl
    · rw [SerialMachine.setUart_of_ne m hcom, h.setup com, Function.update_of_ne hcom,
        Function.update_of_ne hcom]
  · intro com
    by_cases hcom : com = port
    · subst hcom
      rw [SerialMachine.setUart_same]
      exact (Uart.write_stream_sublist v (by rwa [ht])).trans (h.stream com)
    · rw [SerialMachine.setUart_of_ne m hcom]
      exact h.stream com

section Rules
variable {α : Type} {port : SerialPort} {t : Setup} {Q : α → SerialMachine → Prop}

/-- A write of `serial_init`. -/
theorem Spec.quietSerial_outb {v : BitVec 8} {r : Nat} {next : Driver SerialMachine α}
    (hr : r < 8) (hdata : r ≠ 0 ∨ t.dlab = true)
    (hnext : Spec SerialMachine.Move (fun _ => True)
      (SerialQuiet (Function.update s port (t.write v r)) m₀) next Q) :
    Spec SerialMachine.Move (fun _ => True) (SerialQuiet (Function.update s port t) m₀)
      (outb v (port.addr + BitVec.ofNat 16 r) >>= fun _ => next) Q :=
  Spec.act (quietSerial_stable _ m₀) (fun _ _ => trivial) (fun _ h => h.outb v hr hdata) hnext

/-- The read of the line control register. -/
theorem Spec.quietSerial_inb {next : BitVec 8 → Driver SerialMachine α}
    (hnext : Spec SerialMachine.Move (fun _ => True)
      (SerialQuiet (Function.update s port t) m₀) (next t.lcr) Q) :
    Spec SerialMachine.Move (fun _ => True) (SerialQuiet (Function.update s port t) m₀)
      (inb (port.addr + BitVec.ofNat 16 3) >>= next) Q := by
  refine Spec.ask (R := fun b m => b = t.lcr ∧ SerialQuiet (Function.update s port t) m₀ m)
    (quietSerial_stable _ m₀) (fun _ _ => trivial) (fun m h => ?_) fun b => ?_
  · show (m.inb _).1 = _ ∧ SerialQuiet _ m₀ (m.inb _).2
    refine ⟨?_, fun com => ?_, fun com => ?_⟩
    · have ht : (m.uart port).setup = t := (h.setup port).trans (Function.update_self _ _ _)
      rw [m.inb_addr port (by decide), ← ht]
      rfl
    · rw [(m.inb_keeps _ com).1]
      exact h.setup com
    · rw [(m.inb_keeps _ com).2.1]
      exact h.stream com
  · rintro m ⟨rfl, h⟩
    exact hnext m h

end Rules

/-- The two bytes of the divisor latch. -/
theorem divisor_bytes (d : BitVec 32) :
    (d.sshiftRight 8 &&& 0xFF#32).setWidth 8 ++ (d &&& 0xFF#32).setWidth 8
      = d.setWidth 16 := by
  have hmask : ∀ x : BitVec 32, (x &&& 0xFF#32).setWidth 8 = x.setWidth 8 := by
    intro x
    rw [BitVec.setWidth_and]
    exact BitVec.and_allOnes
  refine BitVec.eq_of_getLsbD_eq fun i hi => ?_
  rw [hmask, hmask, BitVec.getLsbD_append]
  by_cases hlow : i < 8
  · simp [hlow]
    omega
  · have h8 : i - 8 < 8 := by omega
    have h16 : i < 16 := hi
    have h32 : i < 32 := by omega
    have hsum : 8 + (i - 8) = i := by omega
    simp only [hlow, h8, h16, h32, hsum, if_false, decide_true, decide_false, Bool.true_and,
      BitVec.getLsbD_setWidth, BitVec.getLsbD_sshiftRight, if_true]
    simp
    omega

/-- What `serial_init` programs. -/
def serialSetup (s : Setup) (baud : BitVec 32) : Setup :=
  { s with
      lcr := 3#8
      ier := 0#8
      fifo := false
      divisor := (divisorLatchNumerator / baud).setWidth 16 }

/-- The seven writes of `serial_init` to a port, whatever it was programmed to. -/
theorem serialInit_setup (s : Setup) (d : BitVec 32) :
    ((((((s.write 0x3#8 3).write 0x0#8 1).write 0x0#8 2).write (0x3#8 ||| 0b10000000#8) 3).write
      ((d &&& 0xFF#32).setWidth 8) 0).write ((d.sshiftRight 8 &&& 0xFF#32).setWidth 8) 1).write
      (0x3#8 &&& 0b01111111#8) 3
      = { s with lcr := 3#8, ier := 0#8, fifo := false, divisor := d.setWidth 16 } := by
  have hlow : ∀ x y : BitVec 8, (x ++ y).extractLsb' 0 8 = y := by
    intro x y
    exact BitVec.extractLsb'_append_eq_right
  rw [← divisor_bytes d]
  simp [Setup.write, Setup.dlab, hlow]

/-- `serial_init`, from any state of the ports. -/
theorem serialInit_follows (port : SerialPort) (baud : BitVec 32) (hbaud : baud ≠ 0#32) :
    Spec SerialMachine.Move (fun _ => True) (SerialQuiet s m₀)
      (serialInit port baud : Driver SerialMachine (Option Serial))
      (fun r m => r = some ⟨port.addr, port, port⟩ ∧
        SerialQuiet (Function.update s port (serialSetup (s port) baud)) m₀ m) := by
  have hstart : SerialQuiet s m₀ = SerialQuiet (Function.update s port (s port)) m₀ := by
    rw [Function.update_eq_self]
  rw [hstart]
  refine Spec.quietSerial_outb (r := 3) (by decide) (Or.inl (by decide)) ?_
  refine Spec.quietSerial_outb (r := 1) (by decide) (Or.inl (by decide)) ?_
  refine Spec.quietSerial_outb (r := 2) (by decide) (Or.inl (by decide)) ?_
  rw [if_neg hbaud]
  refine Spec.quietSerial_inb ?_
  refine Spec.quietSerial_outb (r := 3) (by decide) (Or.inl (by decide)) ?_
  refine Spec.quietSerial_outb (r := 0) (by decide)
    (Or.inr (by simp [Setup.write, Setup.dlab])) ?_
  refine Spec.quietSerial_outb (r := 1) (by decide) (Or.inl (by decide)) ?_
  refine Spec.quietSerial_outb (r := 3) (by decide) (Or.inl (by decide)) ?_
  refine Spec.ret ?_ (fun _ _ => trivial) fun m h => ⟨rfl, ?_⟩
  · exact quietSerial_stable _ m₀
  · have hlcr : ((((s port).write 0x3#8 3).write 0x0#8 1).write 0x0#8 2).lcr = 0x3#8 := by
      simp [Setup.write, Setup.dlab]
    rw [hlcr, serialInit_setup] at h
    exact h

end Init

/-- **The set-up of a port.** Whatever the firmware left in the registers (the divisor latch may be
selected), and however the UARTs go on meanwhile: `serial_init` returns a serial for its port,
with eight data bits, no parity, one stop bit, no interrupts, no FIFO and the low 16 bits of
`115200 / baud` as the divisor. The other ports and the other registers are as before, and no
byte has been handed to a transmitter. -/
theorem serialInit_spec {m₀ m : SerialMachine} (port : SerialPort) {baud : BitVec 32}
    (hbaud : baud ≠ 0#32) {r : Option Serial}
    (hrun : Steps SerialMachine.Move (serialInit port baud, m₀) (.ret r, m)) :
    r = some ⟨port.addr, port, port⟩ ∧
    (∀ com, (m.uart com).setup = if com = port then
        serialSetup (m₀.uart port).setup baud else (m₀.uart com).setup) ∧
    ∀ com, ((m.uart com).stream).Sublist (m₀.uart com).stream := by
  have hquiet : SerialQuiet (fun com => (m₀.uart com).setup) m₀ m₀ :=
    ⟨fun _ => rfl, fun _ => .refl _⟩
  obtain ⟨-, hreturn⟩ := (serialInit_follows port baud hbaud).sound hquiet hrun
  obtain ⟨hr, h⟩ := hreturn r rfl
  refine ⟨hr, fun com => ?_, h.stream⟩
  rw [h.setup com, Function.update_apply]

/-- Ports behind a reset. -/
def serialAtReset : SerialMachine where
  uart _ :=
    { setup := ⟨0#8, 0#8, false, 0#8, 0#8, 12#16⟩, tx := [], shift := none, sent := [], rx := []
      overrun := false, txEmpty := true }
  intr := false

theorem serialInit_spec_com1 : ∃ m, Steps SerialMachine.Move
      (serialInit .com1 115200#32, serialAtReset) (.ret (some ⟨COM1, .com1, .com1⟩), m) ∧
    (m.uart .com1).setup = ⟨3#8, 0#8, false, 0#8, 0#8, 1#16⟩ := by
  have hrun : Steps SerialMachine.Move (serialInit .com1 115200#32, serialAtReset)
      (.ret (some ⟨COM1, .com1, .com1⟩), _) := steps_run rfl
  obtain ⟨-, hsetup, -⟩ := serialInit_spec .com1 (by decide) hrun
  exact ⟨_, hrun, hsetup .com1⟩

/-! ### Printing -/

/-- `out` has been given to the transmitter of `port` since `m₀`, and to no other one. The ports
are programmed as they were. -/
structure SerialPrinted (port : SerialPort) (m₀ : SerialMachine) (out : List (BitVec 8))
    (m : SerialMachine) : Prop where
  setup : ∀ com, (m.uart com).setup = (m₀.uart com).setup
  stream : (m.uart port).stream = (m₀.uart port).stream ++ out
  others : ∀ com, com ≠ port → ((m.uart com).stream).Sublist (m₀.uart com).stream
  sent : ∃ new, (m.uart port).sent = (m₀.uart port).sent ++ new ∧
    ∀ f ∈ new, f.lcr = (m₀.uart port).setup.lcr ∧ f.divisor = (m₀.uart port).setup.divisor

section Print
variable {port : SerialPort} {m₀ m m' : SerialMachine} {out : List (BitVec 8)}

theorem SerialPrinted.refl (port : SerialPort) (m : SerialMachine) : SerialPrinted port m [] m :=
  ⟨fun _ => rfl, (List.append_nil _).symm, fun _ _ => .refl _,
    [], (List.append_nil _).symm, fun _ hf => absurd hf List.not_mem_nil⟩

theorem SerialPrinted.move (h : SerialPrinted port m₀ out m) (hmove : SerialMachine.Move m m')
    (hloop : (m₀.uart port).setup.loopBack = false) : SerialPrinted port m₀ out m' := by
  refine ⟨fun com => (hmove.setup com).trans (h.setup com), ?_, fun com hcom => ?_, ?_⟩
  · rw [hmove.stream (by rw [h.setup port, hloop]), h.stream]
  · exact (hmove.stream_sublist com).trans (h.others com hcom)
  · obtain ⟨new, hnew, hframes⟩ := h.sent
    obtain ⟨more, hmore, hframes'⟩ := hmove.sent port
    rw [h.setup port] at hframes'
    refine ⟨new ++ more, by rw [hmore, hnew, List.append_assoc], fun f hf => ?_⟩
    exact (List.mem_append.mp hf).elim (hframes f) (hframes' f)

theorem printed_stable (hloop : (m₀.uart port).setup.loopBack = false) :
    Stable SerialMachine.Move (SerialPrinted port m₀ out) :=
  fun _ _ h hmove => h.move hmove hloop

/-- The byte of `write_byte`, for an empty transmitter. -/
theorem SerialPrinted.put (h : SerialPrinted port m₀ out m) (htx : (m.uart port).tx = [])
    (hdlab : (m₀.uart port).setup.dlab = false) (c : BitVec 8) :
    SerialPrinted port m₀ (out ++ [c]) (m.outb c (port.addr + BitVec.ofNat 16 0)) := by
  have hdlab' : (m.uart port).setup.dlab = false := by rw [h.setup port, hdlab]
  rw [m.outb_addr c port (by decide)]
  refine ⟨fun com => ?_, ?_, fun com hcom => ?_, ?_⟩
  · by_cases hcom : com = port
    · subst hcom
      rw [SerialMachine.setUart_same, ← h.setup com]
      show (m.uart com).setup.write c 0 = _
      rw [Setup.write, hdlab']
      rfl
    · rw [SerialMachine.setUart_of_ne m hcom, h.setup com]
  · rw [SerialMachine.setUart_same, Uart.stream_write htx hdlab', h.stream, List.append_assoc]
  · rw [SerialMachine.setUart_of_ne m hcom]
    exact h.others com hcom
  · rw [SerialMachine.setUart_same]
    have hsent : ((m.uart port).write c 0).sent = (m.uart port).sent := by
      show ((m.uart port).writeData c 0).sent = _
      rw [Uart.writeData, hdlab']
      rfl
    rw [hsent]
    exact h.sent

theorem SerialPrinted.inb (h : SerialPrinted port m₀ out m) (p : BitVec 16) :
    SerialPrinted port m₀ out (m.inb p).2 := by
  refine ⟨fun com => ?_, ?_, fun com hcom => ?_, ?_⟩
  · rw [(m.inb_keeps p com).1, h.setup com]
  · rw [(m.inb_keeps p port).2.1, h.stream]
  · rw [(m.inb_keeps p com).2.1]
    exact h.others com hcom
  · rw [(m.inb_keeps p port).2.2.1]
    exact h.sent

/-- Bit 5 of the line status, as `write_byte` asks for it. -/
theorem isset8_lsr (m : SerialMachine) (port : SerialPort) :
    isset8 (m.inb (port.addr + BitVec.ofNat 16 5)).1 5 = (m.uart port).tx.isEmpty := by
  rw [isset8_eq, m.inb_addr port (by decide)]
  exact Uart.lsr_txEmpty _

/-- A prefix of the string has been printed. -/
def SerialPrinting (port : SerialPort) (m₀ : SerialMachine) (str : List (BitVec 8))
    (m : SerialMachine) : Prop := ∃ out, out <+: str ∧ SerialPrinted port m₀ out m

/-- `write_byte`. -/
theorem writeByte_follows (hloop : (m₀.uart port).setup.loopBack = false)
    (hdlab : (m₀.uart port).setup.dlab = false) (c : BitVec 8) {str : List (BitVec 8)}
    (hstr : out ++ [c] <+: str) :
    Spec SerialMachine.Move (SerialPrinting port m₀ str) (SerialPrinted port m₀ out)
      (writeByteCom port c : Driver SerialMachine Unit)
      (fun _ => SerialPrinted port m₀ (out ++ [c])) := by
  have hout : out <+: str := (List.prefix_append out [c]).trans hstr
  refine Spec.poll (R := fun _ m => SerialPrinted port m₀ out m ∧ (m.uart port).tx = [])
    (printed_stable hloop) (fun m h => ⟨out, hout, h⟩) ?_ ?_ fun _ => ?_
  · exact fun m h _ => h.inb _
  · intro m h hempty
    have htx : (m.uart port).tx.isEmpty = true := (isset8_lsr m port).symm.trans hempty
    refine ⟨h.inb _, ?_⟩
    show ((m.inb (port.addr + Serial.lsr)).2.uart port).tx = []
    rw [(m.inb_keeps _ port).2.2.2]
    exact List.isEmpty_iff.mp htx
  · refine Spec.act ?_ (fun m h => ⟨out, hout, h.1⟩) (fun m h => ?_)
      (Spec.ret (printed_stable hloop) (fun m h => ⟨_, hstr, h⟩) fun m h => h)
    · exact fun m m' h hmove => ⟨h.1.move hmove hloop, hmove.tx h.2⟩
    · have hput := h.1.put h.2 hdlab c
      rwa [BitVec.add_zero] at hput

/-- `serial_write_string`. -/
theorem serialWriteString_follows (serial : Serial) (str all : List (BitVec 8))
    (hloop : (m₀.uart serial.writeFn).setup.loopBack = false)
    (hdlab : (m₀.uart serial.writeFn).setup.dlab = false) (hall : out ++ str <+: all) :
    Spec SerialMachine.Move (SerialPrinting serial.writeFn m₀ all)
      (SerialPrinted serial.writeFn m₀ out)
      (serialWriteString serial str : Driver SerialMachine Unit)
      (fun _ => SerialPrinted serial.writeFn m₀ (out ++ str)) := by
  induction str generalizing out with
  | nil =>
      rw [List.append_nil] at hall ⊢
      exact Spec.ret (printed_stable hloop) (fun m h => ⟨out, hall, h⟩) fun m h => h
  | cons c str ih =>
      have hsplit : out ++ c :: str = (out ++ [c]) ++ str := by rw [List.append_assoc]; rfl
      rw [hsplit] at hall ⊢
      have hprefix : out ++ [c] <+: all := (List.prefix_append _ _).trans hall
      exact Spec.bind (writeByte_follows hloop hdlab c hprefix) fun _ => ih hall

/-- A program that waits for transmitters only is never stuck. -/
theorem writeByte_waits (good : SerialMachine → Prop) (port : SerialPort) (c : BitVec 8) :
    Prog.Waits SerialMachine.Move good (writeByteCom port c : Driver SerialMachine Unit) := by
  refine ⟨fun m _ => ?_, fun _ => trivial⟩
  obtain ⟨m', hmoves, htx⟩ := m.exists_drained port
  refine ⟨m', hmoves, ?_⟩
  show isset8 (m'.inb (port.addr + BitVec.ofNat 16 5)).1 5 = true
  rw [isset8_lsr, htx]
  rfl

theorem serialWriteString_waits (good : SerialMachine → Prop) (serial : Serial)
    (str : List (BitVec 8)) :
    Prog.Waits SerialMachine.Move good
      (serialWriteString serial str : Driver SerialMachine Unit) := by
  induction str with
  | nil => trivial
  | cons c str ih => exact Prog.Waits.bind (writeByte_waits good _ c) fun _ => ih

end Print

/-- **Printing loses nothing.** The port is not in loop back, and its divisor latch is not selected.
However the UARTs go on and the guest reads the ports passed through to it: at every moment a prefix
of the string has been added to what the transmitter was given, and nothing else. What has been sent
meanwhile has the programmed format. The function can always return, and then the prefix is the
string. -/
theorem serialWriteString_spec {m₀ m : SerialMachine} (serial : Serial) (str : List (BitVec 8))
    (hloop : (m₀.uart serial.writeFn).setup.loopBack = false)
    (hdlab : (m₀.uart serial.writeFn).setup.dlab = false) {p : Driver SerialMachine Unit}
    (hrun : Steps SerialMachine.Move (serialWriteString serial str, m₀) (p, m)) :
    (∃ out, out <+: str ∧ SerialPrinted serial.writeFn m₀ out m) ∧
    (p = .ret () → SerialPrinted serial.writeFn m₀ str m) ∧
    ∃ m', Steps SerialMachine.Move (p, m) (.ret (), m') ∧
      SerialPrinted serial.writeFn m₀ str m' := by
  have hspec := serialWriteString_follows serial str str hloop hdlab
    (show [] ++ str <+: str from List.prefix_rfl)
  have hstart := SerialPrinted.refl serial.writeFn m₀
  obtain ⟨hgood, hreturn⟩ := hspec.sound hstart hrun
  obtain ⟨_, m', hsteps, hprinted⟩ :=
    hspec.returns hstart (serialWriteString_waits _ serial str) hrun
  exact ⟨hgood, hreturn (), m', hsteps, hprinted⟩

theorem serialWriteString_spec_reset : ∃ m, Steps SerialMachine.Move
      (serialWriteString ⟨COM1, .com1, .com1⟩ [0x4F#8, 0x4B#8], serialAtReset) (.ret (), m) ∧
    SerialPrinted .com1 serialAtReset [0x4F#8, 0x4B#8] m :=
  (serialWriteString_spec ⟨COM1, .com1, .com1⟩ [0x4F#8, 0x4B#8] rfl rfl .refl).2.2

end YmirC
