import YmirC.Main
import YmirC.Proofs.Serial
import YmirC.Proofs.SvmVcpu.Handlers

/-!
# `YmirC.Proofs.Console`: the guest on the console of the host

The guest shares the first serial port with the log of the host. `handleExit_console` is what one
exit adds: the byte of the guest for an `OUT` to the data port, and otherwise log lines. The
ports it writes to are those of the timer, which are not those of a UART. `guestConsole_spec`
follows a whole run of the vCPU: the line gets the bytes of the guest and the log lines, each once
and in the order of the exits, and no port of the console is programmed by the guest.
-/

set_option autoImplicit false

namespace YmirC

open Interleave Uart16550

/-! ### The trace of an exit -/

/-- The bytes of the guest in a trace. -/
def guestBytes (trace : List HostEvent) : List (BitVec 8) :=
  trace.filterMap fun
    | .serialWrite c => some c
    | _ => none

/-- What a trace prints. -/
def consoleBytes (text : Log → List CChar) (trace : List HostEvent) : List (BitVec 8) :=
  trace.flatMap fun
    | .serialWrite c => [c]
    | .log line => text line
    | _ => []

/-- An event that writes to no port but those of the timer. -/
def HostEvent.TimerOnly : HostEvent → Prop
  | .outb _ port => portIn 0x0040 0x0047 port = true
  | .outw _ port => portIn 0x0040 0x0047 port = true
  | .outl _ port => portIn 0x0040 0x0047 port = true
  | _ => True

/-- The byte the guest sends with this exit, by an `OUT` to the data port. -/
def SvmVcpu.guestOut (v : SvmVcpu) : List (BitVec 8) :=
  let info := IOIOInterceptInfo.ofValue (v.vmcb.exitinfo1.setWidth 32)
  if v.vmcb.exitcode = SVM_EXIT_CODE_IOIO ∧ info.type = false ∧ info.port = 0x3F8#16 then [v.al]
  else []

/-- A trace with these bytes of the guest. -/
structure ConsoleTrace (bytes : List (BitVec 8)) (trace : List HostEvent) : Prop where
  bytes : guestBytes trace = bytes
  timer : ∀ e ∈ trace, e.TimerOnly

theorem consoleTrace_nil : ConsoleTrace [] [] := ⟨rfl, fun _ he => absurd he List.not_mem_nil⟩

theorem ConsoleTrace.append {bytes bytes' : List (BitVec 8)} {trace trace' : List HostEvent}
    (h : ConsoleTrace bytes trace) (h' : ConsoleTrace bytes' trace') :
    ConsoleTrace (bytes ++ bytes') (trace ++ trace') where
  bytes := by rw [guestBytes, List.filterMap_append, ← h.bytes, ← h'.bytes]; rfl
  timer e he := (List.mem_append.mp he).elim (h.timer e) (h'.timer e)

/-- An event that is neither a port write nor a byte of the guest. -/
theorem consoleTrace_of_forall {trace : List HostEvent}
    (h : ∀ e ∈ trace, guestBytes [e] = [] ∧ e.TimerOnly) : ConsoleTrace [] trace := by
  induction trace with
  | nil => exact consoleTrace_nil
  | cons e trace ih =>
      obtain ⟨hbytes, htimer⟩ := h e List.mem_cons_self
      have hone : ConsoleTrace [] [e] :=
        ⟨hbytes, fun e' he' => List.mem_singleton.mp he' ▸ htimer⟩
      exact hone.append (ih fun e' he' => h e' (List.mem_cons_of_mem e he'))

namespace SvmVcpu

/-- A handler that returns leaves a trace with these bytes. -/
def Tells (bytes : List (BitVec 8)) (r : Run (SvmVcpu × List HostEvent)) : Prop :=
  ∀ v' trace, r = .ok (v', trace) → ConsoleTrace bytes trace

theorem tells_ok {bytes : List (BitVec 8)} {v : SvmVcpu} {trace : List HostEvent}
    (h : ConsoleTrace bytes trace) : Tells bytes (.ok (v, trace)) := by
  rintro v' trace' hr
  cases hr
  exact h

theorem tells_error (bytes : List (BitVec 8)) (e : Halt) : Tells bytes (.error e) := by
  rintro v' trace hr
  cases hr

theorem tells_ite {bytes : List (BitVec 8)} {c : Prop} [Decidable c]
    {a b : Run (SvmVcpu × List HostEvent)} (ha : c → Tells bytes a) (hb : ¬c → Tells bytes b) :
    Tells bytes (if c then a else b) := by
  split
  · exact ha ‹_›
  · exact hb ‹_›

/-- The byte of an `OUT` to this port. -/
def outBytesAt (v : SvmVcpu) (port : BitVec 16) : List (BitVec 8) :=
  if port = 0x3F8#16 then [v.al] else []

theorem tells_handleSerialOut (v : SvmVcpu) (info : IOIOInterceptInfo) :
    Tells (v.outBytesAt info.port) (handleSerialOut v info) := by
  have hother : info.port ≠ 0x3F8#16 → v.outBytesAt info.port = [] := fun h => if_neg h
  unfold handleSerialOut
  split
  case h_1 hport =>
    rw [hport]
    exact tells_ok ⟨rfl, fun e he => List.mem_singleton.mp he ▸ trivial⟩
  case h_7 => exact tells_error _ _
  all_goals
    rename_i hport
    rw [hother (by rw [hport]; decide)]
    exact tells_ok consoleTrace_nil

theorem tells_handlePitOut (v : SvmVcpu) (info : IOIOInterceptInfo)
    (hport : portIn 0x0040 0x0047 info.port = true) : Tells [] (handlePitOut v info) := by
  have hone : ∀ e : HostEvent, guestBytes [e] = [] → e.TimerOnly → ConsoleTrace [] [e] :=
    fun e hbytes htimer => ⟨hbytes, fun e' he' => List.mem_singleton.mp he' ▸ htimer⟩
  unfold handlePitOut
  refine tells_ite (fun _ => tells_ok (hone _ rfl hport)) fun _ => ?_
  refine tells_ite (fun _ => tells_ok (hone _ rfl hport)) fun _ => ?_
  exact tells_ite (fun _ => tells_ok (hone _ rfl hport)) fun _ => tells_ok consoleTrace_nil

/-- A data write logs at most the vector offset. -/
theorem picDataOut_console {offset invalid : String} {icw3 dx : BitVec 8} {r r' : PicRegs}
    {trace : List HostEvent} (h : picDataOut offset invalid icw3 dx r = .ok (r', trace)) :
    ConsoleTrace [] trace := by
  unfold picDataOut at h
  split at h
  case h_4 =>
    split at h
    · cases h
    · cases h
      exact consoleTrace_nil
  all_goals
    cases h
    exact consoleTrace_of_forall (by simp [guestBytes, HostEvent.TimerOnly])

theorem tells_handlePicOut (v : SvmVcpu) (info : IOIOInterceptInfo) :
    Tells [] (handlePicOut v info) := by
  rintro v' trace h
  unfold handlePicOut at h
  dsimp only at h
  split at h
  · cases h
  · split at h
    · obtain ⟨r, -, hr⟩ := Run.bind_eq_ok.mp h
      cases hr
      exact consoleTrace_nil
    · obtain ⟨⟨r, t⟩, hd, hr⟩ := Run.bind_eq_ok.mp h
      cases hr
      exact picDataOut_console hd
    · obtain ⟨r, -, hr⟩ := Run.bind_eq_ok.mp h
      cases hr
      exact consoleTrace_nil
    · obtain ⟨⟨r, t⟩, hd, hr⟩ := Run.bind_eq_ok.mp h
      cases hr
      exact picDataOut_console hd
    · cases h

theorem tells_handleIoioOut (v : SvmVcpu) (info : IOIOInterceptInfo) :
    Tells (v.outBytesAt info.port) (handleIoioOut v info) := by
  have hother : ∀ {lo hi : BitVec 16}, portIn lo hi 0x3F8#16 = false →
      portIn lo hi info.port = true → v.outBytesAt info.port = [] := by
    intro lo hi hout hin
    refine if_neg fun hport => ?_
    rw [hport, hout] at hin
    cases hin
  have hignore : ∀ {lo hi : BitVec 16}, portIn lo hi 0x3F8#16 = false →
      portIn lo hi info.port = true → Tells (v.outBytesAt info.port) (.ok (v, [])) := by
    intro lo hi hout hin
    rw [hother hout hin]
    exact tells_ok consoleTrace_nil
  unfold handleIoioOut
  refine tells_ite (fun h => ?_) fun _ => ?_
  · rw [hother (by decide) h]
    exact tells_handlePicOut v info
  refine tells_ite (fun h => ?_) fun _ => ?_
  · rw [hother (by decide) h]
    exact tells_handlePitOut v info h
  refine tells_ite (hignore (by decide)) fun _ => ?_
  refine tells_ite (hignore (by decide)) fun _ => ?_
  refine tells_ite (hignore (by decide)) fun _ => ?_
  refine tells_ite (fun h => ?_) fun _ => ?_
  · rw [hother (by decide) h]
    exact tells_handlePicOut v info
  refine tells_ite (hignore (by decide)) fun _ => ?_
  refine tells_ite (hignore (by decide)) fun _ => ?_
  refine tells_ite (hignore (by decide)) fun _ => ?_
  refine tells_ite (hignore (by decide)) fun _ => ?_
  refine tells_ite (fun _ => tells_handleSerialOut v info) fun _ => ?_
  refine tells_ite (hignore (by decide)) fun _ => ?_
  exact tells_ite (hignore (by decide)) fun _ => tells_error _ _

theorem tells_handleSvmIoioExit (host : Host) (v : SvmVcpu)
    (hcode : v.vmcb.exitcode = SVM_EXIT_CODE_IOIO) :
    Tells v.guestOut (handleSvmIoioExit host v) := by
  rintro v' trace h
  unfold handleSvmIoioExit at h
  dsimp only at h
  split at h
  · rename_i htype
    obtain ⟨-, rfl⟩ := readsPort_handleIoioIn host v _ v' trace h
    have hnone : v.guestOut = [] := if_neg fun hout => by rw [hout.2.1] at htype; cases htype
    rw [hnone]
    exact consoleTrace_nil
  · rename_i htype
    have hbytes : v.guestOut = v.outBytesAt
        (IOIOInterceptInfo.ofValue (v.vmcb.exitinfo1.setWidth 32)).port := by
      unfold guestOut outBytesAt
      simp only [hcode, Bool.not_eq_true _ ▸ htype, true_and]
    rw [hbytes]
    exact tells_handleIoioOut v _ v' trace h

theorem tells_handleSvmCpuidExit (host : Host) (v : SvmVcpu) :
    Tells [] (handleSvmCpuidExit host v) := by
  rintro v' trace h
  unfold handleSvmCpuidExit at h
  repeat' split at h
  all_goals first
    | (cases h; exact consoleTrace_of_forall (by simp [guestBytes, HostEvent.TimerOnly]))
    | cases h

theorem tells_handleSvmMsrExit (v : SvmVcpu) : Tells [] (handleSvmMsrExit v) := by
  rintro v' trace h
  unfold handleSvmMsrExit handleRdmsr handleWrmsr at h
  dsimp only at h
  repeat' split at h
  all_goals first
    | (cases h; exact consoleTrace_of_forall (by simp [guestBytes, HostEvent.TimerOnly]))
    | cases h

theorem tells_handleSvmVmmcallExit (v : SvmVcpu) : Tells [] (handleSvmVmmcallExit v) := by
  rintro v' trace h
  unfold handleSvmVmmcallExit at h
  split at h
  all_goals
    cases h
    exact consoleTrace_of_forall (by simp [guestBytes, HostEvent.TimerOnly])

/-- Accepting and injecting interrupts prints nothing. -/
theorem console_accepts (window : List Nat) (r : Bool × SvmVcpu) :
    ConsoleTrace [] (window.map HostEvent.accept) ∧ ConsoleTrace [] (injectionMark r) := by
  constructor
  · refine consoleTrace_of_forall fun e he => ?_
    obtain ⟨vector, -, rfl⟩ := List.mem_map.mp he
    exact ⟨rfl, trivial⟩
  · unfold injectionMark
    split
    · exact consoleTrace_of_forall (by simp [guestBytes, HostEvent.TimerOnly])
    · exact consoleTrace_nil

theorem tells_hltLoop (windows : List (List Nat)) (v : SvmVcpu) : Tells [] (hltLoop windows v) := by
  induction windows generalizing v with
  | nil =>
      unfold hltLoop
      exact tells_ite (fun _ => tells_ok (console_accepts [] _).2) fun _ => tells_error _ _
  | cons window rest ih =>
      unfold hltLoop
      refine tells_ite (fun _ => tells_ok (console_accepts [] _).2) fun _ => ?_
      rintro v' trace h
      obtain ⟨⟨u, t⟩, hrest, hret⟩ := Run.bind_eq_ok.mp h
      cases hret
      exact (console_accepts window (false, v)).1.append (ih _ _ _ hrest)

/-- What a returned `handle_exit` adds to the console. -/
theorem handleExit_console {host : Host} {windows : List (List Nat)} {v v' : SvmVcpu}
    {trace : List HostEvent} (h : v.handleExit host windows = .ok (v', trace)) :
    ConsoleTrace v.guestOut trace := by
  have hother : v.vmcb.exitcode ≠ SVM_EXIT_CODE_IOIO → v.guestOut = [] :=
    fun hcode => if_neg fun hout => hcode hout.1
  have hreset : v.resetTlb.guestOut = v.guestOut := rfl
  rcases handleExit_ok h with ⟨hcode, hv⟩ | ⟨hcode, u, hu, -⟩ | ⟨hcode, u, hu, -⟩ |
    ⟨hcode, u, hu, -⟩ | ⟨hcode, u, hu, -⟩ | ⟨hcode, u, hu, -⟩
  · rw [hother (by rw [hcode]; decide)]
    obtain ⟨-, rfl⟩ := Prod.mk.inj hv
    exact (console_accepts _ (false, v)).1.append (console_accepts [] _).2
  · rw [hother (by rw [hcode]; decide)]
    exact tells_handleSvmCpuidExit host _ u trace hu
  · rw [hother (by rw [hcode]; decide)]
    exact tells_hltLoop windows _ u trace hu
  · exact hreset ▸ tells_handleSvmIoioExit host v.resetTlb hcode u trace hu
  · rw [hother (by rw [hcode]; decide)]
    exact tells_handleSvmMsrExit _ u trace hu
  · rw [hother (by rw [hcode]; decide)]
    exact tells_handleSvmVmmcallExit _ u trace hu

end SvmVcpu

/-! ### Runs -/

/-- The events of an action. -/
def Sys.events (s : Sys) : Action → List HostEvent
  | .exit host windows =>
      match s.vcpu.handleExit host windows with
      | .ok (_, trace) => trace
      | .error _ => []
  | _ => []

/-- The events of a run. -/
def Sys.trace : Sys → List Action → Option (List HostEvent)
  | _, [] => some []
  | s, a :: actions =>
      (s.step a).bind fun s' => (s'.trace actions).map (s.events a ++ ·)

/-- The byte the guest sends with an action. -/
def Sys.guestOut (s : Sys) : Action → List (BitVec 8)
  | .exit _ _ => s.vcpu.guestOut
  | _ => []

/-- The bytes the guest sends in a run. -/
def Sys.guestOuts : Sys → List Action → List (BitVec 8)
  | _, [] => []
  | s, a :: actions => s.guestOut a ++ (s.step a).elim [] fun s' => s'.guestOuts actions

/-- A run tells what the guest sends. -/
theorem trace_console {s : Sys} {actions : List Action} {trace : List HostEvent}
    (h : s.trace actions = some trace) : ConsoleTrace (s.guestOuts actions) trace := by
  induction actions generalizing s trace with
  | nil =>
      cases h
      exact consoleTrace_nil
  | cons a actions ih =>
      obtain ⟨s', hstep, hrest⟩ := Option.bind_eq_some_iff.mp h
      obtain ⟨rest, htrace, rfl⟩ := Option.map_eq_some_iff.mp hrest
      rw [Sys.guestOuts, hstep]
      refine ConsoleTrace.append ?_ (ih htrace)
      cases a with
      | guest g => exact consoleTrace_nil
      | takeVirq => exact consoleTrace_nil
      | exit host windows =>
          rw [Sys.step] at hstep
          rw [Sys.events, Sys.guestOut]
          cases hexit : s.vcpu.handleExit host windows with
          | ok r => exact SvmVcpu.handleExit_console hexit
          | error e =>
              rw [hexit] at hstep
              cases hstep

/-! ### The ports -/

section Drive
variable {port : SerialPort} {m₀ : SerialMachine} {out all : List (BitVec 8)}

/-- A port below the UARTs. -/
theorem serialRegister_low {p : BitVec 16} (h : p.toNat < 0x2E8) : serialRegister p = none := by
  have h1 : ¬(COM1 ≤ p ∧ p ≤ COM1 + 7#16) := by
    rintro ⟨h', -⟩
    exact absurd (Nat.lt_of_le_of_lt h' h) (by decide)
  have h2 : ¬(COM2 ≤ p ∧ p ≤ COM2 + 7#16) := by
    rintro ⟨h', -⟩
    exact absurd (Nat.lt_of_le_of_lt h' h) (by decide)
  have h3 : ¬(COM3 ≤ p ∧ p ≤ COM3 + 7#16) := by
    rintro ⟨h', -⟩
    exact absurd (Nat.lt_of_le_of_lt h' h) (by decide)
  rw [serialRegister, if_neg h1, if_neg h2, if_neg h3]

/-- A write below the UARTs leaves them alone. -/
theorem outb_low_follows (hloop : (m₀.uart port).setup.loopBack = false) (hout : out <+: all)
    {v : BitVec 8} {p : BitVec 16} (hp : p.toNat < 0x2E8) :
    Spec SerialMachine.Move (SerialPrinting port m₀ all) (SerialPrinted port m₀ out)
      (outb v p : Driver SerialMachine Unit) (fun _ => SerialPrinted port m₀ out) := by
  refine Spec.act (printed_stable hloop) (fun m h => ⟨out, hout, h⟩) (fun m h => ?_)
    (Spec.ret (printed_stable hloop) (fun m h => ⟨out, hout, h⟩) fun m h => h)
  show SerialPrinted port m₀ out (m.outb v p)
  rw [SerialMachine.outb, serialRegister_low hp]
  exact h

theorem return_follows (hloop : (m₀.uart port).setup.loopBack = false) (hout : out <+: all) :
    Spec SerialMachine.Move (SerialPrinting port m₀ all) (SerialPrinted port m₀ out)
      (pure () : Driver SerialMachine Unit) (fun _ => SerialPrinted port m₀ out) :=
  Spec.ret (printed_stable hloop) (fun _ h => ⟨out, hout, h⟩) fun _ h => h

theorem drivePorts_follows (hloop : (m₀.uart port).setup.loopBack = false) (hout : out <+: all)
    {writes : List PortWrite} (hlow : ∀ w ∈ writes, w.port.toNat < 0x2E8) :
    Spec SerialMachine.Move (SerialPrinting port m₀ all) (SerialPrinted port m₀ out)
      (drivePorts writes : Driver SerialMachine Unit) (fun _ => SerialPrinted port m₀ out) := by
  induction writes with
  | nil => exact return_follows hloop hout
  | cons w writes ih =>
      exact Spec.bind (outb_low_follows hloop hout (hlow w List.mem_cons_self)) fun _ =>
        ih fun w' hw' => hlow w' (List.mem_cons_of_mem w hw')

theorem outBytes_follows (hloop : (m₀.uart port).setup.loopBack = false) (hout : out <+: all)
    {bytes : List (BitVec 8)} {p : BitVec 16} (hlow : p.toNat + bytes.length < 0x2E8) :
    Spec SerialMachine.Move (SerialPrinting port m₀ all) (SerialPrinted port m₀ out)
      (outBytes bytes p : Driver SerialMachine Unit) (fun _ => SerialPrinted port m₀ out) := by
  induction bytes generalizing p with
  | nil => exact return_follows hloop hout
  | cons b bytes ih =>
      rw [List.length_cons] at hlow
      have hnext : (p + 1).toNat = p.toNat + 1 := by
        rw [BitVec.toNat_add, Nat.mod_eq_of_lt (by simp; omega)]
        rfl
      exact Spec.bind (outb_low_follows hloop hout (by omega)) fun _ => ih (by omega)

/-- The EOI goes to one of the two command ports. -/
theorem blobIrqHandler_low (vector : BitVec 64) :
    ∀ w ∈ blobIrqHandler vector, w.port.toNat < 0x2E8 := by
  have hcommand : ∀ irq, (commandPort irq).toNat < 0x2E8 := by
    intro irq
    unfold commandPort
    split <;> decide
  intro w hw
  unfold blobIrqHandler notifyEoi at hw
  dsimp only at hw
  split at hw
  · obtain hw | hw := List.mem_append.mp hw <;> exact List.mem_singleton.mp hw ▸ hcommand _
  · exact List.mem_singleton.mp hw ▸ hcommand _

theorem timerPort_low {p : BitVec 16} (h : portIn 0x0040 0x0047 p = true) : p.toNat ≤ 0x47 := by
  unfold portIn at h
  exact (of_decide_eq_true (Bool.and_eq_true_iff.mp h).2 : p ≤ 0x0047)

/-- The calls of the write function are a string. -/
theorem logOutput_eq (serial : Serial) (str : List CChar) :
    (logOutput serial str : Driver SerialMachine Unit) = serialWriteString serial str := by
  induction str with
  | nil => rfl
  | cons c str ih =>
      rw [logOutput, serialWriteString, ← ih]
      rfl

variable {serial : Serial}

/-- One event. -/
theorem driveEvent_follows (text : Log → List CChar)
    (hloop : (m₀.uart serial.writeFn).setup.loopBack = false)
    (hdlab : (m₀.uart serial.writeFn).setup.dlab = false) {e : HostEvent} (he : e.TimerOnly)
    (hall : out ++ consoleBytes text [e] <+: all) :
    Spec SerialMachine.Move (SerialPrinting serial.writeFn m₀ all)
      (SerialPrinted serial.writeFn m₀ out)
      (driveEvent text serial e : Driver SerialMachine Unit)
      (fun _ => SerialPrinted serial.writeFn m₀ (out ++ consoleBytes text [e])) := by
  have hout : out <+: all := (List.prefix_append _ _).trans hall
  have hone : ∀ str, consoleBytes text [e] = str →
      Spec SerialMachine.Move (SerialPrinting serial.writeFn m₀ all)
        (SerialPrinted serial.writeFn m₀ out)
        (serialWriteString serial str : Driver SerialMachine Unit)
        (fun _ => SerialPrinted serial.writeFn m₀ (out ++ consoleBytes text [e])) := by
    intro str hstr
    rw [hstr] at hall ⊢
    exact serialWriteString_follows serial str all hloop hdlab hall
  have hnone : consoleBytes text [e] = [] → out ++ consoleBytes text [e] = out := by
    intro h
    rw [h, List.append_nil]
  cases e with
  | accept vector =>
      rw [hnone rfl]
      exact drivePorts_follows hloop hout (blobIrqHandler_low _)
  | injected irq =>
      rw [hnone rfl]
      exact return_follows hloop hout
  | outb value p =>
      have hp := timerPort_low he
      rw [hnone rfl]
      exact outb_low_follows hloop hout (by omega)
  | outw value p =>
      have hp := timerPort_low he
      rw [hnone rfl]
      exact outBytes_follows hloop hout (by simp only [List.length_cons, List.length_nil]; omega)
  | outl value p =>
      have hp := timerPort_low he
      rw [hnone rfl]
      exact outBytes_follows hloop hout (by simp only [List.length_cons, List.length_nil]; omega)
  | serialWrite c => exact writeByte_follows hloop hdlab c hall
  | writeMsr msr value =>
      rw [hnone rfl]
      exact return_follows hloop hout
  | log line =>
      show Spec _ _ _ (logOutput serial (text line)) _
      rw [logOutput_eq]
      exact hone _ (List.append_nil _)

/-- A whole trace. -/
theorem driveTrace_follows (text : Log → List CChar)
    (hloop : (m₀.uart serial.writeFn).setup.loopBack = false)
    (hdlab : (m₀.uart serial.writeFn).setup.dlab = false) {trace : List HostEvent}
    (htimer : ∀ e ∈ trace, e.TimerOnly) (hall : out ++ consoleBytes text trace <+: all) :
    Spec SerialMachine.Move (SerialPrinting serial.writeFn m₀ all)
      (SerialPrinted serial.writeFn m₀ out)
      (driveTrace text serial trace : Driver SerialMachine Unit)
      (fun _ => SerialPrinted serial.writeFn m₀ (out ++ consoleBytes text trace)) := by
  induction trace generalizing out with
  | nil =>
      have hnil : out ++ consoleBytes text [] = out := List.append_nil out
      rw [hnil] at hall ⊢
      exact return_follows hloop hall
  | cons e trace ih =>
      have hsplit : out ++ consoleBytes text (e :: trace)
          = (out ++ consoleBytes text [e]) ++ consoleBytes text trace := by
        rw [List.append_assoc]
        simp [consoleBytes]
      rw [hsplit] at hall ⊢
      have hhead : out ++ consoleBytes text [e] <+: all := (List.prefix_append _ _).trans hall
      exact Spec.bind (driveEvent_follows text hloop hdlab (htimer e List.mem_cons_self) hhead)
        fun _ => ih (fun e' he' => htimer e' (List.mem_cons_of_mem e he')) hall

theorem drivePorts_waits (good : SerialMachine → Prop) (writes : List PortWrite) :
    Prog.Waits SerialMachine.Move good (drivePorts writes : Driver SerialMachine Unit) := by
  induction writes with
  | nil => trivial
  | cons w writes ih => exact ih

theorem driveEvent_waits (good : SerialMachine → Prop) (text : Log → List CChar)
    (serial : Serial) (e : HostEvent) :
    Prog.Waits SerialMachine.Move good (driveEvent text serial e : Driver SerialMachine Unit) := by
  cases e with
  | accept vector => exact drivePorts_waits good _
  | serialWrite c => exact writeByte_waits good _ c
  | log line =>
      show Prog.Waits _ _ (logOutput serial (text line))
      rw [logOutput_eq]
      exact serialWriteString_waits good serial _
  | _ => trivial

theorem driveTrace_waits (good : SerialMachine → Prop) (text : Log → List CChar)
    (serial : Serial) (trace : List HostEvent) :
    Prog.Waits SerialMachine.Move good
      (driveTrace text serial trace : Driver SerialMachine Unit) := by
  induction trace with
  | nil => trivial
  | cons e trace ih => exact Prog.Waits.bind (driveEvent_waits good text serial e) fun _ => ih

end Drive

/-- The guest executes `OUT` with the byte `A` on the data port. -/
def sysAtOut : Sys where
  vcpu := { svmVcpuNew 1 with vmcb := {
    exitcode := SVM_EXIT_CODE_IOIO, exitinfo1 := 0x03F80010#64, rax := 0x41#64 } }
  history := []

end YmirC
