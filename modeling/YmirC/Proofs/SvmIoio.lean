import Mathlib.Data.List.Induction
import YmirC.Proofs.SvmVcpu.Handlers

/-!
# `YmirC.Proofs.SvmIoio`: the emulated 8259 pair follows the ICW/OCW protocol

The handlers of `svm_ioio.c` keep three registers for each PIC: its initialization phase, its
vector base and its mask. This module states what those registers should be as functions of
the history of the writes to the PIC's own two ports, newest first, with no state machine in
between: `phaseAfter` counts the data bytes since the last ICW1, `baseAfter` looks for the
byte that came first after an ICW1, and `maskAfter` for the last byte written outside an
initialization.

`picWrite_regsAfter` is the step: one write to a PIC whose registers are those of its history
`h` either is `Rejected` and aborts, or leaves the registers of `w :: h`.
`handleExit_picOut` carries it to the real exit handler, and `outRun_regs` to every sequence
of `OUT` exits. The two PICs do not disturb each other because a write to one leaves the
registers of the other alone (`regs_setRegs`).
-/

set_option autoImplicit false

namespace YmirC

/-! ### The protocol as a function of the history -/

/-- A byte written to the command port or to the data port of a PIC. -/
inductive PicWrite where
  | command (dx : BitVec 8)
  | data (dx : BitVec 8)
  deriving DecidableEq, Repr

/-- The data bytes written since the last ICW1, newest first. `none` when there was no ICW1. -/
def dataSinceIcw1 : List PicWrite → Option (List (BitVec 8))
  | [] => none
  | .command dx :: h => if dx = 0x11 then some [] else dataSinceIcw1 h
  | .data dx :: h => (dataSinceIcw1 h).map (dx :: ·)

/-- The phase with the given data bytes since the last ICW1. -/
def phaseOf : Option (List (BitVec 8)) → SvmPicInitPhase
  | none => .uninitialized
  | some [] => .phase1
  | some [_] => .phase2
  | some [_, _] => .phase3
  | some (_ :: _ :: _ :: _) => .inited

/-- The phase a PIC is in after the history `h`. -/
def phaseAfter (h : List PicWrite) : SvmPicInitPhase := phaseOf (dataSinceIcw1 h)

/-- The most recent data byte that came first after an ICW1. -/
def baseAfter : List PicWrite → BitVec 8
  | [] => 0
  | .command _ :: h => baseAfter h
  | .data dx :: h => if dataSinceIcw1 h = some [] then dx else baseAfter h

/-- The phases in which the data port is the mask register. -/
def SvmPicInitPhase.IsMaskPhase (phase : SvmPicInitPhase) : Prop :=
  phase = .uninitialized ∨ phase = .inited

instance (phase : SvmPicInitPhase) : Decidable phase.IsMaskPhase :=
  inferInstanceAs (Decidable (_ ∨ _))

/-- The last data byte written while the data port was the mask register. -/
def maskAfter : List PicWrite → BitVec 8
  | [] => 0xFF
  | .command _ :: h => maskAfter h
  | .data dx :: h => if (phaseAfter h).IsMaskPhase then dx else maskAfter h

/-- The registers a PIC has after the history `h`. -/
def regsAfter (h : List PicWrite) : PicRegs :=
  { phase := phaseAfter h, base := baseAfter h, mask := maskAfter h }

/-- The write is a command the PIC does not know, or a wrong ICW3. -/
def Rejected (icw3 : BitVec 8) (h : List PicWrite) : PicWrite → Prop
  | .command dx => dx ≠ 0x11 ∧ ¬ (0x60 ≤ dx ∧ dx ≤ 0x67)
  | .data dx => phaseAfter h = .phase2 ∧ dx ≠ icw3

/-! ### The two PICs and their ports -/

/-- One of the two PICs. -/
inductive PicUnit where
  | primary
  | secondary
  deriving DecidableEq, Repr

/-- The ICW3 byte a PIC accepts: the line of the cascade, or the identity on it. -/
def PicUnit.icw3 : PicUnit → BitVec 8
  | .primary => 4
  | .secondary => 2

/-- The registers of one PIC. -/
def SvmIoioGuestState.regs (g : SvmIoioGuestState) : PicUnit → PicRegs
  | .primary => g.primary
  | .secondary => g.secondary

/-- The state with the registers of one PIC replaced. -/
def SvmIoioGuestState.setRegs (g : SvmIoioGuestState) (u : PicUnit) (r : PicRegs) :
    SvmIoioGuestState :=
  match u with
  | .primary => g.setPrimary r
  | .secondary => g.setSecondary r

/-- A write to one PIC leaves the other alone. -/
theorem regs_setRegs (g : SvmIoioGuestState) (u u' : PicUnit) (r : PicRegs) :
    (g.setRegs u r).regs u' = if u' = u then r else g.regs u' := by
  cases u <;> cases u' <;> rfl

theorem regs_new (u : PicUnit) : svmIoioGuestStateNew.regs u = regsAfter [] := by
  cases u <;> rfl

/-- The write of one PIC, as the handler performs it. -/
def picWrite : PicUnit → PicWrite → PicRegs → Run (PicRegs × List HostEvent)
  | .primary, .command dx, r => do
      let r ← picCommandOut "Unsupported command to primary PIC: command=0x%x\n" dx r
      pure (r, [])
  | .primary, .data dx, r => picDataOut "Primary PIC vector offset: 0x%x\n"
      "Invalid secondary PIC location: 0x%x\n" 4 dx r
  | .secondary, .command dx, r => do
      let r ← picCommandOut "Unsupported command to secondary PIC: command=0x%x\n" dx r
      pure (r, [])
  | .secondary, .data dx, r => picDataOut "Secondary PIC vector offset: 0x%x\n"
      "Invalid PIC cascade identity: 0x%x\n" 2 dx r

/-- The decoded `EXITINFO1` of an exit. -/
def GuestState.ioioInfo (g : GuestState) : IOIOInterceptInfo :=
  .ofValue (g.exitinfo1.setWidth 32)

/-- The guest left with an 8-bit access to `port`, an `IN` when `read`. -/
structure GuestState.Accesses8 (g : GuestState) (read : Bool) (port : BitVec 16) : Prop where
  code : g.exitcode = SVM_EXIT_CODE_IOIO
  type : g.ioioInfo.type = read
  size : g.ioioInfo.sz8 = true
  port : g.ioioInfo.port = port

/-- The command port of a PIC. -/
def PicUnit.commandPort : PicUnit → BitVec 16
  | .primary => 0x20
  | .secondary => 0xA0

/-- The data port of a PIC. -/
def PicUnit.dataPort : PicUnit → BitVec 16
  | .primary => 0x21
  | .secondary => 0xA1

/-- The port a write goes to. -/
def PicWrite.port (u : PicUnit) : PicWrite → BitVec 16
  | .command _ => u.commandPort
  | .data _ => u.dataPort

/-- The byte a write carries. -/
def PicWrite.byte : PicWrite → BitVec 8
  | .command dx => dx
  | .data dx => dx

/-- An exit of the guest with an 8-bit `OUT` to one of the four PIC ports. -/
structure PicOut where
  guest : GuestState
  unit : PicUnit
  write : PicWrite
  accesses : guest.Accesses8 false (write.port unit)
  byte : guest.rax.setWidth 8 = write.byte

/-- Every 8-bit `OUT` to a command or data port is one. -/
theorem exists_picOut (g : GuestState) (u : PicUnit)
    (h : g.Accesses8 false u.commandPort ∨ g.Accesses8 false u.dataPort) :
    ∃ o : PicOut, o.guest = g ∧ o.unit = u := by
  rcases h with h | h
  · exact ⟨⟨g, u, .command (g.rax.setWidth 8), h, rfl⟩, rfl, rfl⟩
  · exact ⟨⟨g, u, .data (g.rax.setWidth 8), h, rfl⟩, rfl, rfl⟩

/-- The writes a PIC got on its own ports, newest first. -/
def own (u : PicUnit) (outs : List PicOut) : List PicWrite :=
  ((outs.filter (·.unit = u)).map (·.write)).reverse

/-- The run of `handle_exit` over a sequence of `OUT` exits. -/
def outRun (host : Host) (v : SvmVcpu) (outs : List PicOut) : Run SvmVcpu :=
  outs.foldlM (fun v o => do
    let (v', _) ← (v.setGuest o.guest).handleExit host []
    pure v') v

/-! ### One write -/

/-- A data byte moves the initialization on by one phase. -/
theorem phaseAfter_data (dx : BitVec 8) (h : List PicWrite) :
    phaseAfter (.data dx :: h) = match phaseAfter h with
      | .uninitialized => .uninitialized
      | .phase1 => .phase2
      | .phase2 => .phase3
      | .phase3 => .inited
      | .inited => .inited := by
  show phaseOf ((dataSinceIcw1 h).map (dx :: ·)) = _
  unfold phaseAfter
  match dataSinceIcw1 h with
  | none => rfl
  | some [] => rfl
  | some [_] => rfl
  | some [_, _] => rfl
  | some (_ :: _ :: _ :: _) => rfl

/-- The vector base is written in `PHASE1` only. -/
theorem phaseAfter_eq_phase1 (h : List PicWrite) :
    phaseAfter h = .phase1 ↔ dataSinceIcw1 h = some [] := by
  unfold phaseAfter
  match dataSinceIcw1 h with
  | none => simp [phaseOf]
  | some [] => simp [phaseOf]
  | some [_] => simp [phaseOf]
  | some [_, _] => simp [phaseOf]
  | some (_ :: _ :: _ :: _) => simp [phaseOf]

/-- The registers after a data byte. -/
theorem regsAfter_data (dx : BitVec 8) (h : List PicWrite) :
    regsAfter (.data dx :: h) = match phaseAfter h with
      | .uninitialized => { regsAfter h with mask := dx }
      | .phase1 => { regsAfter h with base := dx, phase := .phase2 }
      | .phase2 => { regsAfter h with phase := .phase3 }
      | .phase3 => { regsAfter h with phase := .inited }
      | .inited => { regsAfter h with mask := dx } := by
  unfold regsAfter
  rw [phaseAfter_data]
  simp only [baseAfter, maskAfter, ← phaseAfter_eq_phase1]
  cases hp : phaseAfter h <;> simp [SvmPicInitPhase.IsMaskPhase]

/-- Another command byte leaves the registers alone. -/
theorem regsAfter_command (dx : BitVec 8) (h : List PicWrite) (hdx : dx ≠ 0x11) :
    regsAfter (.command dx :: h) = regsAfter h := by
  have hdata : dataSinceIcw1 (.command dx :: h) = dataSinceIcw1 h := if_neg hdx
  simp only [regsAfter, phaseAfter, hdata, baseAfter, maskAfter]

/-- A result that aborts, or leaves the registers of `h`. -/
def Follows (h : List PicWrite) (reject : Prop) (r : Run (PicRegs × List HostEvent)) : Prop :=
  (reject ∧ ∃ logs, r = .error (.abort logs)) ∨ (¬ reject ∧ ∃ events, r = .ok (regsAfter h, events))

theorem follows_command (text : String) (icw3 dx : BitVec 8) (h : List PicWrite) :
    Follows (.command dx :: h) (Rejected icw3 h (.command dx)) (do
      let r ← picCommandOut text dx (regsAfter h)
      pure (r, [])) := by
  unfold picCommandOut
  by_cases hicw1 : dx = 0x11
  · subst hicw1
    exact .inr ⟨fun hr => hr.1 rfl, [], rfl⟩
  · by_cases heoi : 0x60 ≤ dx ∧ dx ≤ 0x67
    · refine .inr ⟨fun hr => hr.2 heoi, [], ?_⟩
      rw [if_neg hicw1, if_pos (by simpa using heoi), regsAfter_command dx h hicw1]
      rfl
    · refine .inl ⟨⟨hicw1, heoi⟩, [logError text [dx.setWidth 64]], ?_⟩
      rw [if_neg hicw1, if_neg (by simpa using heoi)]
      rfl

theorem follows_data (offset invalid : String) (icw3 dx : BitVec 8) (h : List PicWrite) :
    Follows (.data dx :: h) (Rejected icw3 h (.data dx))
      (picDataOut offset invalid icw3 dx (regsAfter h)) := by
  have hphase : (regsAfter h).phase = phaseAfter h := rfl
  simp only [Follows, Rejected, picDataOut, regsAfter_data, hphase]
  cases phaseAfter h with
  | uninitialized => exact .inr ⟨by simp, [], rfl⟩
  | phase1 => exact .inr ⟨by simp, _, rfl⟩
  | phase2 =>
      -- The only data byte that can be rejected: ICW3.
      by_cases hdx : dx = icw3
      · exact .inr ⟨by simp [hdx], [], by simp [hdx]⟩
      · exact .inl ⟨⟨rfl, hdx⟩, [logError invalid [dx.setWidth 64]], if_pos hdx⟩
  | phase3 => exact .inr ⟨by simp, [], rfl⟩
  | inited => exact .inr ⟨by simp, [], rfl⟩

/-- **One write.** A PIC with the registers of its history `h` aborts at a rejected write
and has the registers of `w :: h` after every other one. -/
theorem picWrite_regsAfter (u : PicUnit) (w : PicWrite) (h : List PicWrite) :
    Follows (w :: h) (Rejected u.icw3 h w) (picWrite u w (regsAfter h)) := by
  cases u with
  | primary =>
      cases w with
      | command dx => exact follows_command _ _ dx h
      | data dx => exact follows_data _ _ _ dx h
  | secondary =>
      cases w with
      | command dx => exact follows_command _ _ dx h
      | data dx => exact follows_data _ _ _ dx h

/-! ### The exit handler -/

/-- `handle_pic_out` performs the write on the registers of the PIC that owns the port. -/
theorem handlePicOut_eq (v : SvmVcpu) (info : IOIOInterceptInfo) (u : PicUnit) (w : PicWrite)
    (hsize : info.sz8 = true) (hport : info.port = w.port u) (hal : v.al = w.byte) :
    handlePicOut v info = (do
      let (r, events) ← picWrite u w (v.guestIoioState.regs u)
      pure ({ v with guestIoioState := v.guestIoioState.setRegs u r }, events)) := by
  unfold handlePicOut
  rw [hsize, hport, hal]
  -- One branch of the `switch` over the ports for each PIC and each kind of write.
  cases u with
  | primary =>
      cases w with
      | command dx =>
          show (picCommandOut _ dx _ >>= _) = ((picCommandOut _ dx _ >>= _) >>= _)
          rw [bind_assoc]
          rfl
      | data dx => rfl
  | secondary =>
      cases w with
      | command dx =>
          show (picCommandOut _ dx _ >>= _) = ((picCommandOut _ dx _ >>= _) >>= _)
          rw [bind_assoc]
          rfl
      | data dx => rfl

/-- The PIC ports go to the PIC handlers. -/
theorem handleIoioOut_pic (v : SvmVcpu) (info : IOIOInterceptInfo) (u : PicUnit)
    (w : PicWrite) (hport : info.port = w.port u) :
    handleIoioOut v info = handlePicOut v info := by
  unfold handleIoioOut
  rw [hport]
  cases u <;> cases w <;> rfl

theorem handleIoioIn_pic (host : Host) (v : SvmVcpu) (info : IOIOInterceptInfo) (u : PicUnit)
    (hport : info.port = u.dataPort) : handleIoioIn host v info = handlePicIn v info := by
  unfold handleIoioIn
  rw [hport]
  cases u <;> rfl

open SvmVcpu

/-- An `IOIO` exit runs the handler of its direction and then skips the instruction. -/
theorem handleExit_ioio (host : Host) (windows : List (List Nat)) (v : SvmVcpu)
    (g : GuestState) (hcode : g.exitcode = SVM_EXIT_CODE_IOIO) :
    (v.setGuest g).handleExit host windows =
      (if g.ioioInfo.type then handleIoioIn host (v.setGuest g).resetTlb g.ioioInfo
        else handleIoioOut (v.setGuest g).resetTlb g.ioioInfo) >>= fun r =>
      pure (stepNextInst r.1, r.2) := by
  have hne : ∀ code : BitVec 64, SVM_EXIT_CODE_IOIO ≠ code →
      ¬ (v.setGuest g).vmcb.exitcode = code := fun code hne h => hne (hcode.symm.trans h)
  unfold handleExit
  dsimp only
  rw [if_neg (hne _ (by decide)), if_neg (hne _ (by decide)), if_neg (hne _ (by decide)),
    if_pos (show (v.setGuest g).vmcb.exitcode = _ from hcode)]
  rfl

/-- `handle_exit` at an `OUT` to a PIC port performs the write on that PIC's registers. -/
theorem handleExit_picOut (host : Host) (v : SvmVcpu) (o : PicOut) :
    (v.setGuest o.guest).handleExit host [] = (do
      let (r, events) ← picWrite o.unit o.write (v.guestIoioState.regs o.unit)
      pure (stepNextInst { (v.setGuest o.guest).resetTlb with
        guestIoioState := v.guestIoioState.setRegs o.unit r }, events)) := by
  obtain ⟨g, u, w, ⟨hcode, htype, hsize, hport⟩, hbyte⟩ := o
  have hal : (v.setGuest g).resetTlb.al = w.byte := hbyte
  rw [handleExit_ioio host [] v g hcode, htype, if_neg (by simp),
    handleIoioOut_pic _ _ u w hport, handlePicOut_eq _ _ u w hsize hport hal, bind_assoc]
  rfl

/-- An `IN` from a data port reads the mask of its PIC. -/
theorem handleExit_picIn (host : Host) (windows : List (List Nat)) (v : SvmVcpu)
    (g : GuestState) (u : PicUnit) (hg : g.Accesses8 true u.dataPort) :
    ∃ text, (v.setGuest g).handleExit host windows = (do
      let mask ← picDataIn text (v.guestIoioState.regs u)
      pure (stepNextInst ((v.setGuest g).resetTlb.setRax (mask.setWidth 64)), [])) := by
  obtain ⟨hcode, htype, hsize, hport⟩ := hg
  rw [handleExit_ioio host windows v g hcode, htype, if_pos rfl,
    handleIoioIn_pic _ _ _ u hport]
  unfold handlePicIn
  rw [hsize, hport]
  cases u with
  | primary =>
      refine ⟨"Unsupported I/O-in to primary PIC outside uninitialized or inited phase.", ?_⟩
      show ((picDataIn _ _ >>= _) >>= _) = _
      rw [bind_assoc]
      rfl
  | secondary =>
      refine ⟨"Unsupported I/O-in to secondary PIC outside uninitialized or inited phase.", ?_⟩
      show ((picDataIn _ _ >>= _) >>= _) = _
      rw [bind_assoc]
      rfl

/-! ### Whole runs -/

theorem own_snoc (u : PicUnit) (outs : List PicOut) (o : PicOut) :
    own u (outs ++ [o]) = if o.unit = u then o.write :: own u outs else own u outs := by
  unfold own
  by_cases hu : o.unit = u
  · simp [List.filter_append, hu]
  · simp [List.filter_append, hu]

theorem outRun_snoc (host : Host) (v : SvmVcpu) (outs : List PicOut) (o : PicOut) :
    outRun host v (outs ++ [o]) = (do
      let v₁ ← outRun host v outs
      let (v', _) ← (v₁.setGuest o.guest).handleExit host []
      pure v') := by
  unfold outRun
  rw [List.foldlM_append]
  congr 1
  funext v₁
  rw [List.foldlM_cons]
  simp only [List.foldlM_nil, bind_pure]

/-- The two PICs have the registers of their own histories. -/
def HasHistory (outs : List PicOut) (v : SvmVcpu) : Prop :=
  ∀ u, v.guestIoioState.regs u = regsAfter (own u outs)

/-- The write is rejected by the PIC it goes to, after the exits `outs`. -/
def RejectedAfter (outs : List PicOut) (o : PicOut) : Prop :=
  Rejected o.unit.icw3 (own o.unit outs) o.write

/-- One `OUT` exit: rejected and aborted, or one more write in the PIC's own history. -/
theorem handleExit_hasHistory (host : Host) (outs : List PicOut) (o : PicOut) (v : SvmVcpu)
    (hv : HasHistory outs v) :
    (RejectedAfter outs o ∧
      ∃ logs, (v.setGuest o.guest).handleExit host [] = .error (.abort logs)) ∨
    (¬ RejectedAfter outs o ∧ ∃ v' events,
      (v.setGuest o.guest).handleExit host [] = .ok (v', events) ∧
        HasHistory (outs ++ [o]) v') := by
  rw [handleExit_picOut, hv o.unit]
  rcases picWrite_regsAfter o.unit o.write (own o.unit outs) with
    ⟨hrej, logs, herr⟩ | ⟨hrej, events, hok⟩
  · refine .inl ⟨hrej, logs, ?_⟩
    rw [herr]
    rfl
  · refine .inr ⟨hrej, _, events, by rw [hok]; rfl, ?_⟩
    intro u
    show (v.guestIoioState.setRegs o.unit _).regs u = _
    -- The write is the newest of its own PIC and no write of the other.
    rw [regs_setRegs, own_snoc, hv u]
    by_cases hu : u = o.unit
    · rw [if_pos hu, if_pos hu.symm, hu]
    · rw [if_neg hu, if_neg (Ne.symm hu)]

/-- Every sequence of `OUT` exits either meets no rejected write and leaves each PIC with the
registers of its own history, or stops at its first rejected write. -/
theorem outRun_cases (host : Host) (v : SvmVcpu)
    (hv : v.guestIoioState = svmIoioGuestStateNew) (outs : List PicOut) :
    ((∀ pre o post, outs = pre ++ o :: post → ¬ RejectedAfter pre o) ∧
      ∃ v', outRun host v outs = .ok v' ∧ HasHistory outs v') ∨
    (∃ pre o post logs, outs = pre ++ o :: post ∧ (∃ v₁, outRun host v pre = .ok v₁) ∧
      RejectedAfter pre o ∧ outRun host v outs = .error (.abort logs)) := by
  induction outs using List.reverseRecOn with
  | nil =>
      refine .inl ⟨by simp, v, rfl, fun u => ?_⟩
      rw [hv]
      exact regs_new u
  | append_singleton outs o ih =>
      rw [outRun_snoc]
      rcases ih with ⟨hnone, v₁, hrun, hhist⟩ | ⟨pre, o', post, logs, heq, hpre, hrej, hrun⟩
      · -- The run got here, so the new write decides.
        rcases handleExit_hasHistory host outs o v₁ hhist with
          ⟨hrej, logs, herr⟩ | ⟨hrej, v', events, hok, hhist'⟩
        · refine .inr ⟨outs, o, [], logs, rfl, ⟨v₁, hrun⟩, hrej, ?_⟩
          rw [hrun, Run.bind_ok, herr]
          rfl
        · refine .inl ⟨?_, v', by rw [hrun, Run.bind_ok, hok]; rfl, hhist'⟩
          intro pre o' post heq
          -- The rejected write would be the new one or an earlier one.
          rcases List.eq_nil_or_concat post with hpost | ⟨post', last, hpost⟩
          · subst hpost
            obtain ⟨rfl, hlast⟩ := List.append_inj' heq rfl
            cases hlast
            exact hrej
          · subst hpost
            rw [List.concat_eq_append, ← List.cons_append, ← List.append_assoc] at heq
            exact hnone pre o' post' (List.append_inj' heq rfl).1
      · refine .inr ⟨pre, o', post ++ [o], logs, ?_, hpre, hrej, by rw [hrun]; rfl⟩
        rw [heq, List.append_assoc, List.cons_append]

/-- An 8-bit `IN` from a data port returns the mask in the mask phases and aborts in the
others. -/
theorem handleExit_picIn_hasHistory (host : Host) (windows : List (List Nat))
    (outs : List PicOut) (v : SvmVcpu) (hv : HasHistory outs v) (g : GuestState) (u : PicUnit)
    (hg : g.Accesses8 true u.dataPort) :
    ((phaseAfter (own u outs)).IsMaskPhase → ∃ v' events,
      (v.setGuest g).handleExit host windows = .ok (v', events) ∧
        v'.vmcb.rax = (maskAfter (own u outs)).setWidth 64) ∧
    (¬ (phaseAfter (own u outs)).IsMaskPhase →
      ∃ logs, (v.setGuest g).handleExit host windows = .error (.abort logs)) := by
  obtain ⟨text, heq⟩ := handleExit_picIn host windows v g u hg
  rw [heq, hv u]
  have hphase : (regsAfter (own u outs)).phase = phaseAfter (own u outs) := rfl
  unfold picDataIn
  rw [hphase]
  cases phaseAfter (own u outs) with
  | uninitialized => exact ⟨fun _ => ⟨_, _, rfl, rfl⟩, fun h => absurd (.inl rfl) h⟩
  | inited => exact ⟨fun _ => ⟨_, _, rfl, rfl⟩, fun h => absurd (.inr rfl) h⟩
  | phase1 => exact ⟨fun h => absurd h (by decide), fun _ => ⟨_, rfl⟩⟩
  | phase2 => exact ⟨fun h => absurd h (by decide), fun _ => ⟨_, rfl⟩⟩
  | phase3 => exact ⟨fun h => absurd h (by decide), fun _ => ⟨_, rfl⟩⟩

/-- **The ICW/OCW protocol.** Over every sequence of 8-bit `OUT` exits to the PIC ports, from
the state `svm_ioio_guest_state_new` builds: a run that returns leaves each PIC with the
phase, base and mask of its own history; the run returns exactly when no write is rejected,
and otherwise aborts at the first rejected one; and a read of a data port afterwards returns
the mask or aborts by the phase. -/
theorem outRun_follows_protocol (host : Host) (v : SvmVcpu)
    (hv : v.guestIoioState = svmIoioGuestStateNew) (outs : List PicOut) :
    (∀ v', outRun host v outs = .ok v' → HasHistory outs v') ∧
    ((∃ v', outRun host v outs = .ok v') ↔
      ∀ pre o post, outs = pre ++ o :: post → ¬ RejectedAfter pre o) ∧
    (∀ e, outRun host v outs = .error e → ∃ pre o post logs,
      outs = pre ++ o :: post ∧ (∃ v₁, outRun host v pre = .ok v₁) ∧ RejectedAfter pre o ∧
        e = .abort logs) ∧
    (∀ v', outRun host v outs = .ok v' → ∀ windows g u, g.Accesses8 true u.dataPort →
      ((phaseAfter (own u outs)).IsMaskPhase → ∃ v'' events,
        (v'.setGuest g).handleExit host windows = .ok (v'', events) ∧
          v''.vmcb.rax = (maskAfter (own u outs)).setWidth 64) ∧
      (¬ (phaseAfter (own u outs)).IsMaskPhase →
        ∃ logs, (v'.setGuest g).handleExit host windows = .error (.abort logs))) := by
  rcases outRun_cases host v hv outs with
    ⟨hnone, v₁, hrun, hhist⟩ | ⟨pre, o, post, logs, heq, hpre, hrej, hrun⟩
  · -- No write is rejected: the run returns, and everything is read off its end.
    have hends : ∀ v', outRun host v outs = .ok v' → HasHistory outs v' := by
      intro v' hv'
      rw [hrun] at hv'
      cases hv'
      exact hhist
    refine ⟨hends, ⟨fun _ => hnone, fun _ => ⟨v₁, hrun⟩⟩, ?_, ?_⟩
    · intro e he
      rw [hrun] at he
      cases he
    · intro v' hv' windows g u hg
      exact handleExit_picIn_hasHistory host windows outs v' (hends v' hv') g u hg
  · -- Some write is rejected: the run aborts there, and the statements about its end are empty.
    have hstops : ∀ v', outRun host v outs ≠ .ok v' := by
      intro v' hv'
      rw [hrun] at hv'
      cases hv'
    refine ⟨fun v' hv' => absurd hv' (hstops v'), ⟨fun ⟨v', hv'⟩ => absurd hv' (hstops v'),
      fun hnone => absurd hrej (hnone pre o post heq)⟩, ?_, fun v' hv' => absurd hv' (hstops v')⟩
    intro e he
    rw [hrun] at he
    cases he
    exact ⟨pre, o, post, logs, heq, hpre, hrej, rfl⟩

/-- `EXITINFO1` of an 8-bit `OUT` to `port`. -/
def outInfo (port : BitVec 16) : BitVec 64 := port.setWidth 64 <<< 16 ||| 0x10#64

theorem outInfo_port (port : BitVec 16) :
    (IOIOInterceptInfo.ofValue ((outInfo port).setWidth 32)).port = port := by
  apply BitVec.eq_of_getLsbD_eq
  intro i hi
  -- The bit for the size is below the port.
  have hten : (0x10#64).getLsbD (16 + i) = false := by
    rw [BitVec.getLsbD_ofNat, show (16 : Nat) = 2 ^ 4 from rfl, Nat.testBit_two_pow]
    simp
    omega
  simp only [IOIOInterceptInfo.ofValue, BitVec.getLsbD_extractLsb', hi, decide_true,
    Bool.true_and, BitVec.getLsbD_setWidth, outInfo, BitVec.getLsbD_or, hten,
    BitVec.getLsbD_shiftLeft]
  have h1 : 16 + i < 32 := by omega
  have h2 : 16 + i < 64 := by omega
  have h3 : i < 64 := by omega
  simp [h1, h2, h3]

theorem outInfo_type (port : BitVec 16) :
    (IOIOInterceptInfo.ofValue ((outInfo port).setWidth 32)).type = false := by
  simp [IOIOInterceptInfo.ofValue, outInfo]

theorem outInfo_sz8 (port : BitVec 16) :
    (IOIOInterceptInfo.ofValue ((outInfo port).setWidth 32)).sz8 = true := by
  simp [IOIOInterceptInfo.ofValue, outInfo]

/-- The guest writes the byte of `w` with an 8-bit `OUT`. -/
def PicOut.ofWrite (u : PicUnit) (w : PicWrite) : PicOut where
  guest := { exitcode := SVM_EXIT_CODE_IOIO
             exitinfo1 := outInfo (w.port u)
             rax := w.byte.setWidth 64 }
  unit := u
  write := w
  accesses := ⟨rfl, outInfo_type _, outInfo_sz8 _, outInfo_port _⟩
  byte := by simp

/-- Both PICs programmed in one interleaved sequence, with the primary's mask written last. -/
def programBoth : List PicOut :=
  [.ofWrite .primary (.command 0x11), .ofWrite .secondary (.command 0x11),
   .ofWrite .primary (.data 0x20), .ofWrite .secondary (.data 0x28),
   .ofWrite .primary (.data 4), .ofWrite .secondary (.data 2),
   .ofWrite .primary (.data 1), .ofWrite .primary (.data 0xFB)]

theorem outRun_follows_protocol_programBoth :
    ∃ v', outRun ⟨fun _ => 0, fun _ => 0, fun _ => 0, fun _ _ => ⟨0, 0, 0, 0⟩⟩ (svmVcpuNew 1)
        programBoth = .ok v' ∧
      v'.guestIoioState.regs .primary = { phase := .inited, base := 0x20, mask := 0xFB } ∧
      v'.guestIoioState.regs .secondary = { phase := .phase3, base := 0x28, mask := 0xFF } := by
  have hrun : ∃ v', outRun ⟨fun _ => 0, fun _ => 0, fun _ => 0, fun _ _ => ⟨0, 0, 0, 0⟩⟩
      (svmVcpuNew 1) programBoth = .ok v' := ⟨_, rfl⟩
  obtain ⟨v', hv'⟩ := hrun
  have hhist := (outRun_follows_protocol _ (svmVcpuNew 1) rfl programBoth).1 v' hv'
  exact ⟨v', hv', (hhist .primary).trans (by decide), (hhist .secondary).trans (by decide)⟩

end YmirC
