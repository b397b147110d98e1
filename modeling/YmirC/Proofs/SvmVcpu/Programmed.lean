import YmirC.Lib.Runs
import YmirC.Proofs.SvmIoio
import YmirC.Proofs.SvmVcpu.Injection

/-!
# `YmirC.Proofs.SvmVcpu.Programmed`: which PIC an interrupt is injected through

`PicSys` is the vCPU with the writes each PIC got on its own ports. Its steps are the ones the
injection depends on: the guest runs, `handle_pic_out` handles a write of the guest,
`intr_subscriber_callback` notes a vector, and `inject_ext_intr` is tried.

In every state of a run the registers of both PICs are those of their histories
(`hasWrites_of_reachable`). `inject_ext_intr` looks at the phase of the primary PIC only. So a
line of the primary is injected through a programmed PIC, and a line of the secondary is
injected whatever phase the secondary is in, as long as its mask bit is clear.
`injects_programmed_iff` says in which states this cannot happen.
-/

set_option autoImplicit false

namespace YmirC

open Runs (Reachable)
open SvmVcpu

/-! ### The latest ICW2 -/

/-- The byte of the latest ICW2: the data byte that came first after an ICW1. -/
def latestIcw2 : List PicWrite → Option (BitVec 8)
  | [] => none
  | .command _ :: h => latestIcw2 h
  | .data dx :: h => if dataSinceIcw1 h = some [] then some dx else latestIcw2 h

/-- With data bytes since the last ICW1 there was an ICW2, and it is the vector base. -/
theorem latestIcw2_of_data (h : List PicWrite) :
    ∀ dx rest, dataSinceIcw1 h = some (dx :: rest) → latestIcw2 h = some (baseAfter h) := by
  induction h with
  | nil =>
      intro dx rest hdata
      cases hdata
  | cons w h ih =>
      intro dx rest hdata
      cases w with
      | command byte =>
          -- An ICW1 starts a new sequence, and no data byte has come since.
          by_cases hicw1 : byte = 0x11
          · rw [dataSinceIcw1, if_pos hicw1] at hdata
            cases hdata
          · rw [dataSinceIcw1, if_neg hicw1] at hdata
            exact ih dx rest hdata
      | data byte =>
          show (if dataSinceIcw1 h = some [] then some byte else latestIcw2 h)
            = some (if dataSinceIcw1 h = some [] then byte else baseAfter h)
          by_cases hfirst : dataSinceIcw1 h = some []
          · rw [if_pos hfirst, if_pos hfirst]
          · rw [if_neg hfirst, if_neg hfirst]
            -- The byte was not the first, so there was one before it.
            rw [dataSinceIcw1] at hdata
            cases hold : dataSinceIcw1 h with
            | none =>
                rw [hold] at hdata
                cases hdata
            | some old =>
                cases old with
                | nil => exact absurd hold hfirst
                | cons first old => exact ih first old hold

/-- A programmed PIC got an ICW2, and its vector base is that byte. -/
theorem latestIcw2_of_inited {h : List PicWrite} (hphase : phaseAfter h = .inited) :
    latestIcw2 h = some (baseAfter h) := by
  unfold phaseAfter at hphase
  match hdata : dataSinceIcw1 h with
  | none =>
      rw [hdata] at hphase
      cases hphase
  | some [] =>
      rw [hdata] at hphase
      cases hphase
  | some (dx :: rest) => exact latestIcw2_of_data h dx rest hdata

/-! ### The system -/

/-- The vCPU with the writes each PIC got on its own ports, newest first. -/
structure PicSys where
  vcpu : SvmVcpu
  writes : PicUnit → List PicWrite

/-- The PIC and the write behind a byte written to a port. -/
def picWriteAt (port : BitVec 16) (byte : BitVec 8) : Option (PicUnit × PicWrite) :=
  if port = 0x20 then some (.primary, .command byte)
  else if port = 0x21 then some (.primary, .data byte)
  else if port = 0xA0 then some (.secondary, .command byte)
  else if port = 0xA1 then some (.secondary, .data byte)
  else none

/-- One step of the system.

* `guest g`: the guest ran and left `g`.
* `out info`: `handle_pic_out` handles an `OUT` of the guest.
* `irq vector`: `intr_subscriber_callback` is called for a physical interrupt.
* `inject`: `inject_ext_intr` is called. -/
inductive PicAction where
  | guest (g : GuestState)
  | out (info : IOIOInterceptInfo)
  | irq (vector : Nat)
  | inject

/-- The histories after one more write to `u`. -/
def PicSys.addWrite (s : PicSys) (u : PicUnit) (w : PicWrite) : PicUnit → List PicWrite :=
  fun u' => if u' = u then w :: s.writes u else s.writes u'

/-- The step `action` takes, `none` when `handle_pic_out` does not return. -/
def PicSys.step (s : PicSys) : PicAction → Option PicSys
  | .guest g => some { s with vcpu := s.vcpu.setGuest g }
  | .out info =>
      match handlePicOut s.vcpu info, picWriteAt info.port s.vcpu.al with
      | .ok (vcpu, _), some (u, w) => some { vcpu := vcpu, writes := s.addWrite u w }
      | _, _ => none
  | .irq vector => some { s with vcpu := s.vcpu.intrSubscriberCallback vector }
  | .inject => some { s with vcpu := s.vcpu.injectExtIntr.2 }

/-- The PICs are as `svm_ioio_guest_state_new` leaves them, and nothing was written yet. -/
def PicSys.Init (s : PicSys) : Prop :=
  s.vcpu.guestIoioState = svmIoioGuestStateNew ∧ s.writes = fun _ => []

/-- The registers of both PICs are those of their histories. -/
def PicSys.HasWrites (s : PicSys) : Prop :=
  ∀ u, s.vcpu.guestIoioState.regs u = regsAfter (s.writes u)

theorem picWriteAt_port {port : BitVec 16} {byte : BitVec 8} {u : PicUnit} {w : PicWrite}
    (h : picWriteAt port byte = some (u, w)) : port = w.port u ∧ byte = w.byte := by
  unfold picWriteAt at h
  repeat' split at h
  -- One case per port, and the one of all others.
  case isFalse.isFalse.isFalse.isFalse => cases h
  all_goals
    rename_i hport
    cases h
    exact ⟨hport, rfl⟩

/-- `intr_subscriber_callback` and `inject_ext_intr` leave the PICs alone. -/
theorem guestIoioState_injectExtIntr (v : SvmVcpu) :
    v.injectExtIntr.2.guestIoioState = v.guestIoioState := by
  rcases injectExtIntr_cases v with ⟨i, -, -, he⟩ | he
  · rw [he]
    rfl
  · rw [he]

/-- A write `handle_pic_out` accepted is one more write in the history of its PIC. -/
theorem hasWrites_out {s s' : PicSys} {info : IOIOInterceptInfo} (hs : s.HasWrites)
    (hstep : s.step (.out info) = some s') : s'.HasWrites := by
  simp only [PicSys.step] at hstep
  split at hstep
  case h_2 => cases hstep
  rename_i vcpu events u w hrun hwrite
  cases hstep
  obtain ⟨hport, hbyte⟩ := picWriteAt_port hwrite
  -- A write of another size panics.
  have hsize : info.sz8 = true := by
    by_contra hno
    rw [handlePicOut, if_pos (by simpa using hno)] at hrun
    cases hrun
  rw [handlePicOut_eq s.vcpu info u w hsize hport hbyte, hs u] at hrun
  rcases picWrite_regsAfter u w (s.writes u) with ⟨-, logs, herr⟩ | ⟨-, es, hok⟩
  · -- A byte the sequence does not expect panics, so there is no such step.
    rw [herr] at hrun
    cases hrun
  · rw [hok] at hrun
    cases hrun
    intro u'
    show (s.vcpu.guestIoioState.setRegs u _).regs u' = regsAfter (s.addWrite u w u')
    -- The other PIC keeps its registers and its history.
    rw [regs_setRegs, PicSys.addWrite, hs u']
    split <;> rfl

theorem hasWrites_step (s : PicSys) (a : PicAction) (s' : PicSys) (hs : s.HasWrites)
    (hstep : s.step a = some s') : s'.HasWrites := by
  cases a with
  | guest g =>
      cases hstep
      exact hs
  | out info => exact hasWrites_out hs hstep
  | irq vector =>
      cases hstep
      intro u
      show (s.vcpu.acceptWindow [vector]).guestIoioState.regs u = _
      rw [acceptWindow_guestIoioState]
      exact hs u
  | inject =>
      cases hstep
      intro u
      show s.vcpu.injectExtIntr.2.guestIoioState.regs u = _
      rw [guestIoioState_injectExtIntr]
      exact hs u

theorem hasWrites_of_reachable {s : PicSys}
    (h : Reachable PicSys.Init PicSys.step (fun _ _ => True) s) : s.HasWrites := by
  refine h.invariant ?_ fun s a s' hs _ hstep => hasWrites_step s a s' hs hstep
  rintro s ⟨hnew, hwrites⟩ u
  rw [hnew, hwrites]
  exact regs_new u

/-! ### The line that is injected -/

/-- Line `i` is pending and unmasked. -/
def SvmVcpu.Deliverable (v : SvmVcpu) (i : Nat) : Prop :=
  v.pendingIrq.getLsbD i = true ∧ Unmasked v.guestIoioState i

/-- The loop of `inject_ext_intr` finds the first line that is pending and not masked. -/
theorem findInjectable_first (v : SvmVcpu) (sm : Bool) (i : Nat) :
    ∀ lines : List Nat, lines.Pairwise (· < ·) → (∀ j ∈ lines, j < 16) →
      v.findInjectable sm lines = some i →
        ∀ j ∈ lines, j < i → v.pendingIrq.getLsbD j = true →
          isMasked v.guestIoioState j = true := by
  intro lines
  induction lines with
  | nil =>
      intro _ _ h
      cases h
  | cons k rest ih =>
      intro hsorted hlt h j hj hji hpend
      have hk : k < 16 := hlt k List.mem_cons_self
      rw [List.pairwise_cons] at hsorted
      have hrest := ih hsorted.2 fun l hl => hlt l (List.mem_cons_of_mem _ hl)
      unfold findInjectable at h
      -- The `break` finds no line; a line passed over is not pending or masked.
      split at h
      · cases h
      split at h
      · rename_i hnot
        rw [and_tobit16_eq_zero _ _ hk] at hnot
        rcases List.mem_cons.mp hj with rfl | hmem
        · rw [hnot] at hpend
          cases hpend
        · exact hrest h j hmem hji hpend
      split at h
      · rename_i hmask
        rcases List.mem_cons.mp hj with rfl | hmem
        · exact hmask
        · exact hrest h j hmem hji hpend
      · -- The line found is the first of the list.
        cases h
        rcases List.mem_cons.mp hj with rfl | hmem
        · omega
        · have := hsorted.1 j hmem
          omega

/-- What a successful `inject_ext_intr` checked: the guest accepts interrupts, the primary PIC
is programmed, and the line is the first that is deliverable. -/
theorem injectExtIntr_first {v v' : SvmVcpu} (h : v.injectExtIntr = (true, v')) :
    v.ief = true ∧ v.guestIoioState.primaryPhase = .inited ∧
      ∃ i < 16, v' = v.inject i ∧ v.Deliverable i ∧ ∀ j < i, ¬ v.Deliverable j := by
  unfold injectExtIntr at h
  dsimp only at h
  -- The checks in order: something is pending, the primary PIC is programmed, interrupts are on.
  split at h
  · cases h
  split at h
  · cases h
  rename_i hphase
  split at h
  · cases h
  rename_i hief
  split at h
  case h_2 => cases h
  rename_i i hfind
  cases h
  rw [isSecondaryMasked_eq] at hfind
  obtain ⟨hi, hpend, hmask, hcascade⟩ :=
    findInjectable_some v _ i _ (fun j hj => List.mem_range.mp hj) hfind
  refine ⟨by simpa using hief, by simpa using hphase, i, hi, rfl, ⟨hpend, hmask, hcascade⟩, ?_⟩
  -- A deliverable line before it would have been found first.
  rintro j hji ⟨hpj, hmj, -⟩
  have hsorted : (List.range 16).Pairwise (· < ·) := List.pairwise_lt_range
  have hmasked := findInjectable_first v _ i _ hsorted (fun j hj => List.mem_range.mp hj) hfind j
    (List.mem_range.mpr (Nat.lt_trans hji hi)) hji hpj
  rw [hmj] at hmasked
  cases hmasked

/-! ### Programmed PICs -/

/-- The PIC that owns line `i`. -/
def ownerOf (i : IrqLine) : PicUnit := if isPrimary i then .primary else .secondary

/-- Whenever `inject_ext_intr` injects a line in `s`, the PIC that owns it is programmed, and the
vector is the byte of its latest ICW2 plus the line's number in it. -/
def PicSys.InjectsProgrammed (s : PicSys) : Prop :=
  ∀ v', s.vcpu.injectExtIntr = (true, v') →
    let i := v'.lastInjectedIrq.toNat
    (s.vcpu.guestIoioState.regs (ownerOf i)).phase = .inited ∧
      ∃ icw2, latestIcw2 (s.writes (ownerOf i)) = some icw2 ∧
        v'.vmcb.vIntrVector = icw2 + BitVec.ofNat 8 (i % 8)

/-- When the guest accepts interrupts and the primary PIC is programmed: the secondary PIC is
programmed too, or a line of the primary is deliverable, or no line of the secondary is. -/
def PicSys.SecondaryReady (s : PicSys) : Prop :=
  s.vcpu.ief = true → s.vcpu.guestIoioState.primaryPhase = .inited →
    s.vcpu.guestIoioState.secondaryPhase = .inited ∨
    (∃ i < 8, s.vcpu.Deliverable i) ∨
    ∀ i, 8 ≤ i → i < 16 → ¬ s.vcpu.Deliverable i

/-- The vector of an injected line comes from the registers of its owner. -/
theorem vIntrVector_inject (v : SvmVcpu) {i : Nat} (hi : i < 16) :
    (v.inject i).vmcb.vIntrVector
      = (v.guestIoioState.regs (ownerOf i)).base + BitVec.ofNat 8 (i % 8) := by
  have hmod : ∀ j < 16, delta j = j % 8 := by decide
  show (if isPrimary i then _ else _) = _
  rw [hmod i hi, ownerOf]
  cases isPrimary i with
  | true => exact BitVec.add_comm _ _
  | false => exact BitVec.add_comm _ _

/-- A line whose owner is programmed gets the right vector. -/
theorem programmed_inject {s : PicSys} (hs : s.HasWrites) {i : Nat} (hi : i < 16)
    (hphase : (s.vcpu.guestIoioState.regs (ownerOf i)).phase = .inited) :
    ∃ icw2, latestIcw2 (s.writes (ownerOf i)) = some icw2 ∧
      (s.vcpu.inject i).vmcb.vIntrVector = icw2 + BitVec.ofNat 8 (i % 8) := by
  rw [hs] at hphase
  refine ⟨_, latestIcw2_of_inited hphase, ?_⟩
  rw [vIntrVector_inject _ hi, hs]
  rfl

/-- **Injection through a programmed PIC.** In every state of every run, `inject_ext_intr`
injects through a programmed PIC and with its vector exactly when the state is
`SecondaryReady`. -/
theorem injects_programmed_iff {s : PicSys}
    (h : Reachable PicSys.Init PicSys.step (fun _ _ => True) s) :
    s.InjectsProgrammed ↔ s.SecondaryReady := by
  have hs := hasWrites_of_reachable h
  constructor
  · intro hinj hief hphase
    by_contra hno
    simp only [not_or, not_exists, not_and, not_forall, not_not] at hno
    obtain ⟨hsecondary, hprimary, i, hi8, hi16, hdeliv⟩ := hno
    -- Some line is injected, and it is one of the secondary.
    have hcan : s.vcpu.injectExtIntr.1 = true := injectExtIntr_of_canInject s.vcpu
      ⟨hief, hphase, i, hi16, hdeliv.1, hdeliv.2⟩
    have heq : s.vcpu.injectExtIntr = (true, s.vcpu.injectExtIntr.2) := by
      rw [← hcan]
    obtain ⟨-, -, j, hj, hv', hfirst, -⟩ := injectExtIntr_first heq
    have hj8 : ¬ j < 8 := fun hlt => hprimary j hlt hfirst
    obtain ⟨howner, -⟩ := hinj _ heq
    rw [hv', inject_last _ j hj, ownerOf, isPrimary, decide_eq_false hj8] at howner
    exact hsecondary howner
  · intro hready v' hv'
    obtain ⟨hief, hphase, i, hi, rfl, hdeliv, hfirst⟩ := injectExtIntr_first hv'
    simp only [inject_last _ i hi]
    -- A line of the secondary: either its PIC is programmed, or one of the other disjuncts
    -- contradicts that it is the first deliverable line.
    have howner : (s.vcpu.guestIoioState.regs (ownerOf i)).phase = .inited := by
      by_cases hi8 : i < 8
      · rw [ownerOf, isPrimary, decide_eq_true hi8]
        exact hphase
      · rw [ownerOf, isPrimary, decide_eq_false hi8]
        rcases hready hief hphase with hsecondary | ⟨j, hj, hdj⟩ | hnone
        · exact hsecondary
        · exact absurd hdj (hfirst j (Nat.lt_of_lt_of_le hj (Nat.not_lt.mp hi8)))
        · exact absurd hdeliv (hnone i (Nat.not_lt.mp hi8) hi)
    exact ⟨howner, programmed_inject hs hi howner⟩

/-- The guest writes the byte of `w` to the PIC `u`. -/
def picOut (u : PicUnit) (w : PicWrite) : List PicAction :=
  [.guest { rax := w.byte.setWidth 64 }, .out (.ofValue ((outInfo (w.port u)).setWidth 32))]

/-- The guest programs a PIC with the vector base `base` and unmasks its lines. -/
def programUnit (u : PicUnit) (base : BitVec 8) : List PicAction :=
  picOut u (.command 0x11) ++ picOut u (.data base) ++ picOut u (.data u.icw3)
    ++ picOut u (.data 1) ++ picOut u (.data 0)

/-- The clock interrupt comes while the guest accepts interrupts. -/
def clockInterrupt : List PicAction := [.irq 40, .guest { rflags := 0x200 }]

theorem PicSys.init_svmVcpuNew : PicSys.Init ⟨svmVcpuNew 1, fun _ => []⟩ :=
  ⟨rfl, rfl⟩

theorem injects_programmed_iff_both :
    ∃ s, Reachable PicSys.Init PicSys.step (fun _ _ => True) s ∧
      s.vcpu.injectExtIntr.1 = true ∧ s.InjectsProgrammed := by
  obtain ⟨s, hs, hcan, hphase⟩ := Reachable.exists_of_exec PicSys.step (fun _ _ => True)
    (fun s => s.vcpu.injectExtIntr.1 = true ∧ s.vcpu.guestIoioState.secondaryPhase = .inited)
    (programUnit .primary 0x20 ++ programUnit .secondary 0x28 ++ clockInterrupt)
    PicSys.init_svmVcpuNew (by decide)
  exact ⟨s, hs, hcan, (injects_programmed_iff hs).mpr fun _ _ => .inl hphase⟩

/-- The guest programs the primary PIC, and of the secondary it only clears the mask. -/
theorem not_injects_programmed :
    ¬ ∀ s, Reachable PicSys.Init PicSys.step (fun _ _ => True) s → s.InjectsProgrammed := by
  intro hall
  obtain ⟨s, hs, hcan, hlast, hphase⟩ := Reachable.exists_of_exec PicSys.step (fun _ _ => True)
    (fun s => s.vcpu.injectExtIntr.1 = true ∧
      s.vcpu.injectExtIntr.2.lastInjectedIrq = 8 ∧
      s.vcpu.guestIoioState.secondaryPhase = .uninitialized)
    (programUnit .primary 0x20 ++ picOut .secondary (.data 0) ++ clockInterrupt)
    PicSys.init_svmVcpuNew (by decide)
  have heq : s.vcpu.injectExtIntr = (true, s.vcpu.injectExtIntr.2) := by
    rw [← hcan]
  have howner := (hall s hs _ heq).1
  rw [hlast] at howner
  exact absurd (hphase.symm.trans howner) (by decide)

end YmirC
