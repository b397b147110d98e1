import Mathlib.Data.List.Count
import YmirC.Lib.Runs
import YmirC.Proofs.SvmVcpu.Injection

/-!
# `YmirC.Proofs.SvmVcpu.Delivery`: interrupts on their way to the guest

An interrupt line moves from the callback to the pending bitmap, from there to the `V_IRQ`
slot and from the slot to the guest. This module asks two questions about every run of the
vCPU loop: is a recorded line ever lost, and is it ever delivered twice.

The `INTR` case of `handle_exit` puts the slot's occupant back to the pending lines before it
injects again. The `HLT` case does not: when the guest reaches `HLT` in an interrupt shadow
the slot may still be full, the next injection overwrites it, and the line that was there is
in none of the three places any more. `noneLost_of_reachable` proves that this is the only
way to lose a line: in a run whose `HLT` exits all find the slot empty, or find the
occupant's own bit still pending (`HltKeepsSlot`), every recorded and undelivered line is
pending or in the slot. `noneLost_hlt_overwrites` is the losing step itself.

The `INTR` case in turn copies the occupant without clearing `v_irq`. When the retry does
not inject (the guest turned interrupts off, the PIC is being programmed, the lines got
masked) the line is in the slot and pending at once, and the guest takes it twice.
`neverTwice_of_reachable` proves that a run whose `INTR` exits all inject, or find the
occupant recorded again (`IntrMovesSlot`), delivers no line more often than it was recorded.
-/

set_option autoImplicit false

namespace YmirC

open Runs (Reachable)
open SvmVcpu

/-! ### The two questions -/

/-- Line `i` was recorded and has not been delivered since. The history is newest first. -/
def Undelivered (i : Nat) : List IrqEvent → Prop
  | [] => False
  | .recorded j :: h => j = i ∨ Undelivered i h
  | .delivered j :: h => j ≠ i ∧ Undelivered i h
  | .injected _ :: h => Undelivered i h

/-- Line `i` was recorded again after it was last put in the slot. -/
def RecordedAgain (i : Nat) : List IrqEvent → Prop
  | [] => False
  | .recorded j :: h => (j = i ∧ .injected i ∈ h) ∨ RecordedAgain i h
  | .injected j :: h => j ≠ i ∧ RecordedAgain i h
  | .delivered _ :: h => RecordedAgain i h

namespace SvmVcpu

/-- The `V_IRQ` slot holds line `i`. -/
def InSlot (v : SvmVcpu) (i : Nat) : Prop := v.vmcb.vIrq = true ∧ v.lastInjectedIrq.toNat = i

instance (v : SvmVcpu) (i : Nat) : Decidable (v.InSlot i) :=
  inferInstanceAs (Decidable (_ ∧ _))

/-- Line `i` is in the pending bitmap. -/
def Pending (v : SvmVcpu) (i : Nat) : Prop := v.pendingIrq.getLsbD i = true

instance (v : SvmVcpu) (i : Nat) : Decidable (v.Pending i) :=
  inferInstanceAs (Decidable (_ = _))

end SvmVcpu

/-- Every line that was recorded and not delivered since is pending or in the slot. -/
def Sys.NoneLost (s : Sys) : Prop :=
  ∀ i, Undelivered i s.history → s.vcpu.Pending i ∨ s.vcpu.InSlot i

/-- No line was delivered more often than it was recorded, and the line in the slot is
pending only when it was recorded again after it was put there. -/
def Sys.NeverTwice (s : Sys) : Prop :=
  (∀ i, s.history.count (.delivered i) ≤ s.history.count (.recorded i)) ∧
    ∀ i, s.vcpu.InSlot i → s.vcpu.Pending i → RecordedAgain i s.history

/-- At an `HLT` exit the slot is empty, or its occupant's bit is still pending. -/
def HltKeepsSlot (s : Sys) : Action → Prop
  | .exit _ _ => s.vcpu.vmcb.exitcode = SVM_EXIT_CODE_HLT → s.vcpu.vmcb.vIrq = true →
      s.vcpu.Pending s.vcpu.lastInjectedIrq.toNat
  | _ => True

/-- At an `INTR` exit with line `i` in the slot, `i` is pending already or recorded in the
exit's window, or one of the lines then pending can be injected. -/
def IntrMovesSlot (s : Sys) : Action → Prop
  | .exit _ windows => s.vcpu.vmcb.exitcode = SVM_EXIT_CODE_INTR → s.vcpu.vmcb.vIrq = true →
      let i := s.vcpu.lastInjectedIrq.toNat
      let recorded := recordedIn (windows.headD [])
      s.vcpu.Pending i ∨ i ∈ recorded ∨
        s.vcpu.CanInject fun j => s.vcpu.Pending j ∨ j = i ∨ j ∈ recorded
  | _ => True

instance (i : Nat) : ∀ h : List IrqEvent, Decidable (Undelivered i h)
  | [] => inferInstanceAs (Decidable False)
  | .recorded j :: h =>
      have := instDecidableUndelivered i h
      inferInstanceAs (Decidable (j = i ∨ Undelivered i h))
  | .delivered j :: h =>
      have := instDecidableUndelivered i h
      inferInstanceAs (Decidable (j ≠ i ∧ Undelivered i h))
  | .injected _ :: h => instDecidableUndelivered i h

instance (g : SvmIoioGuestState) (i : Nat) : Decidable (Unmasked g i) :=
  inferInstanceAs (Decidable (_ ∧ (_ → _)))

instance (v : SvmVcpu) (lines : Nat → Prop) [DecidablePred lines] : Decidable (v.CanInject lines) :=
  decidable_of_iff
    (v.ief = true ∧ v.guestIoioState.primaryPhase = .inited ∧
      ∃ i ∈ List.range 16, lines i ∧ Unmasked v.guestIoioState i)
    (by simp only [CanInject, List.mem_range])

instance (s : Sys) : ∀ a : Action, Decidable (HltKeepsSlot s a)
  | .exit _ _ => inferInstanceAs (Decidable (_ → _ → _))
  | .guest _ => isTrue trivial
  | .takeVirq => isTrue trivial

instance (s : Sys) : ∀ a : Action, Decidable (IntrMovesSlot s a)
  | .exit _ windows => inferInstanceAs (Decidable (_ → _ →
      s.vcpu.Pending s.vcpu.lastInjectedIrq.toNat ∨
        s.vcpu.lastInjectedIrq.toNat ∈ recordedIn (windows.headD []) ∨
        s.vcpu.CanInject fun j => s.vcpu.Pending j ∨ j = s.vcpu.lastInjectedIrq.toNat ∨
          j ∈ recordedIn (windows.headD [])))
  | .guest _ => isTrue trivial
  | .takeVirq => isTrue trivial

/-! ### Histories -/

/-- Events without a delivery in front of a history: a line is undelivered when they record
it or it was before. -/
theorem undelivered_append (i : Nat) :
    ∀ es h : List IrqEvent, (∀ j, .delivered j ∉ es) →
      (Undelivered i (es ++ h) ↔ .recorded i ∈ es ∨ Undelivered i h) := by
  intro es h
  induction es with
  | nil => simp
  | cons e es ih =>
      intro hnd
      have hrest := ih fun j hj => hnd j (List.mem_cons_of_mem _ hj)
      cases e with
      | recorded j =>
          show j = i ∨ Undelivered i (es ++ h) ↔ _
          rw [hrest, List.mem_cons, IrqEvent.recorded.injEq, or_assoc, eq_comm]
      | injected j =>
          show Undelivered i (es ++ h) ↔ _
          rw [hrest, List.mem_cons]
          simp
      | delivered j => exact absurd List.mem_cons_self (hnd j)

/-- Recorded lines in front of a history keep `RecordedAgain`. -/
theorem recordedAgain_append_recorded (i : Nat) (lines : List Nat) (h : List IrqEvent)
    (hr : RecordedAgain i h) : RecordedAgain i (lines.map .recorded ++ h) := by
  induction lines with
  | nil => exact hr
  | cons j lines ih => exact .inr ih

/-- A line recorded after it was put in the slot is recorded again. -/
theorem recordedAgain_of_mem (i : Nat) (lines : List Nat) (h : List IrqEvent)
    (hi : i ∈ lines) (hinj : .injected i ∈ h) :
    RecordedAgain i (lines.map .recorded ++ h) := by
  induction lines with
  | nil => cases hi
  | cons j lines ih =>
      rcases List.mem_cons.mp hi with rfl | hmem
      · exact .inl ⟨rfl, List.mem_append_right _ hinj⟩
      · exact .inr (ih hmem)

/-! ### One exit, as the histories see it -/

/-- The interrupt part of a handled exit. Either nothing moved, or the exit accepted a window
and then injected a pending line, or, in the `INTR` case only, found none it could inject.
The `INTR` case starts from the requeued vCPU, the `HLT` case from the vCPU as it is. -/
inductive ExitEffect (windows : List (List Nat)) (v v' : SvmVcpu) (es : List IrqEvent) : Prop
  | quiet (same : SameIrq v v') (events : es = [])
  | intrInjected (j : Nat) (code : v.vmcb.exitcode = SVM_EXIT_CODE_INTR) (hj : j < 16)
      (pending : (v.resetTlb.requeue.acceptWindow (windows.headD [])).Pending j)
      (same : SameIrq ((v.resetTlb.requeue.acceptWindow (windows.headD [])).inject j) v')
      (events : es = (recordedIn (windows.headD [])).map .recorded ++ [.injected j])
  | intrFailed (code : v.vmcb.exitcode = SVM_EXIT_CODE_INTR)
      (failed : (v.resetTlb.requeue.acceptWindow (windows.headD [])).injectExtIntr.1 = false)
      (same : SameIrq (v.resetTlb.requeue.acceptWindow (windows.headD [])) v')
      (events : es = (recordedIn (windows.headD [])).map .recorded)
  | hltInjected (window : List Nat) (j : Nat) (code : v.vmcb.exitcode = SVM_EXIT_CODE_HLT)
      (offered : window <+: windows.flatten) (hj : j < 16)
      (pending : (v.resetTlb.acceptWindow window).Pending j)
      (same : SameIrq ((v.resetTlb.acceptWindow window).inject j) v')
      (events : es = (recordedIn window).map .recorded ++ [.injected j])

theorem exitEffect_handleExit {host : Host} {windows : List (List Nat)} {v v' : SvmVcpu}
    {trace : List HostEvent} (h : v.handleExit host windows = .ok (v', trace)) :
    ExitEffect windows v v' (trace.flatMap HostEvent.irqEvents) := by
  rcases handleExit_cases h with ⟨hcode, heq⟩ | ⟨hcode, u, hloop, hsame⟩ | ⟨-, -, hsame, hquiet⟩
  · have hv : v' = _ := congrArg Prod.fst heq
    have ht : trace = _ := congrArg Prod.snd heq
    rcases injectExtIntr_cases (v.resetTlb.requeue.acceptWindow (windows.headD []))
      with ⟨j, hj, hp, he⟩ | he
    · refine .intrInjected j hcode hj hp ?_ ?_
      · rw [hv, handleIntr, he]
        exact SameIrq.refl _
      · rw [ht, handleIntr, he, injectionMark_inject _ j hj, List.flatMap_append,
          irqEvents_accept]
        rfl
    · refine .intrFailed hcode (by rw [he]) ?_ ?_
      · rw [hv, handleIntr, he]
        exact SameIrq.refl _
      · rw [ht, handleIntr, he, List.flatMap_append, irqEvents_accept]
        exact List.append_nil _
  · obtain ⟨window, j, hpre, hj, hp, rfl, rfl⟩ := hltLoop_ok _ _ _ _ hloop
    refine .hltInjected window j hcode hpre hj hp hsame ?_
    rw [List.flatMap_append, irqEvents_accept]
    rfl
  · exact .quiet hsame hquiet

/-- A handled exit delivers nothing. -/
theorem ExitEffect.no_delivery {windows : List (List Nat)} {v v' : SvmVcpu}
    {es : List IrqEvent} (h : ExitEffect windows v v' es) (j : Nat) : .delivered j ∉ es := by
  cases h with
  | quiet _ he => simp [he]
  | intrInjected k _ _ _ _ he => simp [he]
  | intrFailed _ _ _ he => simp [he]
  | hltInjected _ k _ _ _ _ _ he => simp [he]

/-- `SameIrq` moves pending lines across. -/
theorem SameIrq.pending_iff {v v' : SvmVcpu} (h : SameIrq v v') (i : Nat) :
    v'.Pending i ↔ v.Pending i := by
  unfold SvmVcpu.Pending
  rw [h.pending]

/-- `SameIrq` moves the slot across. -/
theorem SameIrq.inSlot_iff {v v' : SvmVcpu} (h : SameIrq v v') (i : Nat) :
    v'.InSlot i ↔ v.InSlot i := by
  unfold SvmVcpu.InSlot
  rw [h.vIrq, h.last]

/-- After an injection the slot holds exactly the injected line. -/
theorem inSlot_inject (v : SvmVcpu) (i j : Nat) (hj : j < 16) :
    (v.inject j).InSlot i ↔ i = j := by
  unfold SvmVcpu.InSlot
  rw [inject_last v j hj, inject_vIrq, eq_self, true_and, eq_comm]

/-- The lines pending before the injection attempt of an `INTR` exit. -/
theorem pending_intr (v : SvmVcpu) (window : List Nat) (i : Nat) :
    (v.resetTlb.requeue.acceptWindow window).Pending i ↔
      v.Pending i ∨ (v.InSlot i ∧ i < 16) ∨ i ∈ recordedIn window := by
  unfold SvmVcpu.Pending SvmVcpu.InSlot
  rw [pendingIrq_acceptWindow, pendingIrq_requeue, or_assoc, and_assoc]
  rfl

/-- The lines pending before the injection of an `HLT` exit. -/
theorem pending_hlt (v : SvmVcpu) (window : List Nat) (i : Nat) :
    (v.resetTlb.acceptWindow window).Pending i ↔ v.Pending i ∨ i ∈ recordedIn window :=
  pendingIrq_acceptWindow window i v.resetTlb

/-- Where a line is after an injection: still pending, or in the slot. -/
theorem pending_or_inSlot_inject {u v' : SvmVcpu} {j : Nat} (hj : j < 16)
    (hsame : SameIrq (u.inject j) v') {i : Nat} (hp : u.Pending i) :
    v'.Pending i ∨ v'.InSlot i := by
  rw [SameIrq.pending_iff hsame, SameIrq.inSlot_iff hsame, inSlot_inject u i j hj]
  by_cases hij : i = j
  · exact .inr hij
  · exact .inl ((pendingIrq_inject u j i hj).mpr ⟨hp, hij⟩)

/-! ### No line is lost -/

/-- The run invariant: no line is lost, and the slot holds a line number. -/
def Sys.Inv (s : Sys) : Prop :=
  s.NoneLost ∧ ∀ i, s.vcpu.InSlot i → i < 16

/-- The slot holds a line number after every handled exit. -/
theorem ExitEffect.slot_lt {windows : List (List Nat)} {v v' : SvmVcpu} {es : List IrqEvent}
    (h : ExitEffect windows v v' es) (hv : ∀ i, v.InSlot i → i < 16) :
    ∀ i, v'.InSlot i → i < 16 := by
  intro i hi
  cases h with
  | quiet hsame _ => exact hv i ((SameIrq.inSlot_iff hsame i).mp hi)
  | intrInjected j _ hj _ hsame _ =>
      rw [SameIrq.inSlot_iff hsame, inSlot_inject _ i j hj] at hi
      omega
  | intrFailed _ _ hsame _ =>
      have hi' := (SameIrq.inSlot_iff hsame i).mp hi
      unfold SvmVcpu.InSlot at hi'
      rw [acceptWindow_vmcb, acceptWindow_last, requeue_vmcb, requeue_last] at hi'
      exact hv i hi'
  | hltInjected _ j _ _ hj _ hsame _ =>
      rw [SameIrq.inSlot_iff hsame, inSlot_inject _ i j hj] at hi
      omega

/-- A handled exit keeps every line that is pending or in the slot, and every line it
records, provided an `HLT` exit does not overwrite the slot. -/
theorem ExitEffect.keeps {windows : List (List Nat)} {v v' : SvmVcpu} {es : List IrqEvent}
    (h : ExitEffect windows v v' es) (hslot : ∀ i, v.InSlot i → i < 16)
    (hhlt : v.vmcb.exitcode = SVM_EXIT_CODE_HLT → v.vmcb.vIrq = true →
      v.Pending v.lastInjectedIrq.toNat) {i : Nat}
    (hi : .recorded i ∈ es ∨ v.Pending i ∨ v.InSlot i) : v'.Pending i ∨ v'.InSlot i := by
  cases h with
  | quiet hsame he =>
      subst he
      rw [SameIrq.pending_iff hsame, SameIrq.inSlot_iff hsame]
      rcases hi with hi | hi
      · cases hi
      · exact hi
  | intrInjected j _ hj _ hsame he =>
      -- The occupant was requeued before the injection, so it is pending or injected again.
      refine pending_or_inSlot_inject hj hsame ((pending_intr v _ i).mpr ?_)
      rcases hi with hi | hi | hi
      · exact .inr (.inr (by simpa [he] using hi))
      · exact .inl hi
      · exact .inr (.inl ⟨hi, hslot i hi⟩)
  | intrFailed _ _ hsame he =>
      refine .inl ((SameIrq.pending_iff hsame i).mpr ((pending_intr v _ i).mpr ?_))
      rcases hi with hi | hi | hi
      · exact .inr (.inr (by simpa [he] using hi))
      · exact .inl hi
      · exact .inr (.inl ⟨hi, hslot i hi⟩)
  | hltInjected window j hcode _ hj _ hsame he =>
      -- Nothing requeues the occupant here: `hhlt` says that it is pending anyway.
      refine pending_or_inSlot_inject hj hsame ((pending_hlt v _ i).mpr ?_)
      rcases hi with hi | hi | hi
      · exact .inr (by simpa [he] using hi)
      · exact .inl hi
      · exact .inl (hi.2 ▸ hhlt hcode hi.1)

/-- One step that does not overwrite the slot loses no line. -/
theorem inv_step (s : Sys) (a : Action) (s' : Sys) (hinv : s.Inv) (hok : HltKeepsSlot s a)
    (hstep : s.step a = some s') : s'.Inv := by
  obtain ⟨hlost, hslot⟩ := hinv
  cases a with
  | guest g =>
      cases hstep
      exact ⟨hlost, hslot⟩
  | takeVirq =>
      simp only [Sys.step] at hstep
      split at hstep
      · cases hstep
        refine ⟨fun i hi => ?_, fun i hi => absurd hi.1 (by simp)⟩
        -- The delivered line is not undelivered any more, and every other line that was in
        -- the slot would be the delivered one.
        obtain ⟨hne, hi⟩ := hi
        rcases hlost i hi with hp | ⟨-, hl⟩
        · exact .inl hp
        · exact absurd hl hne
      · cases hstep
  | exit host windows =>
      simp only [Sys.step] at hstep
      split at hstep
      · rename_i v' trace hexit
        cases hstep
        have heff := exitEffect_handleExit hexit
        refine ⟨fun i hi => ?_, heff.slot_lt hslot⟩
        rw [undelivered_append i _ _ (fun j hj => heff.no_delivery j (List.mem_reverse.mp hj)),
          List.mem_reverse] at hi
        refine heff.keeps hslot hok ?_
        rcases hi with hi | hi
        · exact .inl hi
        · exact .inr (hlost i hi)
      · cases hstep

/-- **No interrupt is lost** in a run whose `HLT` exits do not overwrite the slot. -/
theorem noneLost_of_reachable {s : Sys}
    (h : Reachable Sys.Init Sys.step HltKeepsSlot s) : s.NoneLost := by
  refine (h.invariant (P := Sys.Inv) ?_ inv_step).1
  rintro s ⟨-, hv, -, hh⟩
  refine ⟨fun i hi => ?_, fun i hi => ?_⟩
  · rw [hh] at hi
    cases hi
  · have := hi.1
    rw [hv] at this
    cases this

/-- The losing step. An `HLT` exit that finds an undelivered line `i` not pending, with no
vector of `i` in the windows, injects another line: if `i` was in the slot it is overwritten,
it is still undelivered afterwards and it is nowhere. -/
theorem noneLost_hlt_overwrites {s s' : Sys} {host : Host} {windows : List (List Nat)} {i : Nat}
    (hstep : s.step (.exit host windows) = some s')
    (hcode : s.vcpu.vmcb.exitcode = SVM_EXIT_CODE_HLT)
    (hnot : ¬ s.vcpu.Pending i) (hund : Undelivered i s.history)
    (hwin : i ∉ recordedIn windows.flatten) : ¬ s'.NoneLost := by
  simp only [Sys.step] at hstep
  split at hstep
  case h_2 => cases hstep
  rename_i v' trace hexit
  cases hstep
  have heff := exitEffect_handleExit hexit
  intro hlost
  -- The exit delivers nothing, so the line is still undelivered.
  have hund' : Undelivered i ((trace.flatMap HostEvent.irqEvents).reverse ++ s.history) :=
    (undelivered_append i _ _ fun j hj => heff.no_delivery j (List.mem_reverse.mp hj)).mpr
      (.inr hund)
  have hheld := hlost i hund'
  rcases handleExit_cases hexit with ⟨hc, -⟩ | ⟨-, u, hloop, hsame⟩ | ⟨-, hc, -⟩
  · exact absurd (hcode.symm.trans hc) (by decide)
  · obtain ⟨window, j, hpre, hj, hp, rfl, -⟩ := hltLoop_ok _ _ _ _ hloop
    -- Neither the bitmap nor a window has the line, so the loop injects another one.
    have hnp : ¬ (s.vcpu.resetTlb.acceptWindow window).Pending i := by
      rw [pending_hlt, mem_recordedIn]
      rintro (h | ⟨hi, h⟩)
      · exact hnot h
      · exact hwin ((mem_recordedIn _ _).mpr ⟨hi, hpre.subset h⟩)
    have hij : i ≠ j := fun hij => hnp (hij ▸ hp)
    rw [SameIrq.pending_iff hsame, SameIrq.inSlot_iff hsame, inSlot_inject _ i j hj] at hheld
    rcases hheld with h | h
    · exact hnp ((pendingIrq_inject _ j i hj).mp h).1
    · exact hij h
  · exact hc hcode

/-- A host that answers every port read with zeros. -/
def quietHost : Host where
  inb _ := 0
  inw _ := 0
  inl _ := 0
  cpuid _ _ := { eax := 0, ebx := 0, ecx := 0, edx := 0 }

/-- The guest executes an 8-bit `OUT value, port`, and the exit is handled. -/
def outExit (port value : Nat) : List Action :=
  [.guest { exitcode := SVM_EXIT_CODE_IOIO
            exitinfo1 := BitVec.ofNat 64 (port <<< 16 ||| 0x10)
            rax := BitVec.ofNat 64 value },
   .exit quietHost []]

/-- The guest programs the primary PIC and unmasks its lines. -/
def programPic : List Action :=
  outExit 0x20 0x11 ++ outExit 0x21 0x20 ++ outExit 0x21 0x04 ++ outExit 0x21 0x01
    ++ outExit 0x21 0x00

/-- An `INTR` exit of a guest that runs with interrupts on or off. -/
def intrExit (interrupts : Bool) (window : List Nat) : List Action :=
  [.guest { exitcode := SVM_EXIT_CODE_INTR, rflags := if interrupts then 0x200 else 0 },
   .exit quietHost [window]]

/-- An `HLT` exit right behind an `STI`, with the interrupt windows its loop sees. -/
def hltExit (windows : List (List Nat)) : List Action :=
  [.guest { exitcode := SVM_EXIT_CODE_HLT, rflags := 0x200, interruptShadow := true },
   .exit quietHost windows]

/-- A system about to enter `svm_vcpu_loop`. -/
def Sys.boot : Sys := { vcpu := svmVcpuNew 1, history := [] }

theorem boot_init : Sys.boot.Init := ⟨rfl, rfl, rfl, rfl⟩

/-- The keyboard interrupt sits in the slot, the guest halts in the shadow of its `STI`, and
the timer interrupt of the halt overwrites it. -/
def losingRun : List Action := programPic ++ intrExit true [33] ++ hltExit [[32]]

theorem not_noneLost_of_reachable :
    ¬ ∀ s, Reachable Sys.Init Sys.step (fun _ _ => True) s → s.NoneLost := by
  intro hall
  obtain ⟨s, hs, hund, hnot⟩ := Reachable.exists_of_exec Sys.step (fun _ _ => True)
    (fun s => Undelivered 1 s.history ∧ ¬ (s.vcpu.Pending 1 ∨ s.vcpu.InSlot 1))
    losingRun boot_init (by decide +kernel)
  exact hnot (hall s hs 1 hund)

/-- The same run with the interrupt taken before the halt. -/
theorem noneLost_of_reachable_taken :
    ∃ s, Reachable Sys.Init Sys.step HltKeepsSlot s ∧ s.vcpu.InSlot 0 ∧ s.NoneLost := by
  obtain ⟨s, hs, hin⟩ := Reachable.exists_of_exec Sys.step HltKeepsSlot (fun s => s.vcpu.InSlot 0)
    (programPic ++ intrExit true [33] ++ [.takeVirq] ++ hltExit [[32]]) boot_init
    (by decide +kernel)
  exact ⟨s, hs, hin, noneLost_of_reachable hs⟩

/-! ### No line is delivered twice -/

namespace SvmVcpu

/-- One when line `i` is in the slot. -/
def slotCount (v : SvmVcpu) (i : Nat) : Nat := if v.InSlot i then 1 else 0

/-- One when line `i` is pending. -/
def pendingCount (v : SvmVcpu) (i : Nat) : Nat := if v.Pending i then 1 else 0

end SvmVcpu

/-- The run invariant: what was delivered, what is in the slot and what is pending were all
recorded. The slot's occupant was put there, and is pending only if it was recorded again. -/
structure Sys.Accounted (s : Sys) : Prop where
  counts : ∀ i, s.history.count (.delivered i) + s.vcpu.slotCount i + s.vcpu.pendingCount i
    ≤ s.history.count (.recorded i)
  slot : ∀ i, s.vcpu.InSlot i → i < 16 ∧ .injected i ∈ s.history
  again : ∀ i, s.vcpu.InSlot i → s.vcpu.Pending i → RecordedAgain i s.history

/-- The recordings an exit adds to the history are the lines of its window. -/
theorem count_recorded_exit (lines : List Nat) (tail h : List IrqEvent) (i : Nat)
    (htail : .recorded i ∉ tail) :
    ((lines.map IrqEvent.recorded ++ tail).reverse ++ h).count (.recorded i)
      = lines.count i + h.count (.recorded i) := by
  have hmap : (lines.map IrqEvent.recorded).count (.recorded i) = lines.count i :=
    List.count_map_of_injective lines IrqEvent.recorded (fun _ _ h => by cases h; rfl) i
  rw [List.count_append, List.count_reverse, List.count_append, hmap,
    List.count_eq_zero.mpr htail, Nat.add_zero]

/-- An exit adds no delivery. -/
theorem count_delivered_exit (lines : List Nat) (tail h : List IrqEvent) (i : Nat)
    (htail : .delivered i ∉ tail) :
    ((lines.map IrqEvent.recorded ++ tail).reverse ++ h).count (.delivered i)
      = h.count (.delivered i) := by
  have hmap : (lines.map IrqEvent.recorded).count (.delivered i) = 0 := by
    rw [List.count_eq_zero]
    simp
  rw [List.count_append, List.count_reverse, List.count_append, hmap,
    List.count_eq_zero.mpr htail, Nat.zero_add]

/-- An injection leaves at most one copy of a line in the slot and the bitmap, and only of a
line that was pending. -/
theorem counts_inject {u v' : SvmVcpu} {j : Nat} (hj : j < 16) (hp : u.Pending j)
    (hsame : SameIrq (u.inject j) v') (i : Nat) :
    v'.slotCount i + v'.pendingCount i ≤ u.pendingCount i := by
  unfold SvmVcpu.slotCount SvmVcpu.pendingCount
  simp only [SameIrq.inSlot_iff hsame, SameIrq.pending_iff hsame, inSlot_inject u i j hj]
  have hpi : (u.inject j).Pending i ↔ u.Pending i ∧ i ≠ j := pendingIrq_inject u j i hj
  by_cases hij : i = j
  · subst hij
    simp [hpi, hp]
  · simp [hpi, hij]

/-- The pending lines of an injection attempt were pending, in the slot, or recorded. -/
theorem pendingCount_intr (v : SvmVcpu) (window : List Nat) (i : Nat) :
    (v.resetTlb.requeue.acceptWindow window).pendingCount i
      ≤ v.slotCount i + v.pendingCount i + (recordedIn window).count i := by
  unfold SvmVcpu.pendingCount SvmVcpu.slotCount
  by_cases h1 : v.Pending i
  · simp only [h1, if_true]
    split <;> omega
  · by_cases h2 : v.InSlot i
    · simp only [h2, if_true]
      split <;> omega
    · by_cases h3 : i ∈ recordedIn window
      · have := List.count_pos_iff.mpr h3
        split <;> omega
      · have hnp : ¬ (v.resetTlb.requeue.acceptWindow window).Pending i := by
          rw [pending_intr]
          rintro (h | ⟨h, -⟩ | h)
          · exact h1 h
          · exact h2 h
          · exact h3 h
        rw [if_neg hnp]
        omega

theorem pendingCount_hlt (v : SvmVcpu) (window : List Nat) (i : Nat) :
    (v.resetTlb.acceptWindow window).pendingCount i
      ≤ v.pendingCount i + (recordedIn window).count i := by
  unfold SvmVcpu.pendingCount
  by_cases h1 : v.Pending i
  · simp only [h1, if_true]
    split <;> omega
  · by_cases h2 : i ∈ recordedIn window
    · have := List.count_pos_iff.mpr h2
      split <;> omega
    · have hnp : ¬ (v.resetTlb.acceptWindow window).Pending i := by
        rw [pending_hlt]
        exact fun h => h.elim h1 h2
      rw [if_neg hnp]
      omega

/-- A failed retry of the `INTR` case: under `IntrMovesSlot`, the line in the slot was
pending already, or is recorded in the window. -/
theorem intrFailed_slot {s : Sys} {host : Host} {windows : List (List Nat)} {i : Nat}
    (hcode : s.vcpu.vmcb.exitcode = SVM_EXIT_CODE_INTR)
    (hok : IntrMovesSlot s (.exit host windows))
    (hfail : (s.vcpu.resetTlb.requeue.acceptWindow (windows.headD [])).injectExtIntr.1 = false)
    (hslot : s.vcpu.InSlot i) (hi : i < 16) :
    s.vcpu.Pending i ∨ i ∈ recordedIn (windows.headD []) := by
  have hcond := hok hcode hslot.1
  rw [hslot.2] at hcond
  rcases hcond with h | h | ⟨hief, hphase, j, hj, hline, hmask⟩
  · exact .inl h
  · exact .inr h
  · -- Some pending line could be injected, so the retry would have succeeded.
    exfalso
    have hinj := injectExtIntr_of_canInject
      (s.vcpu.resetTlb.requeue.acceptWindow (windows.headD [])) ?_
    · rw [hfail] at hinj
      cases hinj
    · refine ⟨?_, ?_, j, hj, ?_, ?_⟩
      · unfold SvmVcpu.ief
        rw [acceptWindow_vmcb, requeue_vmcb]
        exact hief
      · rw [acceptWindow_guestIoioState, requeue_guestIoioState]
        exact hphase
      · refine (pending_intr s.vcpu _ j).mpr ?_
        rcases hline with h | rfl | h
        · exact .inl h
        · exact .inr (.inl ⟨hslot, hj⟩)
        · exact .inr (.inr h)
      · rw [acceptWindow_guestIoioState, requeue_guestIoioState]
        exact hmask

/-- The slot after a failed retry is the slot before it. -/
theorem inSlot_intrFailed {v v' : SvmVcpu} {window : List Nat}
    (hsame : SameIrq (v.resetTlb.requeue.acceptWindow window) v') (i : Nat) :
    v'.InSlot i ↔ v.InSlot i := by
  rw [SameIrq.inSlot_iff hsame]
  unfold SvmVcpu.InSlot
  rw [acceptWindow_vmcb, acceptWindow_last, requeue_vmcb, requeue_last]
  rfl

/-- An injection keeps the accounts when every pending line it finds was pending, in the slot, or
is recorded by the exit. -/
theorem accounted_inject {s : Sys} {u v' : SvmVcpu} {lines : List Nat} {j : Nat}
    (hs : s.Accounted) (hj : j < 16) (hp : u.Pending j) (hsame : SameIrq (u.inject j) v')
    (hcount : ∀ i, u.pendingCount i
      ≤ s.vcpu.slotCount i + s.vcpu.pendingCount i + lines.count i) :
    Sys.Accounted { vcpu := v', history :=
      (lines.map IrqEvent.recorded ++ [IrqEvent.injected j]).reverse ++ s.history } := by
  -- The injected line leaves the bitmap for the slot, and the occupant of the slot is gone.
  refine ⟨fun i => ?_, fun i hi => ?_, fun i hi hpi => ?_⟩
  · have h1 := counts_inject hj hp hsame i
    have h2 := hcount i
    have h3 := hs.counts i
    rw [count_recorded_exit _ _ _ i (by simp), count_delivered_exit _ _ _ i (by simp)]
    show _ + v'.slotCount i + v'.pendingCount i ≤ _
    omega
  · rw [SameIrq.inSlot_iff hsame, inSlot_inject _ i j hj] at hi
    subst hi
    exact ⟨hj, by simp⟩
  · rw [SameIrq.inSlot_iff hsame, inSlot_inject _ i j hj] at hi
    rw [SameIrq.pending_iff hsame] at hpi
    exact absurd hi ((pendingIrq_inject _ j i hj).mp hpi).2

/-- A handled exit keeps the accounts. -/
theorem accounted_exit {s : Sys} {v' : SvmVcpu} {es : List IrqEvent} {host : Host}
    {windows : List (List Nat)} (hs : s.Accounted)
    (hok : IntrMovesSlot s (.exit host windows)) (h : ExitEffect windows s.vcpu v' es) :
    Sys.Accounted { vcpu := v', history := es.reverse ++ s.history } := by
  have hcounts := hs.counts
  have hslot := hs.slot
  have hagain := hs.again
  cases h with
  | quiet hsame he =>
      subst he
      refine ⟨fun i => ?_, fun i hi => ?_, fun i hi hp => ?_⟩
      · have := hcounts i
        unfold SvmVcpu.slotCount SvmVcpu.pendingCount at this ⊢
        simp only [SameIrq.inSlot_iff hsame, SameIrq.pending_iff hsame]
        exact this
      · exact hslot i ((SameIrq.inSlot_iff hsame i).mp hi)
      · exact hagain i ((SameIrq.inSlot_iff hsame i).mp hi) ((SameIrq.pending_iff hsame i).mp hp)
  | intrInjected j hcode hj hp hsame he =>
      subst he
      exact accounted_inject hs hj hp hsame (pendingCount_intr s.vcpu (windows.headD []))
  | intrFailed hcode hfail hsame he =>
      subst he
      refine ⟨fun i => ?_, fun i hi => ?_, fun i hi hpi => ?_⟩
      · -- The occupant was requeued and stays in the slot, so it may be in both places now.
        have h2 := pendingCount_intr s.vcpu (windows.headD []) i
        have h3 := hcounts i
        have hpend : v'.pendingCount i
            = (s.vcpu.resetTlb.requeue.acceptWindow (windows.headD [])).pendingCount i := by
          unfold SvmVcpu.pendingCount
          simp only [SameIrq.pending_iff hsame]
        have hslotEq : v'.slotCount i = s.vcpu.slotCount i := by
          unfold SvmVcpu.slotCount
          simp only [inSlot_intrFailed hsame]
        -- A line that stays in the slot may be pending too only if it is accounted for twice.
        have hkey : v'.pendingCount i
            ≤ s.vcpu.pendingCount i + (recordedIn (windows.headD [])).count i := by
          by_cases hin : s.vcpu.InSlot i
          · have hle : v'.pendingCount i ≤ 1 := by
              unfold SvmVcpu.pendingCount
              split <;> omega
            -- The condition on the step: it was pending before, or the window records it again.
            rcases intrFailed_slot hcode hok hfail hin (hslot i hin).1 with h | h
            · have : s.vcpu.pendingCount i = 1 := if_pos h
              omega
            · have := List.count_pos_iff.mpr h
              omega
          · have : s.vcpu.slotCount i = 0 := if_neg hin
            omega
        have hr := count_recorded_exit (recordedIn (windows.headD [])) [] s.history i (by simp)
        have hd := count_delivered_exit (recordedIn (windows.headD [])) [] s.history i (by simp)
        rw [List.append_nil] at hr hd
        show _ + v'.slotCount i + v'.pendingCount i ≤ _
        rw [hr, hd, hslotEq]
        omega
      · have hin := (inSlot_intrFailed hsame i).mp hi
        exact ⟨(hslot i hin).1, List.mem_append_right _ (hslot i hin).2⟩
      · have hin := (inSlot_intrFailed hsame i).mp hi
        -- Pending before, it was recorded again already; recorded in the window, it is so now.
        rw [← List.map_reverse]
        rcases intrFailed_slot hcode hok hfail hin (hslot i hin).1 with h | h
        · exact recordedAgain_append_recorded i _ _ (hagain i hin h)
        · exact recordedAgain_of_mem i _ _ (List.mem_reverse.mpr h) (hslot i hin).2
  | hltInjected window j hcode _ hj hp hsame he =>
      subst he
      refine accounted_inject hs hj hp hsame fun i => ?_
      have := pendingCount_hlt s.vcpu window i
      omega

/-- One step whose `INTR` retry moves the slot keeps the accounts. -/
theorem accounted_step (s : Sys) (a : Action) (s' : Sys) (hs : s.Accounted)
    (hok : IntrMovesSlot s a) (hstep : s.step a = some s') : s'.Accounted := by
  cases a with
  | guest g =>
      cases hstep
      exact ⟨hs.counts, hs.slot, hs.again⟩
  | takeVirq =>
      simp only [Sys.step] at hstep
      split at hstep
      · rename_i hready
        cases hstep
        have hv : s.vcpu.vmcb.vIrq = true := by
          simp only [Bool.and_eq_true] at hready
          exact hready.1
        -- The slot is empty afterwards, so only the counts are left.
        refine ⟨fun i => ?_, fun i hi => absurd hi.1 (by simp),
          fun i hi => absurd hi.1 (by simp)⟩
        have h := hs.counts i
        have hempty : ¬ SvmVcpu.InSlot
            { s.vcpu with vmcb := { s.vcpu.vmcb with vIrq := false } } i := fun hc =>
          absurd hc.1 (by simp)
        have hpend : SvmVcpu.pendingCount
            { s.vcpu with vmcb := { s.vcpu.vmcb with vIrq := false } } i
              = s.vcpu.pendingCount i := rfl
        unfold SvmVcpu.slotCount at h ⊢
        rw [if_neg hempty, hpend, List.count_cons, List.count_cons]
        -- The occupant moves from the slot to the deliveries; the other lines stay where they
        -- are.
        by_cases hl : s.vcpu.lastInjectedIrq.toNat = i
        · have hin : s.vcpu.InSlot i := ⟨hv, hl⟩
          rw [if_pos hin] at h
          simp [hl]
          omega
        · have hin : ¬ s.vcpu.InSlot i := fun hc => hl hc.2
          rw [if_neg hin] at h
          simp [hl]
          omega
      · cases hstep
  | exit host windows =>
      simp only [Sys.step] at hstep
      split at hstep
      · rename_i v' trace hexit
        cases hstep
        exact accounted_exit hs hok (exitEffect_handleExit hexit)
      · cases hstep

/-- **No interrupt is delivered twice** in a run whose `INTR` retries move the slot. -/
theorem neverTwice_of_reachable {s : Sys}
    (h : Reachable Sys.Init Sys.step IntrMovesSlot s) : s.NeverTwice := by
  have hacc : s.Accounted := by
    refine h.invariant (P := Sys.Accounted) ?_ accounted_step
    rintro s ⟨hp, hv, -, hh⟩
    -- In an initial system nothing is pending, in the slot or in the history.
    have hslot : ∀ i, ¬ s.vcpu.InSlot i := fun i hi => by
      have := hi.1
      rw [hv] at this
      cases this
    have hpend : ∀ i, ¬ s.vcpu.Pending i := fun i hi => by
      unfold SvmVcpu.Pending at hi
      rw [hp, BitVec.getLsbD_zero] at hi
      cases hi
    refine ⟨fun i => ?_, fun i hi => absurd hi (hslot i), fun i hi => absurd hi (hslot i)⟩
    have h1 : s.vcpu.slotCount i = 0 := if_neg (hslot i)
    have h2 : s.vcpu.pendingCount i = 0 := if_neg (hpend i)
    rw [hh, h1, h2]
    simp
  refine ⟨fun i => ?_, hacc.again⟩
  have := hacc.counts i
  omega

/-- The guest turns interrupts off with the keyboard interrupt in the slot. The retry of the
next `INTR` exit fails, the line stays in the slot and is pending as well, and the guest takes
it a second time at its next halt. -/
def twiceRun : List Action :=
  programPic ++ intrExit true [33] ++ intrExit false [32] ++ [.guest { rflags := 0x200 }, .takeVirq]
    ++ intrExit true [36] ++ [.takeVirq] ++ hltExit [] ++ [.takeVirq]

theorem not_neverTwice_of_reachable :
    ¬ ∀ s, Reachable Sys.Init Sys.step (fun _ _ => True) s → s.NeverTwice := by
  intro hall
  obtain ⟨s, hs, hlt⟩ := Reachable.exists_of_exec Sys.step (fun _ _ => True)
    (fun s => s.history.count (.recorded 1) < s.history.count (.delivered 1))
    twiceRun boot_init (by decide +kernel)
  exact absurd hlt (Nat.not_lt.mpr ((hall s hs).1 1))

/-- A run whose `INTR` exit moves the slot: the occupant is requeued and the timer line goes
first. -/
theorem neverTwice_of_reachable_moved :
    ∃ s, Reachable Sys.Init Sys.step IntrMovesSlot s ∧ s.vcpu.InSlot 0 ∧ s.vcpu.Pending 1 ∧
      s.NeverTwice := by
  obtain ⟨s, hs, hslot, hpend⟩ := Reachable.exists_of_exec Sys.step IntrMovesSlot
    (fun s => s.vcpu.InSlot 0 ∧ s.vcpu.Pending 1)
    (programPic ++ intrExit true [33] ++ intrExit true [32]) boot_init (by decide)
  exact ⟨s, hs, hslot, hpend, neverTwice_of_reachable hs⟩

end YmirC
