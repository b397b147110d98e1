import YmirC.Proofs.Bits
import YmirC.Proofs.SvmVcpu.Handlers

/-!
# `YmirC.Proofs.SvmVcpu.Injection`: pending lines, windows and injection

The bitmap of pending lines, read bit by bit: what a window of accepted vectors adds
(`pendingIrq_acceptWindow`), what the `INTR` case puts back (`pendingIrq_requeue`) and what
an injection removes (`pendingIrq_inject`).

`injectExtIntr_cases` states the two results of `inject_ext_intr`, and
`injectExtIntr_of_canInject` when it does inject. `hltLoop_ok` reduces a returned `HLT` loop
to one long window followed by one injection, so the `INTR` and the `HLT` case share the
rest of the argument.
-/

set_option autoImplicit false

namespace YmirC

namespace SvmVcpu

/-! ### Windows -/

/-- The lines recorded in a window, in order. Vectors outside the PICs' range record none. -/
def recordedIn (window : List Nat) : List Nat :=
  window.filterMap fun vector =>
    if primaryVectorOffset ≤ vector && vector < primaryVectorOffset + 16 then
      some (vector - primaryVectorOffset)
    else none

theorem mem_recordedIn (window : List Nat) (i : Nat) :
    i ∈ recordedIn window ↔ i < 16 ∧ primaryVectorOffset + i ∈ window := by
  unfold recordedIn
  rw [List.mem_filterMap]
  constructor
  · rintro ⟨vector, hmem, hv⟩
    split at hv
    · rename_i hrange
      have hr : primaryVectorOffset ≤ vector ∧ vector < primaryVectorOffset + 16 := by
        simpa using hrange
      have hi : vector - primaryVectorOffset = i := Option.some.inj hv
      have heq : primaryVectorOffset + i = vector := by omega
      exact ⟨by omega, heq ▸ hmem⟩
    · cases hv
  · rintro ⟨hi, hmem⟩
    refine ⟨primaryVectorOffset + i, hmem, ?_⟩
    rw [if_pos (by simp; omega), Nat.add_sub_cancel_left]

/-- The interrupt events of a window are its recorded lines. -/
theorem irqEvents_accept (window : List Nat) :
    (window.map HostEvent.accept).flatMap HostEvent.irqEvents
      = (recordedIn window).map IrqEvent.recorded := by
  induction window with
  | nil => rfl
  | cons vector rest ih =>
      unfold recordedIn at ih ⊢
      rw [List.map_cons, List.flatMap_cons, ih, List.filterMap_cons]
      by_cases hr : primaryVectorOffset ≤ vector && vector < primaryVectorOffset + 16
      · simp only [HostEvent.irqEvents, hr, if_true]
        rfl
      · simp only [HostEvent.irqEvents, hr]
        rfl

/-- The callback touches the pending lines only. -/
theorem intrSubscriberCallback_eq (v : SvmVcpu) (vector : Nat) :
    ∃ p, v.intrSubscriberCallback vector = { v with pendingIrq := p } := by
  unfold intrSubscriberCallback
  dsimp only
  split
  · exact ⟨_, rfl⟩
  · exact ⟨v.pendingIrq, rfl⟩

theorem pendingIrq_intrSubscriberCallback (v : SvmVcpu) (vector i : Nat) :
    (v.intrSubscriberCallback vector).pendingIrq.getLsbD i = true ↔
      v.pendingIrq.getLsbD i = true ∨ (i < 16 ∧ vector = primaryVectorOffset + i) := by
  unfold intrSubscriberCallback
  dsimp only
  split
  · rename_i hrange
    have hr : primaryVectorOffset ≤ vector ∧ vector < primaryVectorOffset + 16 := by
      simpa using hrange
    rw [BitVec.getLsbD_or, getLsbD_tobit16, Bool.or_eq_true, decide_eq_true_eq]
    constructor
    · rintro (h | ⟨_, h⟩)
      · exact .inl h
      · exact .inr (by omega)
    · rintro (h | ⟨_, h⟩)
      · exact .inl h
      · exact .inr (by omega)
  · -- A vector outside the range names no line below 16.
    rename_i hrange
    have hr : ¬ (primaryVectorOffset ≤ vector ∧ vector < primaryVectorOffset + 16) := by
      simpa using hrange
    constructor
    · exact .inl
    · rintro (h | ⟨h1, h2⟩)
      · exact h
      · exact absurd ⟨by omega, by omega⟩ hr

/-- A window changes the pending lines only. -/
theorem acceptWindow_eq (window : List Nat) :
    ∀ v : SvmVcpu, ∃ p, v.acceptWindow window = { v with pendingIrq := p } := by
  induction window with
  | nil => intro v; exact ⟨v.pendingIrq, rfl⟩
  | cons vector rest ih =>
      intro v
      obtain ⟨p, hp⟩ := intrSubscriberCallback_eq v vector
      obtain ⟨q, hq⟩ := ih (v.intrSubscriberCallback vector)
      refine ⟨q, ?_⟩
      show (v.intrSubscriberCallback vector).acceptWindow rest = _
      rw [hq, hp]

@[simp] theorem acceptWindow_vmcb (v : SvmVcpu) (window : List Nat) :
    (v.acceptWindow window).vmcb = v.vmcb := by
  obtain ⟨p, hp⟩ := acceptWindow_eq window v
  rw [hp]

@[simp] theorem acceptWindow_last (v : SvmVcpu) (window : List Nat) :
    (v.acceptWindow window).lastInjectedIrq = v.lastInjectedIrq := by
  obtain ⟨p, hp⟩ := acceptWindow_eq window v
  rw [hp]

@[simp] theorem acceptWindow_guestIoioState (v : SvmVcpu) (window : List Nat) :
    (v.acceptWindow window).guestIoioState = v.guestIoioState := by
  obtain ⟨p, hp⟩ := acceptWindow_eq window v
  rw [hp]

/-- After a window a line is pending when it was, or when it was recorded there. -/
theorem pendingIrq_acceptWindow (window : List Nat) (i : Nat) :
    ∀ v : SvmVcpu, (v.acceptWindow window).pendingIrq.getLsbD i = true ↔
      v.pendingIrq.getLsbD i = true ∨ i ∈ recordedIn window := by
  induction window with
  | nil =>
      intro v
      simp [acceptWindow, recordedIn]
  | cons vector rest ih =>
      intro v
      show ((v.intrSubscriberCallback vector).acceptWindow rest).pendingIrq.getLsbD i = true ↔ _
      -- The first vector is recorded by the callback, the others by the rest of the window.
      rw [ih, pendingIrq_intrSubscriberCallback, mem_recordedIn, mem_recordedIn, List.mem_cons]
      constructor
      · rintro ((h | ⟨h1, h2⟩) | ⟨h1, h2⟩)
        · exact .inl h
        · exact .inr ⟨h1, .inl h2.symm⟩
        · exact .inr ⟨h1, .inr h2⟩
      · rintro (h | ⟨h1, h2 | h2⟩)
        · exact .inl (.inl h)
        · exact .inl (.inr ⟨h1, h2.symm⟩)
        · exact .inr ⟨h1, h2⟩

/-- Two windows one after the other are one window. -/
theorem acceptWindow_append (v : SvmVcpu) (w₁ w₂ : List Nat) :
    (v.acceptWindow w₁).acceptWindow w₂ = v.acceptWindow (w₁ ++ w₂) :=
  List.foldl_append.symm

/-! ### Requeue and injection -/

@[simp] theorem requeue_vmcb (v : SvmVcpu) : v.requeue.vmcb = v.vmcb := by
  unfold requeue
  split <;> rfl

@[simp] theorem requeue_last (v : SvmVcpu) : v.requeue.lastInjectedIrq = v.lastInjectedIrq := by
  unfold requeue
  split <;> rfl

@[simp] theorem requeue_guestIoioState (v : SvmVcpu) :
    v.requeue.guestIoioState = v.guestIoioState := by
  unfold requeue
  split <;> rfl

/-- The `INTR` case makes the slot's occupant pending. -/
theorem pendingIrq_requeue (v : SvmVcpu) (i : Nat) :
    v.requeue.pendingIrq.getLsbD i = true ↔
      v.pendingIrq.getLsbD i = true ∨
        (v.vmcb.vIrq = true ∧ v.lastInjectedIrq.toNat = i ∧ i < 16) := by
  unfold requeue
  split
  · rename_i hv
    rw [BitVec.getLsbD_or, getLsbD_tobit16, Bool.or_eq_true, decide_eq_true_eq]
    constructor
    · rintro (h | ⟨h1, h2⟩)
      · exact .inl h
      · exact .inr ⟨hv, h2.symm, by omega⟩
    · rintro (h | ⟨_, h2, h3⟩)
      · exact .inl h
      · exact .inr ⟨by omega, h2.symm⟩
  · rename_i hv
    simp [hv]

/-- An injection clears the line's bit and keeps the others. -/
theorem pendingIrq_inject (v : SvmVcpu) (j i : Nat) (hj : j < 16) :
    (v.inject j).pendingIrq.getLsbD i = true ↔ v.pendingIrq.getLsbD i = true ∧ i ≠ j := by
  show (v.pendingIrq &&& ~~~tobit16 j).getLsbD i = true ↔ _
  rw [BitVec.getLsbD_and, BitVec.getLsbD_not, getLsbD_tobit16]
  constructor
  · intro h
    simp only [Bool.and_eq_true, Bool.not_eq_true', decide_eq_false_iff_not] at h
    exact ⟨h.1, fun hij => h.2.2 ⟨hj, hij⟩⟩
  · rintro ⟨h1, h2⟩
    have hi : i < 16 := BitVec.lt_of_getLsbD h1
    simp [h1, h2, hi]

@[simp] theorem inject_vIrq (v : SvmVcpu) (j : Nat) : (v.inject j).vmcb.vIrq = true := rfl

theorem inject_last (v : SvmVcpu) (j : Nat) (hj : j < 16) :
    (v.inject j).lastInjectedIrq.toNat = j := by
  show (BitVec.ofNat 8 j).toNat = j
  rw [BitVec.toNat_ofNat]
  omega

/-- The line's mask bit is clear in its own PIC, and a secondary line is not cut off at the
cascade input. -/
def Unmasked (g : SvmIoioGuestState) (i : Nat) : Prop :=
  isMasked g i = false ∧ (8 ≤ i → g.primaryMask.getLsbD irqSecondary = false)

/-- The test `inject_ext_intr` makes before its loop reads bit 2 of the primary mask. -/
theorem isSecondaryMasked_eq (g : SvmIoioGuestState) :
    isset16 (g.primaryMask.setWidth 16) irqSecondary = g.primaryMask.getLsbD irqSecondary := by
  rw [isset16_eq, BitVec.getLsbD_setWidth]
  simp [irqSecondary]

/-- A line the loop finds is pending and unmasked. -/
theorem findInjectable_some (v : SvmVcpu) (sm : Bool) (i : Nat) :
    ∀ lines : List Nat, (∀ j ∈ lines, j < 16) → v.findInjectable sm lines = some i →
      i < 16 ∧ v.pendingIrq.getLsbD i = true ∧ isMasked v.guestIoioState i = false ∧
        (8 ≤ i → sm = false) := by
  intro lines
  induction lines with
  | nil => intro _ h; cases h
  | cons j rest ih =>
      intro hlt h
      have hj : j < 16 := hlt j List.mem_cons_self
      have hrest := ih fun k hk => hlt k (List.mem_cons_of_mem _ hk)
      -- The three tests of the loop body in order: the `break`, the pending bit, the mask.
      unfold findInjectable at h
      split at h
      · cases h
      · rename_i hbreak
        split at h
        · exact hrest h
        · rename_i hpend
          split at h
          · exact hrest h
          · rename_i hmask
            cases h
            rw [and_tobit16_eq_zero _ _ hj] at hpend
            refine ⟨hj, by simpa using hpend, by simpa using hmask, ?_⟩
            intro h8
            simpa [h8] using hbreak

/-- The loop finds no line only when no pending line is unmasked. Its `break` is sound
because the lines come in increasing order: behind the first secondary line there are only
secondary lines. -/
theorem findInjectable_none (v : SvmVcpu) (sm : Bool) :
    ∀ lines : List Nat, lines.Pairwise (· < ·) → (∀ j ∈ lines, j < 16) →
      v.findInjectable sm lines = none →
        ∀ i ∈ lines, v.pendingIrq.getLsbD i = true →
          isMasked v.guestIoioState i = true ∨ (sm = true ∧ 8 ≤ i) := by
  intro lines
  induction lines with
  | nil => intro _ _ _ i hi; cases hi
  | cons j rest ih =>
      intro hsorted hlt h i hi hpi
      have hj : j < 16 := hlt j List.mem_cons_self
      rw [List.pairwise_cons] at hsorted
      unfold findInjectable at h
      split at h
      · -- The `break`: this line and those behind it belong to the secondary PIC.
        rename_i hbreak
        have hb : sm = true ∧ 8 ≤ j := by simpa using hbreak
        rcases List.mem_cons.mp hi with rfl | hmem
        · exact .inr hb
        · have := hsorted.1 i hmem
          exact .inr ⟨hb.1, by omega⟩
      · have hrest := ih hsorted.2 (fun k hk => hlt k (List.mem_cons_of_mem _ hk))
        split at h
        · -- The line is not pending.
          rename_i hpend
          rw [and_tobit16_eq_zero _ _ hj] at hpend
          rcases List.mem_cons.mp hi with rfl | hmem
          · rw [hpend] at hpi
            cases hpi
          · exact hrest h i hmem hpi
        · split at h
          · -- The line is masked.
            rename_i hmask
            rcases List.mem_cons.mp hi with rfl | hmem
            · exact .inl hmask
            · exact hrest h i hmem hpi
          · cases h

/-- `inject_ext_intr` either injects a pending line or changes nothing. -/
theorem injectExtIntr_cases (v : SvmVcpu) :
    (∃ i, i < 16 ∧ v.pendingIrq.getLsbD i = true ∧ v.injectExtIntr = (true, v.inject i)) ∨
      v.injectExtIntr = (false, v) := by
  unfold injectExtIntr
  dsimp only
  -- Nothing pending, the primary PIC not programmed, and interrupts off give up; then the loop.
  split
  · exact .inr rfl
  · split
    · exact .inr rfl
    · split
      · exact .inr rfl
      · split
        · rename_i i hfind
          obtain ⟨hi, hp, -⟩ :=
            findInjectable_some v _ i _ (fun j hj => List.mem_range.mp hj) hfind
          exact .inl ⟨i, hi, hp, rfl⟩
        · exact .inr rfl

/-- The guest accepts interrupts, the primary PIC is programmed, and one of `lines` is
unmasked. -/
def CanInject (v : SvmVcpu) (lines : Nat → Prop) : Prop :=
  v.ief = true ∧ v.guestIoioState.primaryPhase = .inited ∧
    ∃ i, i < 16 ∧ lines i ∧ Unmasked v.guestIoioState i

/-- With an unmasked pending line, `inject_ext_intr` injects. -/
theorem injectExtIntr_of_canInject (v : SvmVcpu)
    (h : v.CanInject fun i => v.pendingIrq.getLsbD i = true) : v.injectExtIntr.1 = true := by
  obtain ⟨hief, hphase, i, hi, hp, hmask, hcasc⟩ := h
  have hpend : v.pendingIrq ≠ 0#16 := by
    intro h0
    rw [h0, BitVec.getLsbD_zero] at hp
    cases hp
  unfold injectExtIntr
  dsimp only
  rw [if_neg hpend, if_neg (by simp [hphase]), if_neg (by simp [hief]), isSecondaryMasked_eq]
  split
  · rfl
  · -- The loop would have to have rejected the line, but it is neither masked nor cut off.
    rename_i hnone
    have hsorted : (List.range 16).Pairwise (· < ·) := List.pairwise_lt_range
    have := findInjectable_none v _ _ hsorted (fun j hj => List.mem_range.mp hj) hnone i
      (List.mem_range.mpr hi) hp
    rcases this with hm | ⟨hm, h8⟩
    · rw [hmask] at hm
      cases hm
    · rw [hcasc h8] at hm
      cases hm

/-- An injection leaves its mark in the trace. -/
theorem injectionMark_inject (v : SvmVcpu) (i : Nat) (hi : i < 16) :
    injectionMark (true, v.inject i) = [.injected i] := by
  show [HostEvent.injected (v.inject i).lastInjectedIrq.toNat] = _
  rw [inject_last v i hi]

/-- A returned `HLT` loop accepted some of the vectors offered to it and then injected a
pending line. Induction on the windows: each failed attempt changes nothing, so the windows add
up to one. -/
theorem hltLoop_ok :
    ∀ (windows : List (List Nat)) (v u : SvmVcpu) (trace : List HostEvent),
      hltLoop windows v = .ok (u, trace) →
        ∃ window i, window <+: windows.flatten ∧ i < 16 ∧
          (v.acceptWindow window).pendingIrq.getLsbD i = true ∧
          u = (v.acceptWindow window).inject i ∧
          trace = window.map .accept ++ [.injected i] := by
  intro windows
  induction windows with
  | nil =>
      intro v u trace h
      unfold hltLoop at h
      rcases injectExtIntr_cases v with ⟨i, hi, hp, he⟩ | he
      · simp only [he, if_true] at h
        cases h
        exact ⟨[], i, List.nil_prefix, hi, hp, rfl, injectionMark_inject v i hi⟩
      · simp only [he, Bool.false_eq_true, if_false] at h
        cases h
  | cons w rest ih =>
      intro v u trace h
      unfold hltLoop at h
      rcases injectExtIntr_cases v with ⟨i, hi, hp, he⟩ | he
      · simp only [he, if_true] at h
        cases h
        exact ⟨[], i, List.nil_prefix, hi, hp, rfl, injectionMark_inject v i hi⟩
      · simp only [he, Bool.false_eq_true, if_false] at h
        -- The attempt failed, so the vectors of this window come in front of the later ones.
        obtain ⟨⟨u', t⟩, hrec, hr⟩ := Run.bind_eq_ok.mp h
        cases hr
        obtain ⟨window, i, hpre, hi, hp, rfl, rfl⟩ := ih _ _ _ hrec
        rw [acceptWindow_append] at hp ⊢
        have hpre' : w ++ window <+: (w :: rest).flatten := by
          rw [List.flatten_cons]
          exact (List.prefix_append_right_inj w).mpr hpre
        exact ⟨w ++ window, i, hpre', hi, hp, rfl, by simp⟩

end SvmVcpu

end YmirC
