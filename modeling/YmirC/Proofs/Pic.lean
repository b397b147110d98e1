import YmirC.Arch.X86.Pic

/-!
# `YmirC.Proofs.Pic`: which interrupts the host leaves in service

`HostPics` is the pair of in-service registers of the host's 8259s in specific-EOI mode. An
accepted line occupies its own PIC, and a line of the secondary occupies the cascade input of
the primary as well. `notify_eoi` sends both EOIs of such a line to the secondary, so the
cascade input stays in service.

`HostPics.interrupt_eq` is the step: after each handled line the secondary is empty, and the
primary holds at most the cascade input. `inService_empty_iff` carries it over every sequence
of lines. The only acknowledgement that reaches the cascade input is that of line 2 itself, so
the registers are empty exactly when line 2 comes behind every line of the secondary.
-/

set_option autoImplicit false

namespace YmirC

/-- The in-service registers of the two PICs. -/
structure HostPics where
  primary : BitVec 8 := 0
  secondary : BitVec 8 := 0
  deriving DecidableEq, Repr

namespace HostPics

/-- The processor accepts line `i`. -/
def accept (p : HostPics) (i : IrqLine) : HostPics :=
  if i < 8 then { p with primary := p.primary ||| 1#8 <<< i }
  else { primary := p.primary ||| 1#8 <<< irqSecondary
         secondary := p.secondary ||| 1#8 <<< (i - 8) }

/-- A register after a write to its command port: a specific EOI `0x60 | k` clears bit `k`. -/
def eoi (isr value : BitVec 8) : BitVec 8 :=
  if value &&& 0xF8#8 = 0x60#8 then isr &&& ~~~(1#8 <<< (value &&& 0x07#8).toNat) else isr

/-- A write to one of the command ports. -/
def outb (p : HostPics) (w : PortWrite) : HostPics :=
  if w.port = primaryCommandPort then { p with primary := eoi p.primary w.value }
  else if w.port = secondaryCommandPort then { p with secondary := eoi p.secondary w.value }
  else p

/-- Line `i` is accepted and its handler runs. -/
def interrupt (p : HostPics) (i : IrqLine) : HostPics :=
  (blobIrqHandler (BitVec.ofNat 64 (primaryVectorOffset + i))).foldl outb (p.accept i)

/-- The registers with nothing in service but the cascade input, when `stuck`. -/
def held (stuck : Bool) : HostPics :=
  { primary := if stuck then 1#8 <<< irqSecondary else 0#8 }

/-- Whether the cascade input is in service after line `i` was handled. -/
def stuckAfter (stuck : Bool) (i : IrqLine) : Bool :=
  if i < 8 then stuck && decide (i ≠ irqSecondary) else true

/-- One handled line. -/
theorem interrupt_eq : ∀ i < 16, ∀ stuck, (held stuck).interrupt i = held (stuckAfter stuck i) := by
  decide

/-- The registers after a sequence of handled lines. -/
theorem foldl_interrupt (lines : List IrqLine) :
    ∀ stuck, (∀ i ∈ lines, i < 16) →
      lines.foldl interrupt (held stuck) = held (lines.foldl stuckAfter stuck) := by
  induction lines with
  | nil =>
      intro stuck _
      rfl
  | cons i lines ih =>
      intro stuck hlines
      rw [List.foldl_cons, List.foldl_cons, interrupt_eq i (hlines i List.mem_cons_self)]
      exact ih _ fun j hj => hlines j (List.mem_cons_of_mem _ hj)

end HostPics

/-- Behind every line of the secondary PIC comes line 2. -/
def CascadeReleased (lines : List IrqLine) : Prop :=
  ∀ before i after, lines = before ++ i :: after → 8 ≤ i → irqSecondary ∈ after

theorem cascadeReleased_cons (i : IrqLine) (lines : List IrqLine) :
    CascadeReleased (i :: lines) ↔ (8 ≤ i → irqSecondary ∈ lines) ∧ CascadeReleased lines := by
  constructor
  · intro h
    refine ⟨h [] i lines rfl, fun before j after heq hj => ?_⟩
    exact h (i :: before) j after (by rw [heq, List.cons_append]) hj
  · rintro ⟨hfirst, hrest⟩ before j after heq hj
    cases before with
    | nil =>
        obtain ⟨rfl, rfl⟩ := List.cons.inj heq
        exact hfirst hj
    | cons k before =>
        obtain ⟨rfl, rfl⟩ := List.cons.inj heq
        exact hrest before j after rfl hj

/-- Whether the cascade input stays in service over a sequence of lines. -/
theorem foldl_stuckAfter (lines : List IrqLine) :
    ∀ stuck, lines.foldl HostPics.stuckAfter stuck = false ↔
      CascadeReleased lines ∧ (stuck = true → irqSecondary ∈ lines) := by
  induction lines with
  | nil =>
      intro stuck
      simp [CascadeReleased]
  | cons i lines ih =>
      intro stuck
      rw [List.foldl_cons, ih, cascadeReleased_cons, HostPics.stuckAfter]
      by_cases hi : i < 8
      · -- A line of the primary: only line 2 releases the input.
        rw [if_pos hi]
        by_cases h2 : i = irqSecondary
        · simp [h2, irqSecondary]
        · have hne : irqSecondary ≠ i := Ne.symm h2
          simp [h2, hne, Nat.not_le.mpr hi]
      · -- A line of the secondary sets the input, whatever it was.
        have hne : irqSecondary ≠ i := by
          rintro rfl
          exact hi (by decide)
        simp only [hi, if_false, Nat.not_lt.mp hi, true_implies, List.mem_cons, hne, false_or]
        constructor
        · rintro ⟨h1, h2⟩
          exact ⟨⟨h2, h1⟩, fun _ => h2⟩
        · rintro ⟨⟨h2, h1⟩, -⟩
          exact ⟨h1, h2⟩

/-- **What the EOIs leave in service.** After a sequence of accepted lines, each handled before
the next, both registers are empty exactly when line 2 came behind every line of the
secondary PIC. -/
theorem inService_empty_iff (lines : List IrqLine) (hlines : ∀ i ∈ lines, i < 16) :
    lines.foldl HostPics.interrupt {} = {} ↔ CascadeReleased lines := by
  have hrun := HostPics.foldl_interrupt lines false hlines
  have hempty : ∀ stuck, HostPics.held stuck = {} ↔ stuck = false := by decide
  show lines.foldl HostPics.interrupt (HostPics.held false) = _ ↔ _
  rw [hrun, hempty, foldl_stuckAfter]
  simp

/-- The clock, then line 2: nothing is left in service. -/
theorem inService_empty_iff_rtcCascade : [8, 2].foldl HostPics.interrupt {} = {} := by
  have hreleased : CascadeReleased [8, 2] := by
    rw [cascadeReleased_cons, cascadeReleased_cons]
    refine ⟨by decide, by decide, fun before i after heq => ?_⟩
    exact absurd heq (by simp)
  exact (inService_empty_iff [8, 2] (by decide)).mpr hreleased

/-- The real-time clock leaves the cascade input in service. -/
theorem not_inService_empty_rtc : [8].foldl HostPics.interrupt {} ≠ {} := by
  decide

end YmirC
