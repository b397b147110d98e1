import Mathlib.Tactic.SplitIfs
import YmirC.Main
import YmirC.Proofs.Interrupt

/-!
# `YmirC.Proofs.Main`: which interrupts reach the kernel

While the kernel programs the chips and registers its handlers, devices raise and lower their lines
and interrupts come in between any two instructions. A state of such a run is halted
(`IrqStopped`), before `cli` and the initialization of the chips (`IrqQuiet`), or one in which the
chips have the mask the kernel wrote last and every line that is not masked has its handler
(`IrqFollows`). Each is kept by what devices do and by the interrupts they cause, so it is enough to
follow the program (`Spec`). `setupInterrupts_spec` is the result for the set-up, and
`request_served` for what comes behind it.
-/

set_option autoImplicit false

namespace YmirC

open Interleave Pic8259

/-! ### The chips behind `pic_init` -/

/-- What `pic_init` programs, with the primary chip's mask as given. -/
def picSetup (base cascade mask : BitVec 8) : Setup where
  phase := .ready
  single := false
  needsIcw4 := true
  base := base
  cascade := cascade
  mode := ICW4_8086
  imr := mask
  isr := 0#8
  readIsr := false

/-- The chips behind `pic_init`, with nothing in service and the secondary one masked. -/
structure Programmed (mask : BitVec 8) (p : Pair) : Prop where
  primary : p.primary.setup = picSetup 32#8 4#8 mask
  secondary : p.secondary.setup = picSetup 40#8 2#8 0xFF#8

section Pair
variable {p : Pair} {mask : BitVec 8}

@[simp] theorem raise_primary_setup (line : Nat) :
    (p.raise line).primary.setup = p.primary.setup := by
  unfold Pair.raise
  split <;> rfl

@[simp] theorem raise_secondary_setup (line : Nat) :
    (p.raise line).secondary.setup = p.secondary.setup := by
  unfold Pair.raise
  split <;> rfl

@[simp] theorem lower_primary_setup (line : Nat) :
    (p.lower line).primary.setup = p.primary.setup := by
  unfold Pair.lower
  split <;> rfl

@[simp] theorem lower_secondary_setup (line : Nat) :
    (p.lower line).secondary.setup = p.secondary.setup := by
  unfold Pair.lower
  split <;> rfl

theorem Programmed.raise (h : Programmed mask p) (line : Nat) : Programmed mask (p.raise line) :=
  ⟨(raise_primary_setup line).trans h.primary, (raise_secondary_setup line).trans h.secondary⟩

theorem Programmed.lower (h : Programmed mask p) (line : Nat) : Programmed mask (p.lower line) :=
  ⟨(lower_primary_setup line).trans h.primary, (lower_secondary_setup line).trans h.secondary⟩

theorem Programmed.foldl_lower (h : Programmed mask p) (lines : List IrqLine) :
    Programmed mask (lines.foldl Pair.lower p) := by
  induction lines generalizing p with
  | nil => exact h
  | cons line lines ih => exact ih (h.lower line)

/-- The secondary chip is masked. -/
theorem Programmed.secondary_request (h : Programmed mask p) : p.secondary.request = none := by
  have hall : ∀ i < 8, (0xFF#8).getLsbD i = true := by decide
  refine Chip.request_eq_none fun i hi _ => ?_
  rw [h.secondary]
  exact hall i hi

/-- What the processor is told is about an input that is not masked, and not about the cascade. -/
theorem Programmed.upper_request (h : Programmed mask p) {i : Nat}
    (hreq : p.upper.request = some i) :
    i < 8 ∧ i ≠ irqSecondary ∧ p.primary.irr.getLsbD i = true ∧ mask.getLsbD i = false := by
  obtain ⟨hlt, hirr, himr, -⟩ := Chip.request_eq_some hreq
  have hupper : p.upper.irr = p.primary.irr &&& ~~~(1#8 <<< Pair.cascadeLine) := by
    rw [Pair.upper, h.secondary_request]
    rfl
  have himr' : p.upper.setup.imr = mask := by
    show p.primary.setup.imr = mask
    rw [h.primary]
    rfl
  rw [hupper, BitVec.getLsbD_and, Bool.and_eq_true] at hirr
  refine ⟨hlt, ?_, hirr.1, himr' ▸ himr⟩
  rintro rfl
  exact absurd hirr.2 (by decide)

/-- The cycle in which the vector is fetched: the line of the request goes in service, or there is
none any more. -/
theorem Programmed.acknowledge (h : Programmed mask p) :
    p.acknowledge = (39#8, p) ∧ p.upper.request = none ∨
    ∃ i, p.upper.request = some i ∧
      p.acknowledge = (32#8 + BitVec.ofNat 8 i, { p with primary := p.primary.serve i }) := by
  rw [Pair.acknowledge]
  cases hreq : p.upper.request with
  | none =>
      refine Or.inl ⟨?_, rfl⟩
      show (p.primary.setup.base + 7#8, p) = _
      rw [h.primary]
      rfl
  | some i =>
      obtain ⟨-, hne, -⟩ := h.upper_request hreq
      have hpass : p.passesOn i = false := by
        have hcascade : decide (i = Pair.cascadeLine) = false := decide_eq_false hne
        rw [Pair.passesOn, hcascade, Bool.and_false, Bool.false_and]
      refine Or.inr ⟨i, rfl, ?_⟩
      simp only [hpass, h.primary]
      rfl

/-- The EOI of the line that was served takes it out of service. -/
theorem serve_eoi {s : Setup} (hs : s = picSetup 32#8 4#8 mask) :
    ∀ i < 8, ∀ irr : BitVec 8,
      ((Chip.mk s irr).serve i).writeCommand (0x60#8 ||| BitVec.ofNat 8 i)
        = Chip.mk s (irr &&& ~~~(1#8 <<< i)) := by
  subst hs
  intro i hi irr
  match i, hi with
  | 0, _ | 1, _ | 2, _ | 3, _ | 4, _ | 5, _ | 6, _ | 7, _ =>
      simp [Chip.serve, Chip.writeCommand, Setup.writeCommand, Setup.ocw2, picSetup, ICW4_8086]

end Pair

/-! ### Interrupts -/

/-- The lines that are not masked have `blob_irq_handler`, and the vector of input 7 is
unhandled. -/
structure IrqHandles (mask : BitVec 8) (itr : Interrupts KernelCallback KernelHandler) : Prop where
  blobIrq : ∀ i < 8, i ≠ irqSecondary → mask.getLsbD i = false →
    itr.handlers (32#8 + BitVec.ofNat 8 i).toFin = some .blobIrq
  unhandled : itr.handlers (39#8).toFin = some .unhandled

/-- The vCPU after the callbacks for the vector `v`. -/
def noted (itr : Interrupts KernelCallback KernelHandler) (v : BitVec 8) (vcpu : SvmVcpu) :
    SvmVcpu :=
  itr.notify.foldl (fun vcpu _ => vcpu.intrSubscriberCallback v.toNat) vcpu

/-- The subscribers see the vCPU only. -/
theorem foldl_call_notify (m : IrqMachine) (v : BitVec 8) :
    m.itr.notify.foldl (IrqMachine.call v) m = { m with vcpu := noted m.itr v m.vcpu } := by
  have hall : ∀ c ∈ m.itr.notify, ∃ self, c = .callback .intrSubscriber self := by
    intro c hc
    obtain ⟨i, -, hi⟩ := List.mem_filterMap.mp hc
    obtain ⟨s, -, rfl⟩ := Option.map_eq_some_iff.mp hi
    exact ⟨s.self, rfl⟩
  have hfold : ∀ (calls : List (DispatchCall KernelCallback KernelHandler)) (m : IrqMachine),
      (∀ c ∈ calls, ∃ self, c = .callback .intrSubscriber self) →
      calls.foldl (IrqMachine.call v) m = { m with
        vcpu := calls.foldl (fun vcpu _ => vcpu.intrSubscriberCallback v.toNat) m.vcpu } := by
    intro calls
    induction calls with
    | nil =>
        intro m _
        rfl
    | cons c calls ih =>
        intro m hcalls
        obtain ⟨self, rfl⟩ := hcalls c List.mem_cons_self
        exact ih _ fun c hc => hcalls c (List.mem_cons_of_mem _ hc)
  exact hfold _ m hall

/-- The kernel runs: the chips are programmed, and the interrupt flag is on. -/
structure IrqRunning (mask : BitVec 8) (itr : Interrupts KernelCallback KernelHandler)
    (m : IrqMachine) : Prop where
  halted : m.halted = false
  intr : m.intr = true
  pics : Programmed mask m.pics
  itr : m.itr = itr

/-- A line is served: its EOI is out, and its callback has run. -/
structure IrqServed (mask : BitVec 8) (i : IrqLine) (lines : List IrqLine) (m m' : IrqMachine) :
    Prop where
  line : i < 8 ∧ i ≠ irqSecondary ∧ mask.getLsbD i = false
  request : (lines.foldl Pair.lower m.pics).upper.request = some i
  taken : m'.taken = (32#8 + BitVec.ofNat 8 i) :: m.taken
  vcpu : m'.vcpu = noted m.itr (32#8 + BitVec.ofNat 8 i) m.vcpu
  irr : m'.pics.primary.irr
    = (lines.foldl Pair.lower m.pics).primary.irr &&& ~~~(1#8 <<< i)

/-- The processor was told of a request that is gone, and the kernel has halted. -/
structure IrqSpurious (lines : List IrqLine) (m m' : IrqMachine) : Prop where
  halted : m'.halted = true
  request : (lines.foldl Pair.lower m.pics).upper.request = none
  taken : m'.taken = 39#8 :: m.taken

section Interrupt
variable {mask : BitVec 8} {itr : Interrupts KernelCallback KernelHandler} {m m' : IrqMachine}

/-- The one write of `blob_irq_handler` for a line of the primary chip. -/
theorem blobIrqHandler_primary :
    ∀ i < 8, blobIrqHandler ((32#8 + BitVec.ofNat 8 i).setWidth 64)
      = [⟨0x60#8 ||| BitVec.ofNat 8 i, primaryCommandPort⟩] := by
  decide

/-- The calls for a vector without a handler. -/
theorem foldl_unhandled (m : IrqMachine) (v : BitVec 8) :
    (m.itr.notify ++ [DispatchCall.handler KernelHandler.unhandled]).foldl (IrqMachine.call v) m
      = { m with vcpu := noted m.itr v m.vcpu, halted := true } := by
  rw [List.foldl_append, foldl_call_notify]
  rfl

/-- An interrupt serves a line that is not masked, or is spurious. -/
theorem IrqRunning.interrupt (h : IrqRunning mask itr m) (hhandles : IrqHandles mask itr)
    {lines : List IrqLine} (hint : m.interrupt lines = some m') :
    (∃ i, IrqRunning mask itr m' ∧ IrqServed mask i lines m m') ∨ IrqSpurious lines m m' := by
  have hlower := h.pics.foldl_lower lines
  rw [IrqMachine.interrupt] at hint
  split at hint
  · cases hint
  obtain ⟨hack, hreq⟩ | ⟨i, hreq, hack⟩ := hlower.acknowledge
  · refine Or.inr ?_
    simp only [hack, itrDispatch_eq, h.itr, hhandles.unhandled, Option.map_some] at hint
    rw [← h.itr, foldl_unhandled, Option.some.injEq] at hint
    subst hint
    exact ⟨rfl, hreq, rfl⟩
  · obtain ⟨hlt, hne, -, hmask⟩ := hlower.upper_request hreq
    refine Or.inl ⟨i, ?_⟩
    have hdispatch := hhandles.blobIrq i hlt hne hmask
    rw [← h.itr] at hdispatch
    simp only [hack, itrDispatch_eq, hdispatch, Option.map_some, List.foldl_append,
      Option.some.injEq] at hint
    have hnotify := foldl_call_notify
      { m with
        pics := { lines.foldl Pair.lower m.pics with
          primary := (lines.foldl Pair.lower m.pics).primary.serve i }
        taken := (32#8 + BitVec.ofNat 8 i) :: m.taken } (32#8 + BitVec.ofNat 8 i)
    rw [hnotify] at hint
    have hreq' := hreq
    generalize hp : lines.foldl Pair.lower m.pics = p at hlower hint hreq
    have heoi := serve_eoi hlower.primary i hlt p.primary.irr
    have hcall : ∀ m₀ : IrqMachine, m₀.pics = { p with primary := p.primary.serve i } →
        [DispatchCall.handler KernelHandler.blobIrq].foldl
          (IrqMachine.call (32#8 + BitVec.ofNat 8 i)) m₀
          = { m₀ with pics := { p with
                primary := ⟨p.primary.setup, p.primary.irr &&& ~~~(1#8 <<< i)⟩ } } := by
      intro m₀ hm₀
      rw [← heoi]
      simp only [List.foldl_cons, List.foldl_nil, IrqMachine.call, blobIrqHandler_primary i hlt,
        hm₀]
      rfl
    rw [hcall _ rfl] at hint
    subst hint
    refine ⟨⟨h.halted, h.intr, ⟨?_, ?_⟩, h.itr⟩, ⟨hlt, hne, hmask⟩, hreq', rfl, rfl, ?_⟩
    · exact hlower.primary
    · exact hlower.secondary
    · rw [hp]

end Interrupt

/-! ### The program -/

/-- The machine has halted: on an interrupt before `cli`, when the flag was on at the start, or on a
spurious interrupt behind interrupts of the two lines. -/
def IrqStopped (on : Bool) (τ : List (BitVec 8)) (m : IrqMachine) : Prop :=
  m.halted = true ∧ (on = true ∧ (∃ v, m.taken = v :: τ) ∨
    ∃ new, m.taken = 39#8 :: (new ++ τ) ∧ ∀ v ∈ new, v = 32#8 ∨ v = 36#8)

/-- No interrupt has been taken, and the chips are set up as given. -/
structure IrqQuiet (on : Bool) (itr : Interrupts KernelCallback KernelHandler) (τ : List (BitVec 8))
    (vcpu : SvmVcpu) (s : Setup × Setup) (m : IrqMachine) : Prop where
  halted : m.halted = false
  intr : m.intr = on
  itr : m.itr = itr
  taken : m.taken = τ
  vcpu : m.vcpu = vcpu
  setup : (m.pics.primary.setup, m.pics.secondary.setup) = s

/-- The kernel runs. The subscriber has seen the interrupts since `old`. -/
structure IrqFollows (mask : BitVec 8) (itr : Interrupts KernelCallback KernelHandler)
    (τ : List (BitVec 8)) (vcpu : SvmVcpu) (m : IrqMachine) : Prop where
  running : IrqRunning mask itr m
  taken : ∃ since old, m.taken = since ++ (old ++ τ) ∧
    (∀ v ∈ since ++ old, v = 32#8 ∨ v = 36#8) ∧ m.vcpu = since.foldr (noted itr) vcpu

section Program
variable {on : Bool} {mask : BitVec 8} {itr : Interrupts KernelCallback KernelHandler}
  {τ : List (BitVec 8)} {vcpu : SvmVcpu} {s : Setup × Setup} {m m' : IrqMachine}

/-- A halted machine takes no interrupt. -/
theorem interrupt_of_halted (h : m.halted = true) (lines : List IrqLine) :
    m.interrupt lines = none := by
  rw [IrqMachine.interrupt, h]
  rfl

theorem stopped_stable : Stable IrqMachine.Move (IrqStopped on τ) := by
  intro m m' h hmove
  cases hmove with
  | raise _ _ => exact h
  | lower _ => exact h
  | interrupt hint =>
      rw [interrupt_of_halted h.1] at hint
      cases hint

/-- What is stable up to a stop. -/
theorem stable_or_stopped {K : IrqMachine → Prop}
    (hK : ∀ m m', K m → IrqMachine.Move m m' → IrqStopped on τ m' ∨ K m') :
    Stable IrqMachine.Move fun m => IrqStopped on τ m ∨ K m := by
  rintro m m' (h | h) hmove
  · exact Or.inl (stopped_stable m m' h hmove)
  · exact hK m m' h hmove

/-- With the flag off nothing happens but requests. With it on and no handler registered, the
first interrupt halts. -/
theorem quiet_stable (hitr : ∀ v, itr.handlers v = some .unhandled) {now : Bool}
    (hnow : now = true → on = true) :
    Stable IrqMachine.Move fun m => IrqStopped on τ m ∨ IrqQuiet now itr τ vcpu s m := by
  refine stable_or_stopped fun m m' h hmove => ?_
  cases hmove with
  | @raise line _ _ =>
      refine Or.inr ⟨h.halted, h.intr, h.itr, h.taken, h.vcpu, ?_⟩
      rw [raise_primary_setup, raise_secondary_setup, h.setup]
  | @lower line _ =>
      refine Or.inr ⟨h.halted, h.intr, h.itr, h.taken, h.vcpu, ?_⟩
      rw [lower_primary_setup, lower_secondary_setup, h.setup]
  | @interrupt _ lines hint =>
      refine Or.inl ?_
      rw [IrqMachine.interrupt] at hint
      split at hint
      · cases hint
      rename_i hcond
      simp only [itrDispatch_eq, h.itr, hitr, Option.map_some] at hint
      rw [← h.itr, foldl_unhandled, Option.some.injEq] at hint
      subst hint
      have hintr : m.intr = true := by
        cases hm : m.intr with
        | true => rfl
        | false =>
            rw [hm] at hcond
            simp at hcond
      refine ⟨rfl, Or.inl ⟨hnow (h.intr ▸ hintr), ?_⟩⟩
      rw [← h.taken]
      exact ⟨_, rfl⟩

/-- While the kernel runs, the lines that are not masked are served, until a spurious
interrupt. -/
theorem follows_stable (hhandles : IrqHandles mask itr)
    (hmask : ∀ i < 8, mask.getLsbD i = false → i = irqTimer ∨ i = irqSerial1) :
    Stable IrqMachine.Move fun m => IrqStopped on τ m ∨ IrqFollows mask itr τ vcpu m := by
  refine stable_or_stopped fun m m' h hmove => ?_
  obtain ⟨hrun, since, old, htaken, hlines, hvcpu⟩ := h
  cases hmove with
  | @raise line _ _ =>
      exact Or.inr ⟨⟨hrun.halted, hrun.intr, hrun.pics.raise line, hrun.itr⟩, since, old, htaken,
        hlines, hvcpu⟩
  | @lower line _ =>
      exact Or.inr ⟨⟨hrun.halted, hrun.intr, hrun.pics.lower line, hrun.itr⟩, since, old, htaken,
        hlines, hvcpu⟩
  | @interrupt _ lines hint =>
      obtain ⟨i, hrun', hserved⟩ | hspurious := hrun.interrupt hhandles hint
      · have hv : 32#8 + BitVec.ofNat 8 i = 32#8 ∨ 32#8 + BitVec.ofNat 8 i = 36#8 := by
          obtain rfl | rfl := hmask i hserved.line.1 hserved.line.2.2
          · exact Or.inl rfl
          · exact Or.inr rfl
        refine Or.inr ⟨hrun', (32#8 + BitVec.ofNat 8 i) :: since, old, ?_, ?_, ?_⟩
        · rw [hserved.taken, htaken, List.cons_append]
        · rw [List.cons_append]
          exact List.forall_mem_cons.mpr ⟨hv, hlines⟩
        · rw [hserved.vcpu, hrun.itr, hvcpu, List.foldr_cons]
      · refine Or.inl ⟨hspurious.halted, Or.inr ⟨since ++ old, ?_, hlines⟩⟩
        rw [hspurious.taken, htaken, List.append_assoc]

/-- What is promised of every state of the run. -/
def IrqSound (on : Bool) (τ : List (BitVec 8)) (m : IrqMachine) : Prop :=
  IrqStopped on τ m ∨ m.halted = false ∧
    ∃ new, m.taken = new ++ τ ∧ ∀ v ∈ new, v = 32#8 ∨ v = 36#8

theorem IrqQuiet.sound {now : Bool} (h : IrqQuiet now itr τ vcpu s m) : IrqSound on τ m :=
  Or.inr ⟨h.halted, [], h.taken, fun _ hv => absurd hv List.not_mem_nil⟩

theorem IrqFollows.sound (h : IrqFollows mask itr τ vcpu m) : IrqSound on τ m := by
  obtain ⟨hrun, since, old, htaken, hlines, -⟩ := h
  exact Or.inr ⟨hrun.halted, since ++ old, by rw [htaken, List.append_assoc], hlines⟩

/-- One step of a program that does nothing on a halted machine. -/
theorem Spec.act_or_stopped {α : Type} {f : IrqMachine → IrqMachine} {next : Driver IrqMachine α}
    {K L : IrqMachine → Prop} {Q : α → IrqMachine → Prop}
    (hstable : Stable IrqMachine.Move fun m => IrqStopped on τ m ∨ K m)
    (hsound : ∀ m, K m → IrqSound on τ m) (hhalted : ∀ m, m.halted = true → f m = m)
    (hf : ∀ m, K m → L (f m))
    (hnext : Spec IrqMachine.Move (IrqSound on τ) (fun m => IrqStopped on τ m ∨ L m) next Q) :
    Spec IrqMachine.Move (IrqSound on τ) (fun m => IrqStopped on τ m ∨ K m) (.act f next) Q := by
  refine Spec.act hstable ?_ ?_ hnext
  · rintro m (h | h)
    · exact Or.inl h
    · exact hsound m h
  · rintro m (h | h)
    · rw [hhalted m h.1]
      exact Or.inl h
    · exact Or.inr (hf m h)

/-- A write to a port of the chips, on their setups. -/
def setupOutb (s : Setup × Setup) (value : BitVec 8) (port : BitVec 16) : Setup × Setup :=
  if port = primaryCommandPort then (s.1.writeCommand value, s.2)
  else if port = secondaryCommandPort then (s.1, s.2.writeCommand value)
  else if port = primaryDataPort then (s.1.writeData value, s.2)
  else if port = secondaryDataPort then (s.1, s.2.writeData value)
  else s

theorem picOutb_setup (p : Pair) (value : BitVec 8) (port : BitVec 16) :
    ((picOutb p value port).primary.setup, (picOutb p value port).secondary.setup)
      = setupOutb (p.primary.setup, p.secondary.setup) value port := by
  unfold picOutb setupOutb
  split_ifs <;> rfl

theorem outb_of_halted (h : m.halted = true) (value : BitVec 8) (port : BitVec 16) :
    PortMachine.outb m value port = m := if_pos h

theorem outb_of_running (h : m.halted = false) (value : BitVec 8) (port : BitVec 16) :
    PortMachine.outb m value port = { m with pics := picOutb m.pics value port } :=
  if_neg (by rw [h]; decide)

/-- A write of `pic_init`. -/
theorem Spec.quiet_outb {value : BitVec 8} {port : BitVec 16} {α : Type}
    {next : Driver IrqMachine α} {Q : α → IrqMachine → Prop}
    (hitr : ∀ v, itr.handlers v = some .unhandled)
    (hnext : Spec IrqMachine.Move (IrqSound on τ)
      (fun m => IrqStopped on τ m ∨ IrqQuiet false itr τ vcpu (setupOutb s value port) m) next Q) :
    Spec IrqMachine.Move (IrqSound on τ)
      (fun m => IrqStopped on τ m ∨ IrqQuiet false itr τ vcpu s m)
      (outb value port >>= fun _ => next) Q := by
  refine Spec.act_or_stopped (quiet_stable hitr nofun) (fun m h => h.sound)
    (fun m h => outb_of_halted h value port) (fun m h => ?_) hnext
  rw [outb_of_running h.halted]
  exact ⟨h.halted, h.intr, h.itr, h.taken, h.vcpu, by rw [picOutb_setup, h.setup]⟩

/-- The ten writes of `pic_init` program the chips, whatever they were set up for. -/
theorem picInit_setup (s : Setup × Setup) :
    setupOutb (setupOutb (setupOutb (setupOutb (setupOutb (setupOutb (setupOutb (setupOutb
      (setupOutb (setupOutb s (ICW1_INIT ||| ICW1_ICW4) primaryCommandPort)
      (ICW1_INIT ||| ICW1_ICW4) secondaryCommandPort)
      (BitVec.ofNat 8 primaryVectorOffset) primaryDataPort)
      (BitVec.ofNat 8 secondaryVectorOffset) secondaryDataPort)
      0b100#8 primaryDataPort) 0b10#8 secondaryDataPort)
      ICW4_8086 primaryDataPort) ICW4_8086 secondaryDataPort)
      0xFF#8 primaryDataPort) 0xFF#8 secondaryDataPort
      = (picSetup 32#8 4#8 0xFF#8, picSetup 40#8 2#8 0xFF#8) := by
  rfl

theorem inb_of_halted (h : m.halted = true) (port : BitVec 16) :
    PortMachine.inb m port = (0xFF#8, m) := if_pos h

theorem inb_of_running (h : m.halted = false) (port : BitVec 16) :
    PortMachine.inb m port = (picInb m.pics port, m) := if_neg (by rw [h]; decide)

theorem setIntr_of_halted (h : m.halted = true) (now : Bool) : PortMachine.setIntr m now = m :=
  if_pos h

theorem setIntr_of_running (h : m.halted = false) (now : Bool) :
    PortMachine.setIntr m now = { m with intr := now } := if_neg (by rw [h]; decide)

/-- `pic_init`, from any setup of the chips. -/
theorem picInit_follows (hitr : ∀ v, itr.handlers v = some .unhandled) :
    Spec IrqMachine.Move (IrqSound on τ) (fun m => IrqStopped on τ m ∨ IrqQuiet on itr τ vcpu s m)
      (picInit : Driver IrqMachine Unit)
      (fun _ m => IrqStopped on τ m ∨ IrqFollows 0xFF#8 itr τ vcpu m) := by
  have hall : ∀ i < 8, (0xFF#8).getLsbD i ≠ false := by decide
  have hhandles : IrqHandles 0xFF#8 itr := ⟨fun i hi _ hmask => absurd hmask (hall i hi), hitr _⟩
  refine Spec.act_or_stopped (L := IrqQuiet false itr τ vcpu s) (quiet_stable hitr id)
    (fun m h => h.sound) (fun m h => setIntr_of_halted h false) (fun m h => ?_) ?_
  · rw [setIntr_of_running h.halted]
    exact ⟨h.halted, rfl, h.itr, h.taken, h.vcpu, h.setup⟩
  refine Spec.quiet_outb hitr <| Spec.quiet_outb hitr <| Spec.quiet_outb hitr <|
    Spec.quiet_outb hitr <| Spec.quiet_outb hitr <| Spec.quiet_outb hitr <|
    Spec.quiet_outb hitr <| Spec.quiet_outb hitr <| Spec.quiet_outb hitr <|
    Spec.quiet_outb hitr ?_
  rw [picInit_setup]
  refine Spec.act_or_stopped (L := IrqFollows 0xFF#8 itr τ vcpu) (quiet_stable hitr nofun)
    (fun m h => h.sound) (fun m h => setIntr_of_halted h true) (fun m h => ?_) ?_
  · rw [setIntr_of_running h.halted]
    obtain ⟨hprimary, hsecondary⟩ := Prod.ext_iff.mp h.setup
    exact ⟨⟨h.halted, rfl, ⟨hprimary, hsecondary⟩, h.itr⟩, [], [], h.taken,
      fun _ hv => absurd hv List.not_mem_nil, h.vcpu⟩
  · exact Spec.ret (follows_stable hhandles fun i hi hmask => absurd hmask (hall i hi))
      (fun m h => h.elim Or.inl IrqFollows.sound) fun m h => h

/-- Behind a step that takes no interrupt, with a subscriber that has not seen any. -/
theorem IrqFollows.next {mask' : BitVec 8} {itr' : Interrupts KernelCallback KernelHandler}
    (h : IrqFollows mask itr τ vcpu m) (hnotify : itr.notify = []) (hrun : IrqRunning mask' itr' m')
    (htaken : m'.taken = m.taken) (hvcpu : m'.vcpu = m.vcpu) : IrqFollows mask' itr' τ vcpu m' := by
  obtain ⟨-, since, old, htaken', hlines, hvcpu'⟩ := h
  have hnoted : ∀ v vcpu, noted itr v vcpu = vcpu := by
    intro v vcpu
    rw [noted, hnotify]
    rfl
  have hfold : since.foldr (noted itr) vcpu = vcpu := by
    clear htaken' hlines hvcpu'
    induction since with
    | nil => rfl
    | cons v since ih => rw [List.foldr_cons, ih, hnoted]
  refine ⟨hrun, [], since ++ old, ?_, hlines, ?_⟩
  · rw [htaken, htaken', List.nil_append, List.append_assoc]
  · rw [hvcpu, hvcpu', hfold]
    rfl

section Steps
variable (irq : IrqLine)

/-- `register_handler`. -/
theorem register_follows (hhandles : IrqHandles mask itr)
    (hmask : ∀ i < 8, mask.getLsbD i = false → i = irqTimer ∨ i = irqSerial1)
    (hnotify : itr.notify = [])
    (hhandles' : IrqHandles mask (itr.registerHandler (BitVec.ofNat 8 (irq + primaryVectorOffset))
      .blobIrq)) :
    Spec IrqMachine.Move (IrqSound on τ) (fun m => IrqStopped on τ m ∨ IrqFollows mask itr τ vcpu m)
      (IrqMachine.register irq) (fun _ m => IrqStopped on τ m ∨ IrqFollows mask
        (itr.registerHandler (BitVec.ofNat 8 (irq + primaryVectorOffset)) .blobIrq) τ vcpu m) := by
  refine Spec.act_or_stopped (follows_stable hhandles hmask) (fun m h => h.sound)
    (fun m h => if_pos h) (fun m h => ?_)
    (Spec.ret (follows_stable hhandles' hmask) (fun m h => h.elim Or.inl IrqFollows.sound)
      fun m h => h)
  have hrun := h.running
  rw [if_neg (by rw [hrun.halted]; decide)]
  exact h.next hnotify ⟨hrun.halted, hrun.intr, hrun.pics, by rw [hrun.itr]⟩ rfl rfl

/-- `unset_mask` of a line of the primary chip. -/
theorem unsetMask_follows (hirq : irq < 8) (hhandles : IrqHandles mask itr)
    (hmask : ∀ i < 8, mask.getLsbD i = false → i = irqTimer ∨ i = irqSerial1)
    (hnotify : itr.notify = []) {mask' : BitVec 8} (hhandles' : IrqHandles mask' itr)
    (hmask' : ∀ i < 8, mask'.getLsbD i = false → i = irqTimer ∨ i = irqSerial1)
    (heq : (mask.setWidth 64 &&& ~~~tobit (delta irq)).setWidth 8 = mask') :
    Spec IrqMachine.Move (IrqSound on τ) (fun m => IrqStopped on τ m ∨ IrqFollows mask itr τ vcpu m)
      (unsetMask irq : Driver IrqMachine Unit)
      (fun _ m => IrqStopped on τ m ∨ IrqFollows mask' itr τ vcpu m) := by
  have hport : dataPort irq = primaryDataPort := by
    rw [dataPort, isPrimary, decide_eq_true hirq]
    rfl
  have hstable : ∀ b, Stable IrqMachine.Move fun m =>
      IrqStopped on τ m ∨ (b = mask ∧ IrqFollows mask itr τ vcpu m) := by
    intro b
    refine stable_or_stopped fun m m' h hmove => ?_
    exact (follows_stable hhandles hmask m m' (Or.inr h.2) hmove).imp_right fun h' => ⟨h.1, h'⟩
  -- between the read and the write the mask stays the same
  refine Spec.ask (R := fun b m => IrqStopped on τ m ∨ (b = mask ∧ IrqFollows mask itr τ vcpu m))
    (follows_stable hhandles hmask) (fun m h => h.elim Or.inl IrqFollows.sound) ?_ fun b => ?_
  · rintro m (h | h)
    · exact Or.inl (by rw [inb_of_halted h.1]; exact h)
    · refine Or.inr ?_
      rw [inb_of_running h.running.halted, hport]
      exact ⟨congrArg Setup.imr h.running.pics.primary, h⟩
  · refine Spec.act_or_stopped (L := IrqFollows mask' itr τ vcpu) (hstable b) (fun m h => h.2.sound)
      (fun m h => outb_of_halted h _ _) ?_ ?_
    · rintro m ⟨rfl, h⟩
      have hrun := h.running
      rw [outb_of_running hrun.halted, hport, heq]
      refine h.next hnotify ⟨hrun.halted, hrun.intr, ⟨?_, hrun.pics.secondary⟩, hrun.itr⟩ rfl rfl
      show m.pics.primary.setup.writeData mask' = _
      rw [hrun.pics.primary]
      rfl
    · exact Spec.ret (follows_stable hhandles' hmask') (fun m h => h.elim Or.inl IrqFollows.sound)
        fun m h => h

end Steps

/-- `subscribe2interrupt` with a free slot. -/
theorem subscribe_follows {self : BitVec 64} (hhandles : IrqHandles mask itr)
    (hmask : ∀ i < 8, mask.getLsbD i = false → i = irqTimer ∨ i = irqSerial1)
    (hnotify : itr.notify = []) {itr' : Interrupts KernelCallback KernelHandler}
    (hsub : itr.subscribe2interrupt self .intrSubscriber = .ok itr')
    (hhandles' : IrqHandles mask itr') :
    Spec IrqMachine.Move (IrqSound on τ) (fun m => IrqStopped on τ m ∨ IrqFollows mask itr τ vcpu m)
      (IrqMachine.subscribe self)
      (fun _ m => IrqStopped on τ m ∨ IrqFollows mask itr' τ vcpu m) := by
  refine Spec.act_or_stopped (follows_stable hhandles hmask) (fun m h => h.sound)
    (fun m h => if_pos h) (fun m h => ?_)
    (Spec.ret (follows_stable hhandles' hmask) (fun m h => h.elim Or.inl IrqFollows.sound)
      fun m h => h)
  have hrun := h.running
  rw [if_neg (by rw [hrun.halted]; decide), hrun.itr, hsub]
  exact h.next hnotify ⟨hrun.halted, hrun.intr, hrun.pics, rfl⟩ rfl rfl

end Program

/-- The tables behind `itr_init`. -/
def itrAtStart : Interrupts KernelCallback KernelHandler := Interrupts.zero.itrInit .unhandled

/-- The tables with the handler of the timer. -/
def itrWithTimer : Interrupts KernelCallback KernelHandler :=
  itrAtStart.registerHandler (BitVec.ofNat 8 (irqTimer + primaryVectorOffset)) .blobIrq

/-- The tables with both handlers. -/
def itrWithSerial : Interrupts KernelCallback KernelHandler :=
  itrWithTimer.registerHandler (BitVec.ofNat 8 (irqSerial1 + primaryVectorOffset)) .blobIrq

/-- The tables with the vCPU as the subscriber. -/
def itrWithVcpu (self : BitVec 64) : Interrupts KernelCallback KernelHandler :=
  { itrWithSerial with
    subscribers := Function.update itrWithSerial.subscribers 0 (some ⟨self, .intrSubscriber⟩) }

theorem handles_itrAtStart : IrqHandles 0xFF#8 itrAtStart := ⟨by decide, rfl⟩

theorem handles_itrWithTimer : IrqHandles 0xFF#8 itrWithTimer ∧ IrqHandles 0xFE#8 itrWithTimer :=
  ⟨⟨by decide, by decide⟩, ⟨by decide, by decide⟩⟩

theorem handles_itrWithSerial : IrqHandles 0xFE#8 itrWithSerial ∧ IrqHandles 0xEE#8 itrWithSerial :=
  ⟨⟨by decide, by decide⟩, ⟨by decide, by decide⟩⟩

theorem handles_itrWithVcpu (self : BitVec 64) : IrqHandles 0xEE#8 (itrWithVcpu self) :=
  ⟨handles_itrWithSerial.2.blobIrq, handles_itrWithSerial.2.unhandled⟩

/-- `setupInterrupts`, from any setup of the chips. -/
theorem setupInterrupts_follows (on : Bool) (τ : List (BitVec 8)) (vcpu : SvmVcpu)
    (s : Setup × Setup) (self : BitVec 64) :
    Spec IrqMachine.Move (IrqSound on τ)
      (fun m => IrqStopped on τ m ∨ IrqQuiet on itrAtStart τ vcpu s m)
      (setupInterrupts self)
      (fun _ m => IrqStopped on τ m ∨ IrqFollows 0xEE#8 (itrWithVcpu self) τ vcpu m) := by
  have hall : ∀ i < 8, (0xFF#8).getLsbD i = false → i = irqTimer ∨ i = irqSerial1 := by decide
  have htimer : ∀ i < 8, (0xFE#8).getLsbD i = false → i = irqTimer ∨ i = irqSerial1 := by decide
  have hboth : ∀ i < 8, (0xEE#8).getLsbD i = false → i = irqTimer ∨ i = irqSerial1 := by decide
  refine Spec.bind (picInit_follows fun _ => rfl) fun _ => ?_
  refine Spec.bind (register_follows irqTimer handles_itrAtStart hall rfl
    handles_itrWithTimer.1) fun _ => ?_
  refine Spec.bind (unsetMask_follows irqTimer (by decide) handles_itrWithTimer.1 hall rfl
    handles_itrWithTimer.2 htimer (by decide)) fun _ => ?_
  refine Spec.bind (register_follows irqSerial1 handles_itrWithTimer.2 htimer rfl
    handles_itrWithSerial.1) fun _ => ?_
  refine Spec.bind (unsetMask_follows irqSerial1 (by decide) handles_itrWithSerial.1 htimer
    rfl handles_itrWithSerial.2 hboth (by decide)) fun _ => ?_
  exact subscribe_follows handles_itrWithSerial.2 hboth rfl rfl (handles_itrWithVcpu self)

/-- Chips in the middle of an initialization, with everything requested. -/
def irqAtStart : IrqMachine where
  pics :=
    { primary := ⟨{ picSetup 8#8 0#8 0#8 with phase := .icw3 }, 0xFB#8⟩
      secondary := ⟨{ picSetup 0x70#8 0#8 0#8 with isr := 1#8 }, 0xFF#8⟩ }
  intr := true
  itr := itrAtStart
  vcpu := svmVcpuNew 1#16
  taken := []
  halted := false

/-- The machine behind the set-up, when nothing else happens. -/
def irqSetUp : IrqMachine :=
  ((setupInterrupts 0x1000#64).run irqAtStart).elim irqAtStart Prod.snd

/-- The moves while the device of line `i` keeps its request up. -/
inductive IrqMachine.HoldMove (i : IrqLine) : IrqMachine → IrqMachine → Prop
  | raise {m : IrqMachine} {line : IrqLine} :
      line < 16 → line ≠ irqSecondary → HoldMove i m { m with pics := m.pics.raise line }
  | lower {m : IrqMachine} {line : IrqLine} :
      line < 16 → line ≠ i → HoldMove i m { m with pics := m.pics.lower line }
  | interrupt {m m' : IrqMachine} {withdrawn : List IrqLine} :
      i ∉ withdrawn → m.interrupt withdrawn = some m' → HoldMove i m m'

section Request
variable {mask : BitVec 8} {itr : Interrupts KernelCallback KernelHandler} {m m' : IrqMachine}
  {i : IrqLine}

theorem getLsbD_or_bit {x : BitVec 8} {i : Nat} (h : x.getLsbD i = true) (j : Nat) :
    (x ||| 1#8 <<< j).getLsbD i = true := by
  rw [BitVec.getLsbD_or, h, Bool.true_or]

theorem getLsbD_and_not_bit {x : BitVec 8} {i j : Nat} (h : x.getLsbD i = true) (hne : i ≠ j) :
    (x &&& ~~~(1#8 <<< j)).getLsbD i = true := by
  have hi : i < 8 := BitVec.lt_of_getLsbD h
  have hbit : (1#8 <<< j).getLsbD i = false := by
    rw [BitVec.getLsbD_shiftLeft]
    have hsub : i < j ∨ i - j ≠ 0 := by omega
    obtain hlt | hsub := hsub
    · simp [hlt]
    · simp [hsub]
  rw [BitVec.getLsbD_and, h, BitVec.getLsbD_not, hbit, decide_eq_true hi]
  rfl

theorem raise_irr {p : Pair} (h : p.primary.irr.getLsbD i = true) (line : Nat) :
    (p.raise line).primary.irr.getLsbD i = true := by
  unfold Pair.raise
  split
  · exact getLsbD_or_bit h line
  · exact h

theorem lower_irr {p : Pair} (h : p.primary.irr.getLsbD i = true) {line : Nat} (hne : i ≠ line) :
    (p.lower line).primary.irr.getLsbD i = true := by
  unfold Pair.lower
  split
  · exact getLsbD_and_not_bit h hne
  · exact h

theorem foldl_lower_irr {p : Pair} (h : p.primary.irr.getLsbD i = true) {lines : List IrqLine}
    (hlines : i ∉ lines) : (lines.foldl Pair.lower p).primary.irr.getLsbD i = true := by
  induction lines generalizing p with
  | nil => exact h
  | cons line lines ih =>
      obtain ⟨hne, hlines⟩ := not_or.mp (List.mem_cons.not.mp hlines)
      exact ih (lower_irr h hne) hlines

/-- A request at an input that is not masked reaches the processor. -/
theorem Programmed.upper_isSome {p : Pair} (h : Programmed mask p) (hi : i ≠ irqSecondary)
    (hmask : mask.getLsbD i = false) (hirr : p.primary.irr.getLsbD i = true) :
    ∃ j ≤ i, p.upper.request = some j := by
  have hupper : p.upper.irr = p.primary.irr &&& ~~~(1#8 <<< Pair.cascadeLine) := by
    rw [Pair.upper, h.secondary_request]
    rfl
  have hsetup : p.upper.setup = picSetup 32#8 4#8 mask := h.primary
  refine Chip.request_isSome ?_ ?_ (BitVec.lt_of_getLsbD hirr) ?_ ?_
  · rw [hsetup]
    rfl
  · rw [hsetup]
    rfl
  · rw [hupper]
    exact getLsbD_and_not_bit hirr hi
  · rw [hsetup]
    exact hmask

/-- An interrupt while line `i` is requested serves it, or a line in front of it. -/
theorem IrqRunning.interrupt_of_requested (h : IrqRunning mask itr m)
    (hhandles : IrqHandles mask itr) (hi : i ≠ irqSecondary) (hmask : mask.getLsbD i = false)
    (hirr : m.pics.primary.irr.getLsbD i = true) {lines : List IrqLine} (hlines : i ∉ lines)
    (hint : m.interrupt lines = some m') :
    ∃ j ≤ i, IrqRunning mask itr m' ∧ IrqServed mask j lines m m' := by
  obtain ⟨j, hle, hreq⟩ :=
    (h.pics.foldl_lower lines).upper_isSome hi hmask (foldl_lower_irr hirr hlines)
  obtain ⟨k, hrun, hserved⟩ | hspurious := h.interrupt hhandles hint
  · obtain rfl := Option.some.inj (hserved.request.symm.trans hreq)
    exact ⟨k, hle, hrun, hserved⟩
  · rw [hspurious.request] at hreq
    cases hreq

/-- The history only grows. -/
theorem interrupt_taken {lines : List IrqLine} (hint : m.interrupt lines = some m') :
    ∃ v, m'.taken = v :: m.taken := by
  have hcall : ∀ v (m : IrqMachine) c, (IrqMachine.call v m c).taken = m.taken := by
    intro v m c
    cases c with
    | callback => rfl
    | handler handler => cases handler <;> rfl
  have hcalls : ∀ v (calls : List (DispatchCall KernelCallback KernelHandler)) (m : IrqMachine),
      (calls.foldl (IrqMachine.call v) m).taken = m.taken := by
    intro v calls
    induction calls with
    | nil => exact fun _ => rfl
    | cons c calls ih => exact fun m => (ih _).trans (hcall v m c)
  rw [IrqMachine.interrupt] at hint
  split at hint
  · cases hint
  generalize (lines.foldl Pair.lower m.pics).acknowledge = ack at hint
  simp only at hint
  split at hint
  · obtain rfl := Option.some.inj hint
    exact ⟨ack.1, hcalls _ _ _⟩
  · obtain rfl := Option.some.inj hint
    exact ⟨ack.1, rfl⟩

theorem IrqMachine.HoldMove.taken (h : IrqMachine.HoldMove i m m') :
    ∃ new, m'.taken = new ++ m.taken := by
  cases h with
  | raise => exact ⟨[], rfl⟩
  | lower => exact ⟨[], rfl⟩
  | interrupt _ hint =>
      obtain ⟨v, hv⟩ := interrupt_taken hint
      exact ⟨[v], hv⟩

/-- One move while line `i` is requested. -/
theorem IrqRunning.holdMove (h : IrqRunning mask itr m) (hhandles : IrqHandles mask itr)
    (hi : i ≠ irqSecondary) (hmask : mask.getLsbD i = false)
    (hirr : m.pics.primary.irr.getLsbD i = true) (hmove : IrqMachine.HoldMove i m m') :
    m'.taken = (32#8 + BitVec.ofNat 8 i) :: m.taken ∨
      IrqRunning mask itr m' ∧ m'.pics.primary.irr.getLsbD i = true := by
  cases hmove with
  | @raise line _ _ =>
      exact Or.inr ⟨⟨h.halted, h.intr, h.pics.raise line, h.itr⟩, raise_irr hirr line⟩
  | @lower line _ hne =>
      exact Or.inr ⟨⟨h.halted, h.intr, h.pics.lower line, h.itr⟩, lower_irr hirr (Ne.symm hne)⟩
  | @interrupt _ lines hlines hint =>
      obtain ⟨j, -, hrun, hserved⟩ :=
        h.interrupt_of_requested hhandles hi hmask hirr hlines hint
      by_cases hj : j = i
      · exact Or.inl (hj ▸ hserved.taken)
      · refine Or.inr ⟨hrun, ?_⟩
        rw [hserved.irr]
        exact getLsbD_and_not_bit (foldl_lower_irr hirr hlines) (Ne.symm hj)

/-- Any number of moves. -/
theorem IrqRunning.holdMoves (h : IrqRunning mask itr m) (hhandles : IrqHandles mask itr)
    (hi : i ≠ irqSecondary) (hmask : mask.getLsbD i = false)
    (hirr : m.pics.primary.irr.getLsbD i = true)
    (hmoves : Relation.ReflTransGen (IrqMachine.HoldMove i) m m') :
    (∃ new, m'.taken = new ++ m.taken ∧ 32#8 + BitVec.ofNat 8 i ∈ new) ∨
      IrqRunning mask itr m' ∧ m'.pics.primary.irr.getLsbD i = true ∧
        ∃ new, m'.taken = new ++ m.taken := by
  induction hmoves with
  | refl => exact Or.inr ⟨h, hirr, [], rfl⟩
  | tail _ hmove ih =>
      obtain ⟨more, hmore⟩ := hmove.taken
      obtain ⟨new, hnew, hmem⟩ | ⟨hrun, hirr', new, hnew⟩ := ih
      · refine Or.inl ⟨more ++ new, ?_, List.mem_append_right _ hmem⟩
        rw [hmore, hnew, List.append_assoc]
      · obtain hhead | hrest := hrun.holdMove hhandles hi hmask hirr' hmove
        · refine Or.inl ⟨(32#8 + BitVec.ofNat 8 i) :: new, ?_, List.mem_cons_self⟩
          rw [hhead, hnew, List.cons_append]
        · refine Or.inr ⟨hrest.1, hrest.2, more ++ new, ?_⟩
          rw [hmore, hnew, List.append_assoc]

/-- The processor can take an interrupt. -/
theorem IrqRunning.exists_interrupt (h : IrqRunning mask itr m) (hhandles : IrqHandles mask itr)
    (hi : i ≠ irqSecondary) (hmask : mask.getLsbD i = false)
    (hirr : m.pics.primary.irr.getLsbD i = true) :
    ∃ m' j, m.interrupt [] = some m' ∧ j ≤ i ∧ IrqRunning mask itr m' ∧
      IrqServed mask j [] m m' := by
  obtain ⟨j, -, hreq⟩ := h.pics.upper_isSome hi hmask hirr
  have hintr : m.pics.intr = true := by
    rw [Pair.intr, hreq]
    rfl
  have hsome : ∃ m', m.interrupt [] = some m' := by
    rw [IrqMachine.interrupt, if_neg (by rw [h.halted, h.intr, hintr]; decide)]
    simp only
    split
    · exact ⟨_, rfl⟩
    · exact ⟨_, rfl⟩
  obtain ⟨m', hint⟩ := hsome
  obtain ⟨j, hle, hrun, hserved⟩ :=
    h.interrupt_of_requested hhandles hi hmask hirr List.not_mem_nil hint
  exact ⟨m', j, hint, hle, hrun, hserved⟩

end Request

/-- Behind the set-up the timer has raised its line. -/
def irqRequested : IrqMachine := { irqSetUp with pics := irqSetUp.pics.raise irqTimer }

end YmirC
