import YmirC.Arch.X86.SvmVcpu

/-!
# `YmirC.Proofs.SvmVcpu.Handlers`: what each exit handler can change

One lemma per handler says what the vCPU is after it returned. A port read writes `RAX` and
nothing else, a port write changes the saved I/O state only, `CPUID` writes the four
registers of its answer, the MSR handlers write `RAX`/`RDX` or VMCB fields outside the
interrupt controls, and `VMMCALL` leaves the vCPU as it is. None of them leaves an interrupt
event in the trace.

`handleExit_cases` puts them together: a returned `handle_exit` either took the `INTR` case,
or the `HLT` case, or left the interrupt state alone.
-/

set_option autoImplicit false

namespace YmirC

/-- No event of the trace concerns an interrupt line. -/
def QuietTrace (trace : List HostEvent) : Prop := trace.flatMap HostEvent.irqEvents = []

theorem quietTrace_nil : QuietTrace [] := rfl

namespace SvmVcpu

/-- The three places an interrupt can be in are the same in both vCPUs. -/
structure SameIrq (v v' : SvmVcpu) : Prop where
  vIrq : v'.vmcb.vIrq = v.vmcb.vIrq
  last : v'.lastInjectedIrq = v.lastInjectedIrq
  pending : v'.pendingIrq = v.pendingIrq

/-- A returned port read wrote `RAX` and had no effect on the host. -/
def ReadsPort (v : SvmVcpu) (r : Run (SvmVcpu × List HostEvent)) : Prop :=
  ∀ v' trace, r = .ok (v', trace) → (∃ x, v' = v.setRax x) ∧ trace = []

theorem readsPort_ok (v : SvmVcpu) (x : BitVec 64) : v.ReadsPort (.ok (v.setRax x, [])) := by
  rintro v' trace h
  cases h
  exact ⟨⟨x, rfl⟩, rfl⟩

/-- A read that ignores its port writes back the `RAX` it found. -/
theorem readsPort_self (v : SvmVcpu) : v.ReadsPort (.ok (v, [])) :=
  readsPort_ok v v.vmcb.rax

theorem readsPort_error (v : SvmVcpu) (e : Halt) : v.ReadsPort (.error e) := by
  rintro v' trace h
  cases h

theorem readsPort_bind (v : SvmVcpu) (r : Run (BitVec 8)) :
    v.ReadsPort (r >>= fun mask => pure (v.setRax (mask.setWidth 64), [])) := by
  cases r with
  | error e => exact readsPort_error v e
  | ok mask => exact readsPort_ok v _

theorem readsPort_ite (v : SvmVcpu) {c : Prop} [Decidable c]
    {a b : Run (SvmVcpu × List HostEvent)} (ha : v.ReadsPort a) (hb : v.ReadsPort b) :
    v.ReadsPort (if c then a else b) := by
  split
  · exact ha
  · exact hb

theorem readsPort_handleSerialIn (host : Host) (v : SvmVcpu) (info : IOIOInterceptInfo) :
    v.ReadsPort (handleSerialIn host v info) := by
  unfold handleSerialIn
  split
  all_goals first
    | exact readsPort_ok v _
    | exact readsPort_error v _

theorem readsPort_handlePitIn (host : Host) (v : SvmVcpu) (info : IOIOInterceptInfo) :
    v.ReadsPort (handlePitIn host v info) := by
  unfold handlePitIn
  repeat' split
  all_goals exact readsPort_ok v _

theorem readsPort_handlePicIn (v : SvmVcpu) (info : IOIOInterceptInfo) :
    v.ReadsPort (handlePicIn v info) := by
  unfold handlePicIn
  repeat' split
  all_goals first
    | exact readsPort_bind v _
    | exact readsPort_error v _

/-- A returned `handle_ioio_in` wrote `RAX` and nothing else. -/
theorem readsPort_handleIoioIn (host : Host) (v : SvmVcpu) (info : IOIOInterceptInfo) :
    v.ReadsPort (handleIoioIn host v info) := by
  -- One line per port range, in the order of the dispatch.
  refine readsPort_ite v (readsPort_handlePicIn v info) ?_
  refine readsPort_ite v (readsPort_handlePitIn host v info) ?_
  refine readsPort_ite v (readsPort_ok v 0) ?_
  refine readsPort_ite v (readsPort_ok v 0) ?_
  refine readsPort_ite v (readsPort_self v) ?_
  refine readsPort_ite v (readsPort_handlePicIn v info) ?_
  refine readsPort_ite v (readsPort_self v) ?_
  refine readsPort_ite v (readsPort_self v) ?_
  refine readsPort_ite v (readsPort_ok v 0) ?_
  refine readsPort_ite v (readsPort_self v) ?_
  refine readsPort_ite v (readsPort_handleSerialIn host v info) ?_
  refine readsPort_ite v (readsPort_self v) ?_
  exact readsPort_ite v (readsPort_ok v 0) (readsPort_error v _)

/-- A returned port write changed the saved I/O state only, and left no interrupt event. -/
def WritesPort (v : SvmVcpu) (r : Run (SvmVcpu × List HostEvent)) : Prop :=
  ∀ v' trace, r = .ok (v', trace) →
    (∃ g, v' = { v with guestIoioState := g }) ∧ QuietTrace trace

theorem writesPort_ok (v : SvmVcpu) (g : SvmIoioGuestState) {trace : List HostEvent}
    (ht : QuietTrace trace) : v.WritesPort (.ok ({ v with guestIoioState := g }, trace)) := by
  rintro v' trace' h
  cases h
  exact ⟨⟨g, rfl⟩, ht⟩

theorem writesPort_self (v : SvmVcpu) {trace : List HostEvent} (ht : QuietTrace trace) :
    v.WritesPort (.ok (v, trace)) :=
  writesPort_ok v v.guestIoioState ht

theorem writesPort_error (v : SvmVcpu) (e : Halt) : v.WritesPort (.error e) := by
  rintro v' trace h
  cases h

theorem writesPort_ite (v : SvmVcpu) {c : Prop} [Decidable c]
    {a b : Run (SvmVcpu × List HostEvent)} (ha : v.WritesPort a) (hb : v.WritesPort b) :
    v.WritesPort (if c then a else b) := by
  split
  · exact ha
  · exact hb

theorem writesPort_handleSerialOut (v : SvmVcpu) (info : IOIOInterceptInfo) :
    v.WritesPort (handleSerialOut v info) := by
  unfold handleSerialOut
  split
  all_goals first
    | exact writesPort_self v rfl
    | exact writesPort_ok v _ rfl
    | exact writesPort_error v _

theorem writesPort_handlePitOut (v : SvmVcpu) (info : IOIOInterceptInfo) :
    v.WritesPort (handlePitOut v info) := by
  unfold handlePitOut
  repeat' split
  all_goals exact writesPort_self v rfl

/-- A data write logs at most the vector offset, which is no interrupt event. -/
theorem picDataOut_quiet {offset invalid : String} {icw3 dx : BitVec 8} {r r' : PicRegs}
    {trace : List HostEvent} (h : picDataOut offset invalid icw3 dx r = .ok (r', trace)) :
    QuietTrace trace := by
  unfold picDataOut at h
  split at h
  case h_4 =>
    split at h
    · cases h
    · cases h
      exact quietTrace_nil
  all_goals
    cases h
    rfl

theorem writesPort_handlePicOut (v : SvmVcpu) (info : IOIOInterceptInfo) :
    v.WritesPort (handlePicOut v info) := by
  rintro v' trace h
  unfold handlePicOut at h
  dsimp only at h
  split at h
  · cases h
  · -- One case per port. Only a data byte leaves something in the trace: an ICW2 is logged.
    split at h
    · obtain ⟨r, -, hr⟩ := Run.bind_eq_ok.mp h
      cases hr
      exact ⟨⟨_, rfl⟩, quietTrace_nil⟩
    · obtain ⟨⟨r, t⟩, hd, hr⟩ := Run.bind_eq_ok.mp h
      cases hr
      exact ⟨⟨_, rfl⟩, picDataOut_quiet hd⟩
    · obtain ⟨r, -, hr⟩ := Run.bind_eq_ok.mp h
      cases hr
      exact ⟨⟨_, rfl⟩, quietTrace_nil⟩
    · obtain ⟨⟨r, t⟩, hd, hr⟩ := Run.bind_eq_ok.mp h
      cases hr
      exact ⟨⟨_, rfl⟩, picDataOut_quiet hd⟩
    · cases h

/-- A returned `handle_ioio_out` changed the saved I/O state only. -/
theorem writesPort_handleIoioOut (v : SvmVcpu) (info : IOIOInterceptInfo) :
    v.WritesPort (handleIoioOut v info) := by
  have hignore : v.WritesPort (.ok (v, [])) := writesPort_self v quietTrace_nil
  refine writesPort_ite v (writesPort_handlePicOut v info) ?_
  refine writesPort_ite v (writesPort_handlePitOut v info) ?_
  refine writesPort_ite v hignore ?_
  refine writesPort_ite v hignore ?_
  refine writesPort_ite v hignore ?_
  refine writesPort_ite v (writesPort_handlePicOut v info) ?_
  refine writesPort_ite v hignore ?_
  refine writesPort_ite v hignore ?_
  refine writesPort_ite v hignore ?_
  refine writesPort_ite v hignore ?_
  refine writesPort_ite v (writesPort_handleSerialOut v info) ?_
  refine writesPort_ite v hignore ?_
  exact writesPort_ite v hignore (writesPort_error v _)

/-- A returned CPUID handler wrote the four registers of its answer. -/
theorem handleSvmCpuidExit_ok {host : Host} {v v' : SvmVcpu} {trace : List HostEvent}
    (h : handleSvmCpuidExit host v = .ok (v', trace)) :
    (∃ eax ebx ecx edx, v' = v.setCpuid eax ebx ecx edx) ∧ QuietTrace trace := by
  unfold handleSvmCpuidExit at h
  repeat' split at h
  all_goals first
    | (cases h; exact ⟨⟨_, _, _, _, rfl⟩, rfl⟩)
    | cases h

/-- A returned RDMSR handler wrote the value it read. -/
theorem handleRdmsr_ok {v v' : SvmVcpu} {trace : List HostEvent}
    (h : handleRdmsr v = .ok (v', trace)) :
    (∃ val, v' = v.setRetVal val) ∧ QuietTrace trace := by
  unfold handleRdmsr at h
  split at h
  all_goals first
    | (cases h; exact ⟨⟨_, rfl⟩, rfl⟩)
    | cases h

/-- A returned WRMSR handler changed the VMCB outside the interrupt controls. -/
theorem handleWrmsr_ok {v v' : SvmVcpu} {trace : List HostEvent}
    (h : handleWrmsr v = .ok (v', trace)) :
    (∃ vmcb : Vmcb, v' = { v with vmcb := vmcb } ∧ vmcb.vIrq = v.vmcb.vIrq) ∧
      QuietTrace trace := by
  unfold handleWrmsr at h
  dsimp only at h
  split at h
  all_goals first
    | (cases h; exact ⟨⟨_, rfl, rfl⟩, rfl⟩)
    | cases h

/-- A returned VMMCALL handler left the vCPU as it was. -/
theorem handleSvmVmmcallExit_ok {v v' : SvmVcpu} {trace : List HostEvent}
    (h : handleSvmVmmcallExit v = .ok (v', trace)) : v' = v ∧ QuietTrace trace := by
  unfold handleSvmVmmcallExit at h
  split at h <;> (cases h; exact ⟨rfl, rfl⟩)

/-! ### The interrupt state -/

theorem SameIrq.refl (v : SvmVcpu) : SameIrq v v := ⟨rfl, rfl, rfl⟩

theorem sameIrq_handleSvmIoioExit {host : Host} {v v' : SvmVcpu} {trace : List HostEvent}
    (h : handleSvmIoioExit host v = .ok (v', trace)) : SameIrq v v' ∧ QuietTrace trace := by
  unfold handleSvmIoioExit at h
  dsimp only at h
  split at h
  · obtain ⟨⟨x, rfl⟩, rfl⟩ := readsPort_handleIoioIn host v _ v' trace h
    exact ⟨⟨rfl, rfl, rfl⟩, quietTrace_nil⟩
  · obtain ⟨⟨g, rfl⟩, ht⟩ := writesPort_handleIoioOut v _ v' trace h
    exact ⟨⟨rfl, rfl, rfl⟩, ht⟩

theorem sameIrq_handleSvmCpuidExit {host : Host} {v v' : SvmVcpu} {trace : List HostEvent}
    (h : handleSvmCpuidExit host v = .ok (v', trace)) : SameIrq v v' ∧ QuietTrace trace := by
  obtain ⟨⟨_, _, _, _, rfl⟩, ht⟩ := handleSvmCpuidExit_ok h
  exact ⟨⟨rfl, rfl, rfl⟩, ht⟩

theorem sameIrq_handleSvmMsrExit {v v' : SvmVcpu} {trace : List HostEvent}
    (h : handleSvmMsrExit v = .ok (v', trace)) : SameIrq v v' ∧ QuietTrace trace := by
  unfold handleSvmMsrExit at h
  split at h
  · obtain ⟨⟨_, rfl⟩, ht⟩ := handleRdmsr_ok h
    exact ⟨⟨rfl, rfl, rfl⟩, ht⟩
  · split at h
    · obtain ⟨⟨_, rfl, hv⟩, ht⟩ := handleWrmsr_ok h
      exact ⟨⟨hv, rfl, rfl⟩, ht⟩
    · cases h

/-- The vCPU after `handle_exit` reset `tlb_control`. -/
def resetTlb (v : SvmVcpu) : SvmVcpu := { v with vmcb := { v.vmcb with tlbControl := 0 } }

/-- The vCPU at the end of the `HLT` case. -/
def clearShadow (v : SvmVcpu) : SvmVcpu :=
  { v with vmcb := { v.vmcb with interruptShadow := false } }

/-- The `switch` of a returned `handle_exit`, exit code by exit code. -/
theorem handleExit_ok {host : Host} {windows : List (List Nat)} {v v' : SvmVcpu}
    {trace : List HostEvent} (h : v.handleExit host windows = .ok (v', trace)) :
    (v.vmcb.exitcode = SVM_EXIT_CODE_INTR ∧
      (v', trace) = v.resetTlb.handleIntr (windows.headD [])) ∨
    (v.vmcb.exitcode = SVM_EXIT_CODE_CPUID ∧
      ∃ u, handleSvmCpuidExit host v.resetTlb = .ok (u, trace) ∧ v' = u.stepNextInst) ∨
    (v.vmcb.exitcode = SVM_EXIT_CODE_HLT ∧
      ∃ u, hltLoop windows v.resetTlb = .ok (u, trace) ∧ v' = u.stepNextInst.clearShadow) ∨
    (v.vmcb.exitcode = SVM_EXIT_CODE_IOIO ∧
      ∃ u, handleSvmIoioExit host v.resetTlb = .ok (u, trace) ∧ v' = u.stepNextInst) ∨
    (v.vmcb.exitcode = SVM_EXIT_CODE_MSR ∧
      ∃ u, handleSvmMsrExit v.resetTlb = .ok (u, trace) ∧ v' = u.stepNextInst) ∨
    (v.vmcb.exitcode = SVM_EXIT_CODE_VMMCALL ∧
      ∃ u, handleSvmVmmcallExit v.resetTlb = .ok (u, trace) ∧ v' = u.stepNextInst) := by
  -- Every case but the first runs its handler and then moves `RIP`.
  have hstep : ∀ {r : Run (SvmVcpu × List HostEvent)} {f : SvmVcpu → SvmVcpu},
      (r >>= fun p => pure (f p.1, p.2)) = .ok (v', trace) →
        ∃ u, r = .ok (u, trace) ∧ v' = f u := by
    intro r f hr
    obtain ⟨⟨u, t⟩, hu, hret⟩ := Run.bind_eq_ok.mp hr
    cases hret
    exact ⟨u, hu, rfl⟩
  unfold handleExit at h
  dsimp only at h
  split at h
  · exact .inl ⟨‹_›, (Except.ok.inj h).symm⟩
  · split at h
    · exact .inr (.inl ⟨‹_›, hstep h⟩)
    · split at h
      · exact .inr (.inr (.inl ⟨‹_›, hstep h⟩))
      · split at h
        · exact .inr (.inr (.inr (.inl ⟨‹_›, hstep h⟩)))
        · split at h
          · exact .inr (.inr (.inr (.inr (.inl ⟨‹_›, hstep h⟩))))
          · split at h
            · exact .inr (.inr (.inr (.inr (.inr ⟨‹_›, hstep h⟩))))
            · cases h

/-- A returned `handle_exit` took the `INTR` case, or the `HLT` case, or a case that leaves
the interrupt state alone. -/
theorem handleExit_cases {host : Host} {windows : List (List Nat)} {v v' : SvmVcpu}
    {trace : List HostEvent} (h : v.handleExit host windows = .ok (v', trace)) :
    (v.vmcb.exitcode = SVM_EXIT_CODE_INTR ∧
      (v', trace) = v.resetTlb.handleIntr (windows.headD [])) ∨
    (v.vmcb.exitcode = SVM_EXIT_CODE_HLT ∧
      ∃ u, hltLoop windows v.resetTlb = .ok (u, trace) ∧ SameIrq u v') ∨
    (v.vmcb.exitcode ≠ SVM_EXIT_CODE_INTR ∧ v.vmcb.exitcode ≠ SVM_EXIT_CODE_HLT ∧
      SameIrq v v' ∧ QuietTrace trace) := by
  rcases handleExit_ok h with ⟨hcode, hv⟩ | ⟨hcode, u, hu, rfl⟩ | ⟨hcode, u, hu, rfl⟩ |
    ⟨hcode, u, hu, rfl⟩ | ⟨hcode, u, hu, rfl⟩ | ⟨hcode, u, hu, rfl⟩
  · exact .inl ⟨hcode, hv⟩
  · obtain ⟨⟨h1, h2, h3⟩, ht⟩ := sameIrq_handleSvmCpuidExit hu
    rw [hcode]
    exact .inr (.inr ⟨by decide, by decide, ⟨h1, h2, h3⟩, ht⟩)
  · exact .inr (.inl ⟨hcode, u, hu, ⟨rfl, rfl, rfl⟩⟩)
  · obtain ⟨⟨h1, h2, h3⟩, ht⟩ := sameIrq_handleSvmIoioExit hu
    rw [hcode]
    exact .inr (.inr ⟨by decide, by decide, ⟨h1, h2, h3⟩, ht⟩)
  · obtain ⟨⟨h1, h2, h3⟩, ht⟩ := sameIrq_handleSvmMsrExit hu
    rw [hcode]
    exact .inr (.inr ⟨by decide, by decide, ⟨h1, h2, h3⟩, ht⟩)
  · obtain ⟨rfl, ht⟩ := handleSvmVmmcallExit_ok hu
    rw [hcode]
    exact .inr (.inr ⟨by decide, by decide, ⟨rfl, rfl, rfl⟩, ht⟩)

end SvmVcpu

end YmirC
