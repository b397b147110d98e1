import YmirC.Proofs.SvmVcpu.Frame

/-!
# `YmirC.Proofs.SvmVcpu.Operands`: the width of the emulated instructions' operands

`IN`, `CPUID`, `RDMSR` and `WRMSR` have operands of at most 32 bits, and the handlers work on 64-bit
registers. Two things can go wrong with the other bits, and both do.

An `IN` writes all of `RAX`. `inAnswer` is the value each port answers with, in the order of the
dispatch, and `handleIoioIn_answer` says that this is what `RAX` is afterwards. So the bits above
the operand are kept exactly when there are none (`readsAsIn_iff`).

The dispatch of the others reads all of `RAX` and `RCX`. Two guests that differ in the upper halves
only are told apart exactly when one of them is taken for a leaf or an MSR the hypervisor knows and
the other is not (`operands_agree_iff`). The upper halves do not come into it otherwise: every
answer is made of the low halves.
-/

set_option autoImplicit false

namespace YmirC

namespace SvmVcpu

/-! ### `IN` -/

/-- What `RAX` is to be after an `IN`: the bits above an operand of 8 or 16 bits are kept, those
above one of 32 bits are cleared, and a string form does not write `RAX`. -/
def RaxAsIn (info : IOIOInterceptInfo) (rax rax' : BitVec 64) : Prop :=
  if info.str then rax' = rax
  else (info.sz8 = true → rax' >>> 8 = rax >>> 8) ∧ (info.sz16 = true → rax' >>> 16 = rax >>> 16) ∧
    (info.sz32 = true → rax' >>> 32 = 0#64)

/-- The value a port of the serial port answers with. -/
def serialAnswer (host : Host) (v : SvmVcpu) (port : BitVec 16) : BitVec 64 :=
  match port with
  | 0x3F9 => v.guestIoioState.ier.setWidth 64
  | 0x3FB => 0
  | 0x3FC => v.guestIoioState.mcr.setWidth 64
  | 0x3FF => 0
  | _ => (host.inb port).setWidth 64

/-- The value a port answers with, `none` when the handler leaves `RAX` alone: the ports it ignores,
and the PIT without a size. -/
def inAnswer (host : Host) (v : SvmVcpu) (info : IOIOInterceptInfo) : Option (BitVec 64) :=
  if portIn 0x0020 0x0021 info.port then some (v.guestIoioState.primaryMask.setWidth 64)
  else if portIn 0x0040 0x0047 info.port then
    if info.sz8 then some ((host.inb info.port).setWidth 64)
    else if info.sz16 then some ((host.inw info.port).setWidth 64)
    else if info.sz32 then some ((host.inl info.port).setWidth 64)
    else none
  else if portIn 0x0060 0x0064 info.port then some 0
  else if portIn 0x0070 0x0071 info.port then some 0
  else if portIn 0x0080 0x008F info.port then none
  else if portIn 0x00A0 0x00A1 info.port then some (v.guestIoioState.secondaryMask.setWidth 64)
  else if portIn 0x02E8 0x02EF info.port then none
  else if portIn 0x02F8 0x02FF info.port then none
  else if portIn 0x03B0 0x03DF info.port then some 0
  else if portIn 0x03E8 0x03EF info.port then none
  else if portIn 0x03F8 0x03FF info.port then some (serialAnswer host v info.port)
  else if portIn 0xC000 0xCFFF info.port then none
  else some 0

/-- The value fits into the operand. -/
structure FitsOperand (info : IOIOInterceptInfo) (x : BitVec 64) : Prop where
  byte : info.sz8 = true → x >>> 8 = 0#64
  word : info.sz16 = true → x >>> 16 = 0#64
  dword : x >>> 32 = 0#64

/-- A read that returned left the answer in `RAX`, and the answer fits into the operand. -/
structure Answers (v : SvmVcpu) (info : IOIOInterceptInfo) (r : Run (SvmVcpu × List HostEvent))
    (answer : Option (BitVec 64)) : Prop where
  rax : ∀ v' trace, r = .ok (v', trace) → v'.vmcb.rax = answer.getD v.vmcb.rax
  fits : ∀ x, answer = some x → FitsOperand info x

variable {host : Host} {v v' : SvmVcpu} {info : IOIOInterceptInfo} {trace : List HostEvent}

/-- A value of at most `n` bits has none from bit `n` on. -/
theorem setWidth_shiftRight_eq_zero {w n : Nat} (b : BitVec w) (hn : w ≤ n) :
    (b.setWidth 64) >>> n = 0#64 := by
  apply BitVec.eq_of_getLsbD_eq
  intro i _
  rw [BitVec.getLsbD_ushiftRight, BitVec.getLsbD_setWidth, BitVec.getLsbD_of_ge b _ (by omega)]
  simp

theorem fitsOperand_byte (info : IOIOInterceptInfo) (b : BitVec 8) :
    FitsOperand info (b.setWidth 64) :=
  ⟨fun _ => setWidth_shiftRight_eq_zero b (by decide),
    fun _ => setWidth_shiftRight_eq_zero b (by decide), setWidth_shiftRight_eq_zero b (by decide)⟩

theorem fitsOperand_zero (info : IOIOInterceptInfo) : FitsOperand info 0 :=
  fitsOperand_byte info 0

theorem answers_ok (v : SvmVcpu) {x : BitVec 64} (hx : FitsOperand info x) :
    v.Answers info (.ok (v.setRax x, [])) (some x) where
  rax := by
    rintro v' trace h
    cases h
    rfl
  fits y hy := Option.some.inj hy ▸ hx

theorem answers_none (v : SvmVcpu) : v.Answers info (.ok (v, [])) none where
  rax := by
    rintro v' trace h
    cases h
    rfl
  fits _ h := by cases h

theorem answers_error (v : SvmVcpu) (e : Halt) {x : BitVec 64} (hx : FitsOperand info x) :
    v.Answers info (.error e) (some x) where
  rax := by
    rintro v' trace h
    cases h
  fits y hy := Option.some.inj hy ▸ hx

/-- The handler and the table make the same test. -/
theorem answers_ite {c : Prop} [Decidable c] {a b : Run (SvmVcpu × List HostEvent)}
    {x y : Option (BitVec 64)} (ha : c → v.Answers info a x) (hb : v.Answers info b y) :
    v.Answers info (if c then a else b) (if c then x else y) := by
  split
  · rename_i hc
    exact ha hc
  · exact hb

theorem fitsOperand_serialAnswer (host : Host) (v : SvmVcpu) (info : IOIOInterceptInfo) :
    FitsOperand info (serialAnswer host v info.port) := by
  unfold serialAnswer
  split
  all_goals first
    | exact fitsOperand_byte info _
    | exact fitsOperand_zero info

theorem answers_handleSerialIn (host : Host) (v : SvmVcpu) (info : IOIOInterceptInfo) :
    v.Answers info (handleSerialIn host v info) (some (serialAnswer host v info.port)) := by
  have hfits := fitsOperand_serialAnswer host v info
  unfold handleSerialIn
  split
  case h_9 => exact answers_error v _ hfits
  all_goals
    rename_i hport
    rw [hport] at hfits ⊢
    exact answers_ok v hfits

theorem answers_handlePitIn (host : Host) (v : SvmVcpu) (info : IOIOInterceptInfo) :
    v.Answers info (handlePitIn host v info)
      (if info.sz8 then some ((host.inb info.port).setWidth 64)
        else if info.sz16 then some ((host.inw info.port).setWidth 64)
        else if info.sz32 then some ((host.inl info.port).setWidth 64)
        else none) := by
  unfold handlePitIn
  -- A word is read when the operand is no byte, a double word when it is no word either.
  split
  · exact answers_ok v (fitsOperand_byte info _)
  · rename_i hbyte
    split
    · refine answers_ok v ⟨fun h => absurd h hbyte, fun _ => ?_, ?_⟩
      · exact setWidth_shiftRight_eq_zero _ (by decide)
      · exact setWidth_shiftRight_eq_zero _ (by decide)
    · rename_i hword
      split
      · exact answers_ok v ⟨fun h => absurd h hbyte, fun h => absurd h hword,
          setWidth_shiftRight_eq_zero _ (by decide)⟩
      · exact answers_none v

/-- A PIC answers with its mask, at its data port and outside its initialization. -/
theorem answers_picDataIn (v : SvmVcpu) (unsupported : String) (r : PicRegs) :
    v.Answers info (picDataIn unsupported r >>= fun mask => pure (v.setRax (mask.setWidth 64), []))
      (some (r.mask.setWidth 64)) := by
  unfold picDataIn
  split
  · exact answers_ok v (fitsOperand_byte info _)
  · exact answers_ok v (fitsOperand_byte info _)
  · exact answers_error v _ (fitsOperand_byte info _)

theorem answers_handlePicIn (v : SvmVcpu) {mask : BitVec 8}
    (hprimary : info.port = 0x21 → mask = v.guestIoioState.primaryMask)
    (hsecondary : info.port = 0xA1 → mask = v.guestIoioState.secondaryMask) :
    v.Answers info (handlePicIn v info) (some (mask.setWidth 64)) := by
  unfold handlePicIn
  split
  · exact answers_error v _ (fitsOperand_byte info _)
  · split
    · rename_i hport
      rw [hprimary hport]
      exact answers_picDataIn v _ v.guestIoioState.primary
    · rename_i hport
      rw [hsecondary hport]
      exact answers_picDataIn v _ v.guestIoioState.secondary
    · exact answers_error v _ (fitsOperand_byte info _)

/-- A port is in one range only. -/
theorem portIn_ne {lo hi port p : BitVec 16} (h : portIn lo hi port = true)
    (hp : portIn lo hi p = false) : port ≠ p := by
  intro heq
  rw [heq, hp] at h
  cases h

/-- `handle_ioio_in` leaves in `RAX` what the port answers. -/
theorem answers_handleIoioIn (host : Host) (v : SvmVcpu) (info : IOIOInterceptInfo) :
    v.Answers info (handleIoioIn host v info) (inAnswer host v info) := by
  have hzero : v.Answers info (.ok (v.setRax 0, [])) (some 0) :=
    answers_ok v (fitsOperand_zero info)
  -- One line per port range, in the order of the dispatch.
  refine answers_ite (fun h => answers_handlePicIn v (fun _ => rfl)
    (fun hp => absurd hp (portIn_ne h (by decide)))) ?_
  refine answers_ite (fun _ => answers_handlePitIn host v info) ?_
  refine answers_ite (fun _ => hzero) ?_
  refine answers_ite (fun _ => hzero) ?_
  refine answers_ite (fun _ => answers_none v) ?_
  refine answers_ite (fun h => answers_handlePicIn v
    (fun hp => absurd hp (portIn_ne h (by decide))) (fun _ => rfl)) ?_
  refine answers_ite (fun _ => answers_none v) ?_
  refine answers_ite (fun _ => answers_none v) ?_
  refine answers_ite (fun _ => hzero) ?_
  refine answers_ite (fun _ => answers_none v) ?_
  refine answers_ite (fun _ => answers_handleSerialIn host v info) ?_
  refine answers_ite (fun _ => answers_none v) ?_
  split
  · exact hzero
  · exact answers_error v _ (fitsOperand_zero info)

/-- The operand of the `IN` a vCPU exited for. -/
def ioioInfo (v : SvmVcpu) : IOIOInterceptInfo :=
  IOIOInterceptInfo.ofValue (v.vmcb.exitinfo1.setWidth 32)

/-- Writing the answer over all of `RAX` does no harm: there is nothing above the operand, or, when
the port leaves `RAX` alone, nothing to clear; a string form finds its answer in `RAX` already. -/
def NothingAbove (host : Host) (v : SvmVcpu) : Prop :=
  match inAnswer host v v.ioioInfo with
  | none => v.ioioInfo.str = true ∨ v.ioioInfo.sz32 = false ∨ v.vmcb.rax >>> 32 = 0#64
  | some x =>
      if v.ioioInfo.str then v.vmcb.rax = x
      else (v.ioioInfo.sz8 = true → v.vmcb.rax >>> 8 = 0#64) ∧
        (v.ioioInfo.sz16 = true → v.vmcb.rax >>> 16 = 0#64)

/-- **When a port read updates `RAX` as the `IN` instruction does.** For every vCPU and every `IN`
the handler returns from. -/
theorem readsAsIn_iff (hin : v.ioioInfo.type = true)
    (hrun : handleSvmIoioExit host v = .ok (v', trace)) :
    RaxAsIn v.ioioInfo v.vmcb.rax v'.vmcb.rax ↔ NothingAbove host v := by
  have hioio : handleIoioIn host v v.ioioInfo = .ok (v', trace) := by
    rw [← hrun]
    exact (if_pos hin).symm
  obtain ⟨hrax, hfits⟩ := answers_handleIoioIn host v v.ioioInfo
  rw [hrax v' trace hioio]
  unfold RaxAsIn NothingAbove
  cases hans : inAnswer host v v.ioioInfo with
  | none =>
      show (if v.ioioInfo.str = true then v.vmcb.rax = v.vmcb.rax else _) ↔ _
      by_cases hstr : v.ioioInfo.str = true
      · simp [hstr]
      · cases hdword : v.ioioInfo.sz32 <;> simp [hstr]
  | some x =>
      obtain ⟨hbyte, hword, hdword⟩ := hfits x hans
      show (if v.ioioInfo.str = true then x = v.vmcb.rax else _) ↔ _
      by_cases hstr : v.ioioInfo.str = true
      · rw [if_pos hstr]
        simp only [hstr, if_true]
        exact eq_comm
      · rw [if_neg hstr]
        simp only [hstr, Bool.false_eq_true, if_false]
        constructor
        · rintro ⟨h8, h16, -⟩
          exact ⟨fun h => (h8 h).symm.trans (hbyte h), fun h => (h16 h).symm.trans (hword h)⟩
        · rintro ⟨h8, h16⟩
          exact ⟨fun h => (hbyte h).trans (h8 h).symm, fun h => (hword h).trans (h16 h).symm,
            fun _ => hdword⟩

/-- A guest that reads the line status of the serial port with `IN AL, DX`, and what is in `RAX`
before. -/
def lineStatusVcpu (rax : BitVec 64) : SvmVcpu :=
  { svmVcpuNew 1 with
    vmcb := { exitcode := SVM_EXIT_CODE_IOIO, exitinfo1 := 0x03FD0011, rax := rax } }

theorem readsAsIn_lineStatus :
    ∃ v', handleSvmIoioExit quietHost (lineStatusVcpu 0xFF) = .ok (v', []) ∧
    RaxAsIn (lineStatusVcpu 0xFF).ioioInfo 0xFF v'.vmcb.rax := by
  obtain ⟨v', hrun⟩ : ∃ v', handleSvmIoioExit quietHost (lineStatusVcpu 0xFF) = .ok (v', []) :=
    ⟨_, rfl⟩
  refine ⟨v', hrun, (readsAsIn_iff rfl hrun).mpr ?_⟩
  show (true = true → _) ∧ (false = true → _)
  exact ⟨fun _ => by decide, fun h => by cases h⟩

/-- The byte read takes the place of all of `RAX`. -/
theorem not_readsAsIn : ∃ v', handleSvmIoioExit quietHost (lineStatusVcpu 0x1234FF) = .ok (v', []) ∧
    v'.vmcb.rax = 0 ∧ ¬ RaxAsIn (lineStatusVcpu 0x1234FF).ioioInfo 0x1234FF v'.vmcb.rax := by
  refine ⟨_, rfl, rfl, ?_⟩
  intro h
  have hbyte := h.1 rfl
  revert hbyte
  decide

/-! ### `CPUID`, `RDMSR` and `WRMSR` -/

/-- The low half of a register. -/
def low (r : BitVec 64) : BitVec 32 := r.setWidth 32

/-- The two vCPUs differ in the upper halves of `RAX`, `RCX` and `RDX` only. -/
structure AgreeLow (v₁ v₂ : SvmVcpu) : Prop where
  rest : v₂ = { v₁ with
    vmcb := { v₁.vmcb with rax := v₂.vmcb.rax }
    guestRegs := { v₁.guestRegs with rcx := v₂.guestRegs.rcx, rdx := v₂.guestRegs.rdx } }
  rax : low v₁.vmcb.rax = low v₂.vmcb.rax
  rcx : low v₁.guestRegs.rcx = low v₂.guestRegs.rcx
  rdx : low v₁.guestRegs.rdx = low v₂.guestRegs.rdx

/-- What an exit did is the same in the low halves of the four registers and in the VMCB but for
`RAX`. -/
structure SameResult (u₁ u₂ : SvmVcpu) : Prop where
  rax : low u₁.vmcb.rax = low u₂.vmcb.rax
  rbx : low u₁.guestRegs.rbx = low u₂.guestRegs.rbx
  rcx : low u₁.guestRegs.rcx = low u₂.guestRegs.rcx
  rdx : low u₁.guestRegs.rdx = low u₂.guestRegs.rdx
  vmcb : { u₁.vmcb with rax := 0 } = { u₂.vmcb with rax := 0 }

/-- Both exits aborted, or both returned with the same result. -/
def SameOutcome : Run (SvmVcpu × List HostEvent) → Run (SvmVcpu × List HostEvent) → Prop
  | .ok (u₁, _), .ok (u₂, _) => SameResult u₁ u₂
  | .error _, .error _ => True
  | _, _ => False

/-- All 64 bits of `RAX` and `RCX` name a leaf with something to answer. -/
def AnswersLeaf (v : SvmVcpu) : Prop :=
  v.vmcb.rax ∈ [0x0, 0x1, 0x80000000, 0x80000001] ∨ v.vmcb.rax = 0x7 ∧ v.guestRegs.rcx = 0

/-- All 64 bits of `RAX` name a leaf and those of `RCX` a subleaf it does not have. -/
def AbortsLeaf (v : SvmVcpu) : Prop :=
  v.vmcb.rax = 0x7 ∧ v.guestRegs.rcx ∉ [0, 1, 2] ∨ v.vmcb.rax = 0xd ∧ v.guestRegs.rcx ≠ 1

/-- The MSRs `handle_rdmsr` knows. -/
def rdmsrs : List (BitVec 64) := [0x1B, 0xC0000080]

/-- The MSRs `handle_wrmsr` knows. -/
def wrmsrs : List (BitVec 64) :=
  [0x174, 0x175, 0x176, 0xC0000080, 0xC0000081, 0xC0000082, 0xC0000083, 0xC0000084, 0xC0000100,
    0xC0000101, 0xC0000102, 0xC0000103]

/-- The leaf is one with an answer for both or for neither, and aborts for both or for neither. -/
def SameLeaf (v₁ v₂ : SvmVcpu) : Prop :=
  (AnswersLeaf v₁ ↔ AnswersLeaf v₂) ∧ (AbortsLeaf v₁ ↔ AbortsLeaf v₂)

/-- All 64 bits of `RCX` are an MSR the handler knows, for both or for neither. -/
def SameMsr (v₁ v₂ : SvmVcpu) : Prop :=
  (v₁.vmcb.exitinfo1 = 0 → (v₁.guestRegs.rcx ∈ rdmsrs ↔ v₂.guestRegs.rcx ∈ rdmsrs)) ∧
    (v₁.vmcb.exitinfo1 = 1 → (v₁.guestRegs.rcx ∈ wrmsrs ↔ v₂.guestRegs.rcx ∈ wrmsrs))

@[simp] theorem low_setvalue (r : BitVec 64) (x : BitVec 32) : low (setvalue r x) = x := by
  apply BitVec.eq_of_getLsbD_eq
  intro i hi
  have hmask : (0xFFFFFFFF00000000#64).getLsbD i = false := by
    have hall : ∀ j < 32, (0xFFFFFFFF00000000#64).getLsbD j = false := by decide
    exact hall i hi
  rw [low, setvalue, BitVec.getLsbD_setWidth, BitVec.getLsbD_or, BitVec.getLsbD_and, hmask,
    BitVec.getLsbD_setWidth]
  simp [hi, show i < 64 by omega]

/-- Registers without an upper half are as their low halves. -/
theorem eq_of_low {a b : BitVec 64} (ha : a.toNat < 2 ^ 32) (hb : b.toNat < 2 ^ 32)
    (h : low a = low b) : a = b := by
  have hnat := congrArg BitVec.toNat h
  simp only [low, BitVec.toNat_setWidth] at hnat
  apply BitVec.eq_of_toNat_eq
  omega

/-- The answer of `CPUID`, `none` when the subleaf is not handled. -/
def cpuidAnswer (host : Host) (rax rcx : BitVec 64) : Option CpuidRegisters :=
  match rax with
  | 0x0 => some ⟨0xd, 0x72696D59, 0x00004372, 0x696D5943⟩
  | 0x1 => some ⟨(host.cpuid 0x1 0x0).eax, (host.cpuid 0x1 0x0).ebx, stdFeatureInfoEcx,
      stdFeatureInfoEdx⟩
  | 0x7 => if rcx = 0 then some ⟨1, extFeature0Ebx, 0, 0⟩
      else if rcx ∈ [1, 2] then some ⟨0, 0, 0, 0⟩ else none
  | 0xd => if rcx = 1 then some ⟨0, 0, 0, 0⟩ else none
  | 0x80000000 => some ⟨0x80000001, 0x72696D59, 0x00004372, 0x696D5943⟩
  | 0x80000001 => some ⟨0, 0, (host.cpuid 0x80000001 0x0).ecx,
      getExtFeatureInfoEdx (host.cpuid 0x80000001 0x0).edx⟩
  | _ => some ⟨0, 0, 0, 0⟩

/-- The exit wrote the answer into the four registers, or aborted when there is none. -/
def Writes (v : SvmVcpu) (r : Run (SvmVcpu × List HostEvent)) : Option CpuidRegisters → Prop
  | some a => ∃ trace, r = .ok (v.setCpuid a.eax a.ebx a.ecx a.edx, trace)
  | none => ∃ e, r = .error e

theorem writes_handleSvmCpuidExit (host : Host) (v : SvmVcpu) :
    v.Writes (handleSvmCpuidExit host v) (cpuidAnswer host v.vmcb.rax v.guestRegs.rcx) := by
  unfold handleSvmCpuidExit
  split
  · rename_i hrax
    rw [hrax]
    exact ⟨_, rfl⟩
  · rename_i hrax
    rw [hrax]
    exact ⟨_, rfl⟩
  · rename_i hrax
    rw [hrax]
    exact ⟨_, rfl⟩
  · -- Leaf 7 has the subleaves 0, 1 and 2.
    rename_i hrax
    rw [hrax]
    split
    · rename_i hrcx
      rw [hrcx]
      exact ⟨_, rfl⟩
    · rename_i hrcx
      rw [hrcx]
      exact ⟨_, rfl⟩
    · rename_i hrcx
      rw [hrcx]
      exact ⟨_, rfl⟩
    · rename_i h0 h1 h2
      have hnone : cpuidAnswer host 0x7#64 v.guestRegs.rcx = none := by
        show (if v.guestRegs.rcx = 0#64 then _ else if v.guestRegs.rcx ∈ [1#64, 2#64] then _
          else _) = _
        rw [if_neg h0, if_neg (by simpa using ⟨h1, h2⟩)]
      rw [hnone]
      exact ⟨_, rfl⟩
  · rename_i hrax
    rw [hrax]
    split
    · rename_i hrcx
      rw [hrcx]
      exact ⟨_, rfl⟩
    · rename_i h1
      have hnone : cpuidAnswer host 0xd#64 v.guestRegs.rcx = none := if_neg h1
      rw [hnone]
      exact ⟨_, rfl⟩
  · rename_i hrax
    rw [hrax]
    exact ⟨_, rfl⟩
  · rename_i hrax
    rw [hrax]
    exact ⟨_, rfl⟩
  · -- Every other leaf.
    unfold cpuidAnswer
    split
    all_goals first
      | contradiction
      | exact ⟨_, rfl⟩

/-- Two CPUID exits have the same outcome when they have the same answer. -/
theorem sameOutcome_iff_answer {v₁ v₂ : SvmVcpu} (h : AgreeLow v₁ v₂)
    {r₁ r₂ : Run (SvmVcpu × List HostEvent)} {a₁ a₂ : Option CpuidRegisters}
    (h₁ : v₁.Writes r₁ a₁) (h₂ : v₂.Writes r₂ a₂) : SameOutcome r₁ r₂ ↔ a₁ = a₂ := by
  cases a₁ with
  | none =>
      obtain ⟨e₁, rfl⟩ := h₁
      cases a₂ with
      | none =>
          obtain ⟨e₂, rfl⟩ := h₂
          exact iff_of_true trivial rfl
      | some a₂ =>
          obtain ⟨t₂, rfl⟩ := h₂
          exact iff_of_false (fun h => h) (by simp)
  | some a₁ =>
      obtain ⟨t₁, rfl⟩ := h₁
      cases a₂ with
      | none =>
          obtain ⟨e₂, rfl⟩ := h₂
          exact iff_of_false (fun h => h) (by simp)
      | some a₂ =>
          obtain ⟨t₂, rfl⟩ := h₂
          constructor
          · rintro ⟨hrax, hrbx, hrcx, hrdx, -⟩
            simp only [setCpuid, low_setvalue] at hrax hrbx hrcx hrdx
            cases a₁
            cases a₂
            simp_all
          · rintro ⟨rfl⟩
            rw [h.rest]
            exact ⟨by simp [setCpuid], by simp [setCpuid], by simp [setCpuid], by simp [setCpuid],
              rfl⟩

theorem cpuidAnswer_of_aborts (host : Host) {v : SvmVcpu} (h : AbortsLeaf v) :
    cpuidAnswer host v.vmcb.rax v.guestRegs.rcx = none := by
  rcases h with ⟨hrax, hrcx⟩ | ⟨hrax, hrcx⟩
  · simp only [List.mem_cons, List.not_mem_nil, or_false, not_or] at hrcx
    rw [hrax]
    show (if v.guestRegs.rcx = 0 then _ else if v.guestRegs.rcx ∈ [1, 2] then _ else _) = _
    rw [if_neg hrcx.1, if_neg (by simpa using hrcx.2)]
  · rw [hrax]
    exact if_neg hrcx

/-- The leaves with an answer do not answer with zeros. -/
theorem cpuidAnswer_of_answers (host : Host) {v : SvmVcpu} (h : AnswersLeaf v) :
    ∃ a, cpuidAnswer host v.vmcb.rax v.guestRegs.rcx = some a ∧ a ≠ ⟨0, 0, 0, 0⟩ := by
  have hstd : stdFeatureInfoEdx ≠ 0 := by decide
  -- `FPU` is forced on.
  have hedx : ∀ edx, getExtFeatureInfoEdx edx ≠ 0 := by
    intro edx hzero
    have hbit := congrArg (fun x => x.getLsbD 0) hzero
    simp [getExtFeatureInfoEdx] at hbit
  have hne : ∀ {a : CpuidRegisters}, a.eax ≠ 0 ∨ a.edx ≠ 0 → a ≠ ⟨0, 0, 0, 0⟩ := by
    rintro a ha rfl
    rcases ha with ha | ha
    · exact ha rfl
    · exact ha rfl
  simp only [AnswersLeaf, List.mem_cons, List.not_mem_nil, or_false] at h
  rcases h with (hrax | hrax | hrax | hrax) | ⟨hrax, hrcx⟩
  · rw [hrax]
    exact ⟨_, rfl, hne (.inl (by decide))⟩
  · rw [hrax]
    exact ⟨_, rfl, hne (.inr hstd)⟩
  · rw [hrax]
    exact ⟨_, rfl, hne (.inl (by decide))⟩
  · rw [hrax]
    exact ⟨_, rfl, hne (.inr (hedx _))⟩
  · rw [hrax, hrcx]
    exact ⟨_, rfl, hne (.inl (by decide))⟩

/-- Every other leaf answers with zeros. -/
theorem cpuidAnswer_of_neither (host : Host) {v : SvmVcpu} (hans : ¬ AnswersLeaf v)
    (habort : ¬ AbortsLeaf v) :
    cpuidAnswer host v.vmcb.rax v.guestRegs.rcx = some ⟨0, 0, 0, 0⟩ := by
  have hleaf : ∀ x ∈ [0x0, 0x1, 0x80000000, 0x80000001], v.vmcb.rax ≠ x :=
    fun x hx hrax => hans (.inl (hrax ▸ hx))
  unfold cpuidAnswer
  split
  · exact absurd ‹_› (hleaf 0x0 (by decide))
  · exact absurd ‹_› (hleaf 0x1 (by decide))
  · rename_i hrax
    rw [if_neg (fun hrcx => hans (.inr ⟨hrax, hrcx⟩))]
    apply if_pos
    by_contra hsub
    refine habort (.inl ⟨hrax, fun hmem => ?_⟩)
    rcases List.mem_cons.mp hmem with hrcx | hmem
    · exact hans (.inr ⟨hrax, hrcx⟩)
    · exact hsub hmem
  · rename_i hrax
    apply if_pos
    by_contra hsub
    exact habort (.inr ⟨hrax, hsub⟩)
  · exact absurd ‹_› (hleaf 0x80000000 (by decide))
  · exact absurd ‹_› (hleaf 0x80000001 (by decide))
  · rfl

/-- A leaf with an answer has no upper half. -/
theorem AnswersLeaf.lt {v : SvmVcpu} (h : AnswersLeaf v) : v.vmcb.rax.toNat < 2 ^ 32 := by
  simp only [AnswersLeaf, List.mem_cons, List.not_mem_nil, or_false] at h
  rcases h with (hrax | hrax | hrax | hrax) | ⟨hrax, -⟩
  all_goals
    rw [hrax]
    decide

theorem cpuidAnswer_congr (host : Host) {v₁ v₂ : SvmVcpu} (h : AgreeLow v₁ v₂)
    (h₁ : AnswersLeaf v₁) (h₂ : AnswersLeaf v₂) :
    cpuidAnswer host v₁.vmcb.rax v₁.guestRegs.rcx
      = cpuidAnswer host v₂.vmcb.rax v₂.guestRegs.rcx := by
  have hrax : v₁.vmcb.rax = v₂.vmcb.rax := eq_of_low h₁.lt h₂.lt h.rax
  simp only [AnswersLeaf, List.mem_cons, List.not_mem_nil, or_false] at h₁ h₂
  rcases h₁ with h₁ | ⟨h₁, hrcx₁⟩
  · -- These leaves have no subleaves.
    rcases h₁ with h₁ | h₁ | h₁ | h₁
    all_goals
      rw [← hrax, h₁]
      rfl
  · rcases h₂ with h₂ | ⟨-, hrcx₂⟩
    · rw [← hrax, h₁] at h₂
      exact absurd h₂ (by decide)
    · rw [← hrax, hrcx₁, hrcx₂]

/-- Two CPUID exits have the same outcome exactly when the leaf is of the same kind for both. -/
theorem sameOutcome_cpuid_iff (host : Host) {v₁ v₂ : SvmVcpu} (h : AgreeLow v₁ v₂) :
    SameOutcome (handleSvmCpuidExit host v₁) (handleSvmCpuidExit host v₂) ↔ SameLeaf v₁ v₂ := by
  rw [sameOutcome_iff_answer h (writes_handleSvmCpuidExit host v₁)
    (writes_handleSvmCpuidExit host v₂)]
  -- What each kind of leaf answers.
  have hkind : ∀ v, (AnswersLeaf v ↔
        ∃ a, cpuidAnswer host v.vmcb.rax v.guestRegs.rcx = some a ∧ a ≠ ⟨0, 0, 0, 0⟩) ∧
      (AbortsLeaf v ↔ cpuidAnswer host v.vmcb.rax v.guestRegs.rcx = none) := by
    intro v
    by_cases hans : AnswersLeaf v
    · obtain ⟨a, ha, hne⟩ := cpuidAnswer_of_answers host hans
      refine ⟨iff_of_true hans ⟨a, ha, hne⟩, iff_of_false (fun habort => ?_) (by simp [ha])⟩
      rw [cpuidAnswer_of_aborts host habort] at ha
      cases ha
    · by_cases habort : AbortsLeaf v
      · have hnone := cpuidAnswer_of_aborts host habort
        exact ⟨iff_of_false hans (by simp [hnone]), iff_of_true habort hnone⟩
      · have hzero := cpuidAnswer_of_neither host hans habort
        exact ⟨iff_of_false hans (by simp [hzero]), iff_of_false habort (by simp [hzero])⟩
  constructor
  · intro heq
    rw [SameLeaf, (hkind v₁).1, (hkind v₂).1, (hkind v₁).2, (hkind v₂).2, heq]
    exact ⟨Iff.rfl, Iff.rfl⟩
  · rintro ⟨hans, habort⟩
    by_cases hans₁ : AnswersLeaf v₁
    · exact cpuidAnswer_congr host h hans₁ (hans.mp hans₁)
    · by_cases habort₁ : AbortsLeaf v₁
      · rw [cpuidAnswer_of_aborts host habort₁, cpuidAnswer_of_aborts host (habort.mp habort₁)]
      · rw [cpuidAnswer_of_neither host hans₁ habort₁,
          cpuidAnswer_of_neither host (mt hans.mpr hans₁) (mt habort.mpr habort₁)]

/-- `handle_rdmsr` returns exactly for the MSRs it knows. -/
theorem handleRdmsr_cases (v : SvmVcpu) :
    (v.guestRegs.rcx ∈ rdmsrs ∧ ∃ u trace, handleRdmsr v = .ok (u, trace)) ∨
    (v.guestRegs.rcx ∉ rdmsrs ∧ ∃ e, handleRdmsr v = .error e) := by
  unfold handleRdmsr
  split
  · rename_i hrcx
    rw [hrcx]
    exact .inl ⟨by decide, _, _, rfl⟩
  · rename_i hrcx
    rw [hrcx]
    exact .inl ⟨by decide, _, _, rfl⟩
  · rename_i h1 h2
    refine .inr ⟨fun hmem => ?_, _, rfl⟩
    simp only [rdmsrs, List.mem_cons, List.not_mem_nil, or_false] at hmem
    exact hmem.elim h1 h2

/-- `handle_wrmsr` returns exactly for the MSRs it knows. -/
theorem handleWrmsr_cases (v : SvmVcpu) :
    (v.guestRegs.rcx ∈ wrmsrs ∧ ∃ u trace, handleWrmsr v = .ok (u, trace)) ∨
    (v.guestRegs.rcx ∉ wrmsrs ∧ ∃ e, handleWrmsr v = .error e) := by
  unfold handleWrmsr
  dsimp only
  split
  case h_13 =>
    refine .inr ⟨fun hmem => ?_, _, rfl⟩
    simp only [wrmsrs, List.mem_cons, List.not_mem_nil, or_false] at hmem
    rcases hmem with h | h | h | h | h | h | h | h | h | h | h | h
    all_goals contradiction
  all_goals
    rename_i hrcx
    rw [hrcx]
    exact .inl ⟨by decide, _, _, rfl⟩

/-- The MSRs are all 32-bit numbers. -/
theorem lt_of_mem_msrs {msr : BitVec 64} (h : msr ∈ rdmsrs ++ wrmsrs) : msr.toNat < 2 ^ 32 := by
  have hall : ∀ x ∈ rdmsrs ++ wrmsrs, x.toNat < 2 ^ 32 := by simp [rdmsrs, wrmsrs]
  exact hall msr h

theorem sameResult_setRetVal {v₁ v₂ : SvmVcpu} (h : AgreeLow v₁ v₂) (val : BitVec 64) :
    SameResult (v₁.setRetVal val) (v₂.setRetVal val) := by
  rw [h.rest]
  exact ⟨by simp [setRetVal], rfl, h.rcx, by simp [setRetVal], rfl⟩

/-- Setting an MSR does not concern `RAX`. -/
theorem setMsr_rax (vmcb : Vmcb) (rax msr value : BitVec 64) (tlb : BitVec 8) :
    { ({ vmcb with rax := rax }.setMsr msr value) with rax := 0, tlbControl := tlb }
      = { vmcb.setMsr msr value with rax := 0, tlbControl := tlb } := by
  unfold Vmcb.setMsr
  split
  all_goals rfl

theorem rax_setMsr (vmcb : Vmcb) (msr value : BitVec 64) :
    (vmcb.setMsr msr value).rax = vmcb.rax := by
  obtain ⟨_, _, _, _, _, _, _, _, _, _, _, hset⟩ := vmcb.setMsr_eq msr value
  rw [hset]

/-- The value written by a `WRMSR` is made of the low halves, and so is what it does. -/
theorem sameResult_wrmsr {v₁ v₂ u₁ u₂ : SvmVcpu} {t₁ t₂ : List HostEvent} (h : AgreeLow v₁ v₂)
    (hrcx : v₁.guestRegs.rcx = v₂.guestRegs.rcx) (h₁ : handleWrmsr v₁ = .ok (u₁, t₁))
    (h₂ : handleWrmsr v₂ = .ok (u₂, t₂)) : SameResult u₁ u₂ := by
  obtain ⟨rax, hvmcb⟩ : ∃ rax, v₂.vmcb = { v₁.vmcb with rax := rax } :=
    ⟨_, congrArg (fun v => v.vmcb) h.rest⟩
  have hrbx : v₂.guestRegs.rbx = v₁.guestRegs.rbx := congrArg (fun v => v.guestRegs.rbx) h.rest
  have hvalue : v₁.edxEax = v₂.edxEax := by
    show low v₁.guestRegs.rdx ++ low v₁.vmcb.rax = low v₂.guestRegs.rdx ++ low v₂.vmcb.rax
    rw [h.rdx, h.rax]
  have htlb : v₁.wrmsrTlb = v₂.wrmsrTlb := by
    unfold wrmsrTlb
    rw [hrcx, hvalue, hvmcb]
    rfl
  rw [handleWrmsr_field h₁, handleWrmsr_field h₂]
  refine ⟨?_, congrArg low hrbx.symm, h.rcx, h.rdx, ?_⟩
  · show low (v₁.vmcb.setMsr _ _).rax = low (v₂.vmcb.setMsr _ _).rax
    rw [rax_setMsr, rax_setMsr, h.rax]
  · show { v₁.vmcb.setMsr v₁.guestRegs.rcx v₁.edxEax with rax := 0, tlbControl := v₁.wrmsrTlb }
      = { v₂.vmcb.setMsr v₂.guestRegs.rcx v₂.edxEax with rax := 0, tlbControl := v₂.wrmsrTlb }
    rw [← htlb, ← hvalue, ← hrcx, hvmcb]
    exact (setMsr_rax v₁.vmcb rax _ _ _).symm

/-- Two handlers that return for the same registers `known`, and agree when `RCX` does. -/
theorem sameOutcome_msr_iff {v₁ v₂ : SvmVcpu} {r₁ r₂ : Run (SvmVcpu × List HostEvent)}
    {known : List (BitVec 64)} (hknown : ∀ x ∈ known, x.toNat < 2 ^ 32) (h : AgreeLow v₁ v₂)
    (h₁ : (v₁.guestRegs.rcx ∈ known ∧ ∃ u t, r₁ = .ok (u, t)) ∨
      (v₁.guestRegs.rcx ∉ known ∧ ∃ e, r₁ = .error e))
    (h₂ : (v₂.guestRegs.rcx ∈ known ∧ ∃ u t, r₂ = .ok (u, t)) ∨
      (v₂.guestRegs.rcx ∉ known ∧ ∃ e, r₂ = .error e))
    (hsame : v₁.guestRegs.rcx = v₂.guestRegs.rcx → ∀ u₁ t₁ u₂ t₂, r₁ = .ok (u₁, t₁) →
      r₂ = .ok (u₂, t₂) → SameResult u₁ u₂) :
    SameOutcome r₁ r₂ ↔ (v₁.guestRegs.rcx ∈ known ↔ v₂.guestRegs.rcx ∈ known) := by
  rcases h₁ with ⟨hmem₁, u₁, t₁, rfl⟩ | ⟨hmem₁, e₁, rfl⟩
  · rcases h₂ with ⟨hmem₂, u₂, t₂, rfl⟩ | ⟨hmem₂, e₂, rfl⟩
    · have hrcx := eq_of_low (hknown _ hmem₁) (hknown _ hmem₂) h.rcx
      exact iff_of_true (hsame hrcx u₁ t₁ u₂ t₂ rfl rfl) (iff_of_true hmem₁ hmem₂)
    · exact iff_of_false (fun h => h) (fun h => hmem₂ (h.mp hmem₁))
  · rcases h₂ with ⟨hmem₂, u₂, t₂, rfl⟩ | ⟨hmem₂, e₂, rfl⟩
    · exact iff_of_false (fun h => h) (fun h => hmem₁ (h.mpr hmem₂))
    · exact iff_of_true trivial (iff_of_false hmem₁ hmem₂)

/-- The value a known MSR is read as. -/
def rdmsrValue (v : SvmVcpu) : BitVec 64 :=
  if v.guestRegs.rcx = 0x1B then BitVec.allOnes 64 else v.vmcb.efer

theorem handleRdmsr_value {v v' : SvmVcpu} {trace : List HostEvent}
    (h : handleRdmsr v = .ok (v', trace)) : v' = v.setRetVal v.rdmsrValue := by
  unfold handleRdmsr at h
  unfold rdmsrValue
  split at h
  · rename_i hrcx
    cases h
    rw [hrcx]
    rfl
  · rename_i hrcx
    cases h
    rw [hrcx]
    rfl
  · cases h

theorem sameOutcome_rdmsr_iff {v₁ v₂ : SvmVcpu} (h : AgreeLow v₁ v₂) :
    SameOutcome (handleRdmsr v₁) (handleRdmsr v₂) ↔
      (v₁.guestRegs.rcx ∈ rdmsrs ↔ v₂.guestRegs.rcx ∈ rdmsrs) := by
  refine sameOutcome_msr_iff (fun x hx => lt_of_mem_msrs (List.mem_append_left _ hx)) h
    (handleRdmsr_cases v₁) (handleRdmsr_cases v₂) ?_
  intro hrcx u₁ t₁ u₂ t₂ h₁ h₂
  have hefer : v₂.vmcb.efer = v₁.vmcb.efer := congrArg (fun v => v.vmcb.efer) h.rest
  have hvalue : v₂.rdmsrValue = v₁.rdmsrValue := by
    rw [rdmsrValue, rdmsrValue, hrcx, hefer]
  rw [handleRdmsr_value h₁, handleRdmsr_value h₂, hvalue]
  exact sameResult_setRetVal h v₁.rdmsrValue

/-- **When `CPUID`, `RDMSR` and `WRMSR` depend on the low halves of the registers only.** Two guests
that differ in the upper halves have the same outcome exactly when all 64 bits name the same kind of
leaf, and an MSR the handler knows for both or for neither. -/
theorem operands_agree_iff (host : Host) {v₁ v₂ : SvmVcpu} (h : AgreeLow v₁ v₂) :
    (SameOutcome (handleSvmCpuidExit host v₁) (handleSvmCpuidExit host v₂) ↔ SameLeaf v₁ v₂) ∧
      (SameOutcome (handleSvmMsrExit v₁) (handleSvmMsrExit v₂) ↔ SameMsr v₁ v₂) := by
  refine ⟨sameOutcome_cpuid_iff host h, ?_⟩
  have hinfo : v₂.vmcb.exitinfo1 = v₁.vmcb.exitinfo1 := congrArg (fun v => v.vmcb.exitinfo1) h.rest
  unfold handleSvmMsrExit SameMsr
  rw [hinfo]
  by_cases hread : v₁.vmcb.exitinfo1 = 0
  · rw [if_pos hread, if_pos hread, sameOutcome_rdmsr_iff h]
    simp [hread]
  · rw [if_neg hread, if_neg hread]
    by_cases hwrite : v₁.vmcb.exitinfo1 = 1
    · rw [if_pos hwrite, if_pos hwrite, sameOutcome_msr_iff
        (fun x hx => lt_of_mem_msrs (List.mem_append_right _ hx)) h (handleWrmsr_cases v₁)
        (handleWrmsr_cases v₂)
        (fun hrcx u₁ t₁ u₂ t₂ h₁ h₂ => sameResult_wrmsr h hrcx h₁ h₂)]
      simp [hwrite]
    · -- Every other reason for the exit aborts.
      rw [if_neg hwrite, if_neg hwrite]
      exact iff_of_true trivial ⟨fun h => absurd h hread, fun h => absurd h hwrite⟩

/-- A guest at a `CPUID` or at a `RDMSR` instruction. -/
def operandVcpu (rax rcx rdx : BitVec 64) : SvmVcpu :=
  { svmVcpuNew 1 with vmcb := { rax := rax }, guestRegs := { rcx := rcx, rdx := rdx } }

/-- Upper halves that are only carried along: `RDX` differs, and `RAX` names leaf 0. -/
theorem operands_agree_edx :
    SameOutcome (handleSvmCpuidExit quietHost (operandVcpu 0 0x1B 0xFFFFFFFF00000000))
        (handleSvmCpuidExit quietHost (operandVcpu 0 0x1B 0)) ∧
      SameOutcome (handleSvmMsrExit (operandVcpu 0 0x1B 0xFFFFFFFF00000000))
        (handleSvmMsrExit (operandVcpu 0 0x1B 0)) := by
  have h : AgreeLow (operandVcpu 0 0x1B 0xFFFFFFFF00000000) (operandVcpu 0 0x1B 0) :=
    ⟨rfl, rfl, rfl, rfl⟩
  obtain ⟨hcpuid, hmsr⟩ := operands_agree_iff quietHost h
  exact ⟨hcpuid.mpr ⟨Iff.rfl, Iff.rfl⟩, hmsr.mpr ⟨fun _ => Iff.rfl, fun _ => Iff.rfl⟩⟩

/-- Leaf 0 is not answered when a bit above `EAX` is set, and the APIC base not read when one above
`ECX` is: the second guest gets zeros, and its `RDMSR` aborts. -/
theorem not_operands_agree :
    AgreeLow (operandVcpu 0 0x1B 0) (operandVcpu 0x100000000 0x10000001B 0) ∧
      ¬ SameOutcome (handleSvmCpuidExit quietHost (operandVcpu 0 0x1B 0))
        (handleSvmCpuidExit quietHost (operandVcpu 0x100000000 0x10000001B 0)) ∧
      ¬ SameOutcome (handleSvmMsrExit (operandVcpu 0 0x1B 0))
        (handleSvmMsrExit (operandVcpu 0x100000000 0x10000001B 0)) := by
  refine ⟨⟨rfl, rfl, rfl, rfl⟩, fun h => ?_, fun h => h⟩
  have hrax := h.rax
  revert hrax
  decide

end SvmVcpu

end YmirC
