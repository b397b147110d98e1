import YmirC.Arch.X86.SvmState

/-!
# `YmirC.Arch.X86.SvmCpuid`: the CPUID, MSR and VMMCALL exit handlers

`svm_cpuid.c`, `svm_msr.c` and `svm_vmmc.c`. The `switch` statements of the source test the
whole 64-bit `RAX` and `RCX`, and so do the matches below. A write through
`setvalue`/`setvalue_safely` replaces the low half of a register and keeps the upper half.
-/

set_option autoImplicit false

namespace YmirC

/-- `setvalue` and `setvalue_safely`: the low 32 bits are replaced. -/
def setvalue (reg : BitVec 64) (val : BitVec 32) : BitVec 64 :=
  (reg &&& 0xFFFFFFFF00000000#64) ||| val.setWidth 64

namespace SvmVcpu

/-- The four registers of a CPUID answer, each through `setvalue`. -/
def setCpuid (vcpu : SvmVcpu) (eax ebx ecx edx : BitVec 32) : SvmVcpu :=
  { vcpu with
      vmcb := { vcpu.vmcb with rax := setvalue vcpu.vmcb.rax eax }
      guestRegs := { vcpu.guestRegs with
        rbx := setvalue vcpu.guestRegs.rbx ebx
        rcx := setvalue vcpu.guestRegs.rcx ecx
        rdx := setvalue vcpu.guestRegs.rdx edx } }

/-- `invalid` of `svm_cpuid.c`. -/
def invalid (vcpu : SvmVcpu) : SvmVcpu := vcpu.setCpuid 0 0 0 0

/-- `set_ret_val` of `svm_msr.c`. -/
def setRetVal (vcpu : SvmVcpu) (val : BitVec 64) : SvmVcpu :=
  { vcpu with
      vmcb := { vcpu.vmcb with rax := setvalue vcpu.vmcb.rax (val.setWidth 32) }
      guestRegs := { vcpu.guestRegs with
        rdx := setvalue vcpu.guestRegs.rdx ((val >>> 32).setWidth 32) } }

end SvmVcpu

/-! ### CPUID -/

/-- `std_feature_info_ecx`. -/
def stdFeatureInfoEcx : BitVec 32 := 0

/-- `std_feature_info_edx`: `fpu`, `vme`, `de`, `pse`, `msr`, `pae`, `cmpxchg8b`,
`sysentersysexit`, `pge`, `cmov`, `pse36`, `fxsr`, `sse`, `sse2`. -/
def stdFeatureInfoEdx : BitVec 32 :=
  [0, 1, 2, 3, 5, 6, 8, 11, 13, 15, 17, 24, 25, 26].foldl (fun v i => v ||| 1#32 <<< i) 0

/-- `ext_feature0_ebx`: `smep`, `invpcid`, `smap`. -/
def extFeature0Ebx : BitVec 32 := [7, 10, 20].foldl (fun v i => v ||| 1#32 <<< i) 0

/-- `get_ext_feature_info_edx`: the host value with the standard features forced on
(`fpu`, `vme`, `de`, `pse`, `msr`, `pae`, `cmpxchg8b`, `pge`, `cmov`, `pse36`, `fxsr`) and
`tsc`, `mce`, `apic`, `mtrr`, `mca`, `pat`, `mmxext` and `mmx` forced off. -/
def getExtFeatureInfoEdx (orig : BitVec 32) : BitVec 32 :=
  let on := [0, 1, 2, 3, 5, 6, 8, 13, 15, 17, 24].foldl (fun v i => v ||| 1#32 <<< i) orig
  [4, 7, 9, 12, 14, 16, 22, 23].foldl (fun v i => v &&& ~~~(1#32 <<< i)) on

/-- The abort of an unhandled subleaf. -/
def unhandledCpuid (vcpu : SvmVcpu) : Halt :=
  .abort [logError "Unhandled CPUID: Leaf=0x%x, Sub=0x%x\n"
    [vcpu.vmcb.rax, vcpu.guestRegs.rcx]]

/-- `handle_svm_cpuid_exit`. -/
def handleSvmCpuidExit (host : Host) (vcpu : SvmVcpu) : Run (SvmVcpu × List HostEvent) :=
  match vcpu.vmcb.rax with
  | 0x0 => .ok (vcpu.setCpuid 0xd 0x72696D59 0x00004372 0x696D5943, [])
  | 0x1 =>
      let orig := host.cpuid 0x1 0x0
      .ok (vcpu.setCpuid orig.eax orig.ebx stdFeatureInfoEcx stdFeatureInfoEdx, [])
  | 0x6 => .ok (vcpu.invalid, [])
  | 0x7 =>
      match vcpu.guestRegs.rcx with
      | 0 => .ok (vcpu.setCpuid 1 extFeature0Ebx 0 0, [])
      | 1 => .ok (vcpu.invalid, [])
      | 2 => .ok (vcpu.invalid, [])
      | _ => .error (unhandledCpuid vcpu)
  | 0xd =>
      match vcpu.guestRegs.rcx with
      | 1 => .ok (vcpu.invalid, [])
      | _ => .error (unhandledCpuid vcpu)
  | 0x80000000 => .ok (vcpu.setCpuid 0x80000001 0x72696D59 0x00004372 0x696D5943, [])
  | 0x80000001 =>
      let orig := host.cpuid 0x80000001 0x0
      .ok (vcpu.setCpuid 0 0 orig.ecx (getExtFeatureInfoEdx orig.edx), [])
  | _ => .ok (vcpu.invalid, [.log (logWarn "Unhandled CPUID: Leaf=0x%x, Sub=0x%x\n"
      [vcpu.vmcb.rax, vcpu.guestRegs.rcx])])

/-! ### MSR -/

/-- `handle_rdmsr`: `MSR_APIC_BASE` and `MSR_EFER`. -/
def handleRdmsr (vcpu : SvmVcpu) : Run (SvmVcpu × List HostEvent) :=
  match vcpu.guestRegs.rcx with
  | 0x1B => .ok (vcpu.setRetVal (BitVec.allOnes 64), [])
  | 0xC0000080 => .ok (vcpu.setRetVal vcpu.vmcb.efer, [])
  | _ => .error (.abort [logError "Unhandled RDMSR: 0x%x\n" [vcpu.guestRegs.rcx]])

/-- The `MSR_EFER` case of `handle_wrmsr`: the TLB is flushed when the new value has `LME`
(bit 8) or `NXE` (bit 11), and the whole value is stored. -/
def wrmsrEfer (vmcb : Vmcb) (value : BitVec 64) : Vmcb :=
  { vmcb with
      tlbControl := if value.getLsbD 8 || value.getLsbD 11 then 0x03 else vmcb.tlbControl
      efer := value }

/-- `handle_wrmsr`. The cases are `MSR_SYSENTER_CS`, `_ESP`, `_EIP`, `MSR_EFER`, `MSR_STAR`,
`MSR_LSTAR`, `MSR_CSTAR`, `MSR_SF_MASK`, `MSR_FS_BASE`, `MSR_GS_BASE`,
`MSR_KERNEL_GS_BASE` and `MSR_TSC_AUX`. -/
def handleWrmsr (vcpu : SvmVcpu) : Run (SvmVcpu × List HostEvent) :=
  let vmcb := vcpu.vmcb
  let value := concat64 vcpu.guestRegs.rdx vmcb.rax
  match vcpu.guestRegs.rcx with
  | 0x174 => .ok ({ vcpu with vmcb := { vmcb with sysenterCs := value } }, [])
  | 0x175 => .ok ({ vcpu with vmcb := { vmcb with sysenterEsp := value } }, [])
  | 0x176 => .ok ({ vcpu with vmcb := { vmcb with sysenterEip := value } }, [])
  | 0xC0000080 => .ok ({ vcpu with vmcb := wrmsrEfer vmcb value }, [])
  | 0xC0000081 => .ok ({ vcpu with vmcb := { vmcb with star := value } }, [])
  | 0xC0000082 => .ok ({ vcpu with vmcb := { vmcb with lstar := value } }, [])
  | 0xC0000083 => .ok ({ vcpu with vmcb := { vmcb with cstar := value } }, [])
  | 0xC0000084 => .ok ({ vcpu with vmcb := { vmcb with sfmask := value } }, [])
  | 0xC0000100 => .ok ({ vcpu with vmcb := { vmcb with fs := { vmcb.fs with base := value } } }, [])
  | 0xC0000101 => .ok ({ vcpu with vmcb := { vmcb with gs := { vmcb.gs with base := value } } }, [])
  | 0xC0000102 => .ok ({ vcpu with vmcb := { vmcb with kernelGsBase := value } }, [])
  | 0xC0000103 => .ok (vcpu, [.writeMsr 0xC0000103 value])
  | _ => .error (.abort [logError "Unhandled WRMSR: 0x%x\n" [vcpu.guestRegs.rcx]])

/-- `handle_svm_msr_exit`. -/
def handleSvmMsrExit (vcpu : SvmVcpu) : Run (SvmVcpu × List HostEvent) :=
  if vcpu.vmcb.exitinfo1 = 0 then handleRdmsr vcpu
  else if vcpu.vmcb.exitinfo1 = 1 then handleWrmsr vcpu
  else .error (.abort [])

/-! ### VMMCALL -/

/-- `handle_svm_vmmcall_exit`. Call 0 prints the greeting (its logo argument is left out),
every other number logs an error; neither touches the vCPU. -/
def handleSvmVmmcallExit (vcpu : SvmVcpu) : Run (SvmVcpu × List HostEvent) :=
  if vcpu.vmcb.rax = 0 then
    .ok (vcpu, [.log (logInfo "GREETINGS FROM VMM...\n%s\n" []),
      .log (logInfo "This OS is hypervisored by YmirC.\n" [])])
  else .ok (vcpu, [.log (logError "Unhandled VMCALL: nr=%d\n" [vcpu.vmcb.rax])])

end YmirC
