import YmirC.Arch.X86.SvmState

/-!
# `YmirC.Arch.X86.SvmIoio`: the IOIO exit handlers

`svm_ioio.c`: the decoding of `EXITINFO1`, the port dispatch of `handle_ioio_in` and
`handle_ioio_out`, and the emulated serial port, PIT and 8259 pair. Each handler returns the
new vCPU with the host effects it caused, or halts through `svm_vcpu_abort`.

The source spells the primary and the secondary PIC out twice. Both copies run the same
machine on their own registers, so the machine is stated once here, over `PicRegs`, and
`handlePicOut` applies it at each PIC with that PIC's texts and its ICW3 value.
-/

set_option autoImplicit false

namespace YmirC

/-- `IOIOInterceptInfo`: the fields of `EXITINFO1` the handlers read, with the string and
repeat flags. `type` is true for `IN`. -/
structure IOIOInterceptInfo where
  type : Bool
  str : Bool
  rep : Bool
  sz8 : Bool
  sz16 : Bool
  sz32 : Bool
  port : BitVec 16
  deriving DecidableEq, Repr

/-- The union's view of its 32-bit value. -/
def IOIOInterceptInfo.ofValue (value : BitVec 32) : IOIOInterceptInfo :=
  { type := value.getLsbD 0
    str := value.getLsbD 2
    rep := value.getLsbD 3
    sz8 := value.getLsbD 4
    sz16 := value.getLsbD 5
    sz32 := value.getLsbD 6
    port := value.extractLsb' 16 16 }

/-- A port range `case lo ... hi`. -/
def portIn (lo hi port : BitVec 16) : Bool := lo ≤ port && port ≤ hi

namespace SvmVcpu

/-- `vmcb->rax = val`. -/
def setRax (vcpu : SvmVcpu) (val : BitVec 64) : SvmVcpu :=
  { vcpu with vmcb := { vcpu.vmcb with rax := val } }

/-- The low byte of the guest's `RAX`. -/
def al (vcpu : SvmVcpu) : BitVec 8 := vcpu.vmcb.rax.setWidth 8

end SvmVcpu

/-! ### The serial port and the PIT -/

/-- `handle_serial_in`. -/
def handleSerialIn (host : Host) (vcpu : SvmVcpu) (info : IOIOInterceptInfo) :
    Run (SvmVcpu × List HostEvent) :=
  match info.port with
  | 0x3F8 => .ok (vcpu.setRax ((host.inb info.port).setWidth 64), [])
  | 0x3F9 => .ok (vcpu.setRax (vcpu.guestIoioState.ier.setWidth 64), [])
  | 0x3FA => .ok (vcpu.setRax ((host.inb info.port).setWidth 64), [])
  | 0x3FB => .ok (vcpu.setRax 0, [])
  | 0x3FC => .ok (vcpu.setRax (vcpu.guestIoioState.mcr.setWidth 64), [])
  | 0x3FD => .ok (vcpu.setRax ((host.inb info.port).setWidth 64), [])
  | 0x3FE => .ok (vcpu.setRax ((host.inb info.port).setWidth 64), [])
  | 0x3FF => .ok (vcpu.setRax 0, [])
  | _ => .error (.abort [logError "Unsupported I/O-in to the first serial port: 0x%x\n"
      [info.port.setWidth 64]])

/-- `handle_serial_out`. -/
def handleSerialOut (vcpu : SvmVcpu) (info : IOIOInterceptInfo) :
    Run (SvmVcpu × List HostEvent) :=
  match info.port with
  | 0x3F8 => .ok (vcpu, [.serialWrite vcpu.al])
  | 0x3F9 => .ok ({ vcpu with
      guestIoioState := { vcpu.guestIoioState with ier := vcpu.al } }, [])
  | 0x3FA => .ok (vcpu, [])
  | 0x3FB => .ok (vcpu, [])
  | 0x3FC => .ok ({ vcpu with
      guestIoioState := { vcpu.guestIoioState with mcr := vcpu.al } }, [])
  | 0x3FF => .ok (vcpu, [])
  | _ => .error (.abort [logError "Unsupported I/O-out to the first serial port: 0x%x\n"
      [info.port.setWidth 64]])

/-- `handle_pit_in`: pass-through. -/
def handlePitIn (host : Host) (vcpu : SvmVcpu) (info : IOIOInterceptInfo) :
    Run (SvmVcpu × List HostEvent) :=
  if info.sz8 then .ok (vcpu.setRax ((host.inb info.port).setWidth 64), [])
  else if info.sz16 then .ok (vcpu.setRax ((host.inw info.port).setWidth 64), [])
  else if info.sz32 then .ok (vcpu.setRax ((host.inl info.port).setWidth 64), [])
  else .ok (vcpu, [])

/-- `handle_pit_out`: pass-through. -/
def handlePitOut (vcpu : SvmVcpu) (info : IOIOInterceptInfo) :
    Run (SvmVcpu × List HostEvent) :=
  if info.sz8 then .ok (vcpu, [.outb vcpu.al info.port])
  else if info.sz16 then .ok (vcpu, [.outw (vcpu.vmcb.rax.setWidth 16) info.port])
  else if info.sz32 then .ok (vcpu, [.outl (vcpu.vmcb.rax.setWidth 32) info.port])
  else .ok (vcpu, [])

/-! ### The 8259 pair -/

/-- The registers of one emulated PIC. -/
structure PicRegs where
  phase : SvmPicInitPhase
  base : BitVec 8
  mask : BitVec 8
  deriving DecidableEq, Repr

namespace SvmIoioGuestState

/-- The primary PIC's registers. -/
def primary (g : SvmIoioGuestState) : PicRegs :=
  { phase := g.primaryPhase, base := g.primaryBase, mask := g.primaryMask }

/-- The secondary PIC's registers. -/
def secondary (g : SvmIoioGuestState) : PicRegs :=
  { phase := g.secondaryPhase, base := g.secondaryBase, mask := g.secondaryMask }

/-- The state with the primary PIC's registers replaced. -/
def setPrimary (g : SvmIoioGuestState) (r : PicRegs) : SvmIoioGuestState :=
  { g with primaryPhase := r.phase, primaryBase := r.base, primaryMask := r.mask }

/-- The state with the secondary PIC's registers replaced. -/
def setSecondary (g : SvmIoioGuestState) (r : PicRegs) : SvmIoioGuestState :=
  { g with secondaryPhase := r.phase, secondaryBase := r.base, secondaryMask := r.mask }

end SvmIoioGuestState

/-- A write to a command port. `0x11` is ICW1 and restarts the initialization, `0x60..0x67`
is a specific EOI the hypervisor swallows, every other byte aborts with `unsupported`. -/
def picCommandOut (unsupported : String) (dx : BitVec 8) (r : PicRegs) : Run PicRegs :=
  if dx = 0x11 then .ok { r with phase := .phase1 }
  else if 0x60 ≤ dx && dx ≤ 0x67 then .ok r
  else .error (.abort [logError unsupported [dx.setWidth 64]])

/-- A write to a data port. Its meaning is the phase's: OCW1 outside the initialization,
then ICW2, ICW3 (which has to be `icw3`) and ICW4. -/
def picDataOut (offset invalid : String) (icw3 dx : BitVec 8) (r : PicRegs) :
    Run (PicRegs × List HostEvent) :=
  match r.phase with
  | .uninitialized => .ok ({ r with mask := dx }, [])
  | .inited => .ok ({ r with mask := dx }, [])
  | .phase1 => .ok ({ r with base := dx, phase := .phase2 },
      [.log (logInfo offset [dx.setWidth 64])])
  | .phase2 =>
      if dx ≠ icw3 then .error (.abort [logError invalid [dx.setWidth 64]])
      else .ok ({ r with phase := .phase3 }, [])
  | .phase3 => .ok ({ r with phase := .inited }, [])

/-- A read of a data port: the mask, outside the initialization only. -/
def picDataIn (unsupported : String) (r : PicRegs) : Run (BitVec 8) :=
  match r.phase with
  | .uninitialized => .ok r.mask
  | .inited => .ok r.mask
  | _ => .error (.abort [logError unsupported []])

/-- The size the PIC handlers print when the operand is not one byte. -/
def picBadSize (info : IOIOInterceptInfo) : Halt :=
  .abort [logError "Unsupported I/O-in size to PIC: size=%d, port=0x%x\n"
    [if info.sz16 then 16 else 32, info.port.setWidth 64]]

/-- `handle_pic_in`. -/
def handlePicIn (vcpu : SvmVcpu) (info : IOIOInterceptInfo) :
    Run (SvmVcpu × List HostEvent) :=
  if !info.sz8 then .error (picBadSize info)
  else match info.port with
  | 0x21 => do
      let mask ← picDataIn
        "Unsupported I/O-in to primary PIC outside uninitialized or inited phase."
        vcpu.guestIoioState.primary
      pure (vcpu.setRax (mask.setWidth 64), [])
  | 0xA1 => do
      let mask ← picDataIn
        "Unsupported I/O-in to secondary PIC outside uninitialized or inited phase."
        vcpu.guestIoioState.secondary
      pure (vcpu.setRax (mask.setWidth 64), [])
  | _ => .error (.abort [logError "Unsupported I/O-in to PIC: port=0x%x\n"
      [info.port.setWidth 64]])

/-- `handle_pic_out`. -/
def handlePicOut (vcpu : SvmVcpu) (info : IOIOInterceptInfo) :
    Run (SvmVcpu × List HostEvent) :=
  let g := vcpu.guestIoioState
  let dx := vcpu.al
  if !info.sz8 then .error (picBadSize info)
  else match info.port with
  | 0x20 => do
      let r ← picCommandOut "Unsupported command to primary PIC: command=0x%x\n" dx g.primary
      pure ({ vcpu with guestIoioState := g.setPrimary r }, [])
  | 0x21 => do
      let (r, events) ← picDataOut "Primary PIC vector offset: 0x%x\n"
        "Invalid secondary PIC location: 0x%x\n" 4 dx g.primary
      pure ({ vcpu with guestIoioState := g.setPrimary r }, events)
  | 0xA0 => do
      let r ← picCommandOut "Unsupported command to secondary PIC: command=0x%x\n" dx
        g.secondary
      pure ({ vcpu with guestIoioState := g.setSecondary r }, [])
  | 0xA1 => do
      let (r, events) ← picDataOut "Secondary PIC vector offset: 0x%x\n"
        "Invalid PIC cascade identity: 0x%x\n" 2 dx g.secondary
      pure ({ vcpu with guestIoioState := g.setSecondary r }, events)
  | _ => .error (.abort [logError "Unsupported I/O-out to PIC: port=0x%x\n"
      [info.port.setWidth 64]])

/-! ### The port dispatch -/

/-- `handle_ioio_in`. -/
def handleIoioIn (host : Host) (vcpu : SvmVcpu) (info : IOIOInterceptInfo) :
    Run (SvmVcpu × List HostEvent) :=
  if portIn 0x0020 0x0021 info.port then handlePicIn vcpu info
  else if portIn 0x0040 0x0047 info.port then handlePitIn host vcpu info
  else if portIn 0x0060 0x0064 info.port then .ok (vcpu.setRax 0, [])
  else if portIn 0x0070 0x0071 info.port then .ok (vcpu.setRax 0, [])
  else if portIn 0x0080 0x008F info.port then .ok (vcpu, [])
  else if portIn 0x00A0 0x00A1 info.port then handlePicIn vcpu info
  else if portIn 0x02E8 0x02EF info.port then .ok (vcpu, [])
  else if portIn 0x02F8 0x02FF info.port then .ok (vcpu, [])
  else if portIn 0x03B0 0x03DF info.port then .ok (vcpu.setRax 0, [])
  else if portIn 0x03E8 0x03EF info.port then .ok (vcpu, [])
  else if portIn 0x03F8 0x03FF info.port then handleSerialIn host vcpu info
  else if portIn 0xC000 0xCFFF info.port then .ok (vcpu, [])
  else if portIn 0x0CF8 0x0CFF info.port then .ok (vcpu.setRax 0, [])
  else .error (.abort [logError "Unhandled I/O-in port: 0x%x\n" [info.port.setWidth 64]])

/-- `handle_ioio_out`. -/
def handleIoioOut (vcpu : SvmVcpu) (info : IOIOInterceptInfo) :
    Run (SvmVcpu × List HostEvent) :=
  if portIn 0x0020 0x0021 info.port then handlePicOut vcpu info
  else if portIn 0x0040 0x0047 info.port then handlePitOut vcpu info
  else if portIn 0x0060 0x0064 info.port then .ok (vcpu, [])
  else if portIn 0x0070 0x0071 info.port then .ok (vcpu, [])
  else if portIn 0x0080 0x008F info.port then .ok (vcpu, [])
  else if portIn 0x00A0 0x00A1 info.port then handlePicOut vcpu info
  else if portIn 0x02E8 0x02EF info.port then .ok (vcpu, [])
  else if portIn 0x02F8 0x02FF info.port then .ok (vcpu, [])
  else if portIn 0x03B0 0x03DF info.port then .ok (vcpu, [])
  else if portIn 0x03E8 0x03EF info.port then .ok (vcpu, [])
  else if portIn 0x03F8 0x03FF info.port then handleSerialOut vcpu info
  else if portIn 0xC000 0xCFFF info.port then .ok (vcpu, [])
  else if portIn 0x0CF8 0x0CFF info.port then .ok (vcpu, [])
  else .error (.abort [logError "Unhandled I/O-out port: 0x%x\n" [info.port.setWidth 64]])

/-- `handle_svm_ioio_exit`. -/
def handleSvmIoioExit (host : Host) (vcpu : SvmVcpu) : Run (SvmVcpu × List HostEvent) :=
  let info := IOIOInterceptInfo.ofValue (vcpu.vmcb.exitinfo1.setWidth 32)
  if info.type then handleIoioIn host vcpu info else handleIoioOut vcpu info

end YmirC
