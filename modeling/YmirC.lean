import YmirC.Proofs.Pic
import YmirC.Proofs.Gdt
import YmirC.Proofs.Idt
import YmirC.Proofs.Isr
import YmirC.Proofs.Log.Printf
import YmirC.Proofs.PageAllocator.Safety
import YmirC.Proofs.PageAllocator.Exact
import YmirC.Proofs.PageAllocator.Order
import YmirC.Proofs.PageAllocator.Sizes
import YmirC.Proofs.BinAllocator.Safety
import YmirC.Proofs.BinAllocator.Reuse
import YmirC.Proofs.Page.Returns
import YmirC.Proofs.Page.Translation
import YmirC.Proofs.SvmIoio
import YmirC.Proofs.SvmVcpu.Delivery
import YmirC.Proofs.SvmVcpu.Operands
import YmirC.Proofs.SvmVcpu.Vmrun
import YmirC.Proofs.Vm.Isolation
import YmirC.Proofs.Vm.Setup
import YmirC.Proofs.Surtrc.WriteXorExecute
import YmirC.Arch.X86.SvmAsm
import YmirC.Proofs.SvmAsm
import YmirC.Arch.X86.Interrupt
import YmirC.Main
import YmirC.Proofs.Main
import YmirC.Arch.X86.Serial
import YmirC.Proofs.Serial
import YmirC.Proofs.Console
import YmirC.Proofs.Interrupt
import YmirC.Proofs.Serial
import YmirC.Proofs.Console
import YmirC.Surtrc.EfiMain
import YmirC.Proofs.Surtrc.EfiMain
