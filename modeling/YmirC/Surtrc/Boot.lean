import Mathlib.Algebra.Group.Int.Defs
import YmirC.Surtrc.Page

/-!
# `YmirC.Surtrc.Boot`: how the boot loader maps the kernel (`surtrc/boot.c`)

`compute_kernel_memory_range` reads the range of the image off the program headers, and the part
of `efi_main` that follows it obtains the memory of the image and maps it page by page.
-/

set_option autoImplicit false

namespace YmirC.Surtrc

variable {φ : Type}

def EFI_PAGE_SIZE : Nat := 4096

def PT_LOAD : BitVec 32 := 1

/-- `Elf64_Phdr`, the fields the mapping of the kernel reads. -/
structure Elf64Phdr where
  pType : BitVec 32
  pVaddr : BitVec 64
  pPaddr : BitVec 64
  pMemsz : BitVec 64
  deriving DecidableEq, Repr

/-- The three results of `compute_kernel_memory_range`. -/
structure KernelRange where
  startVirt : Nat
  startPhys : Nat
  endPhys : Nat
  deriving DecidableEq, Repr

/-- The body of the loop of `compute_kernel_memory_range`. -/
def extendRange (range : KernelRange) (ph : Elf64Phdr) : KernelRange :=
  if ph.pType ≠ PT_LOAD ∨ ph.pMemsz = 0#64 then range
  else
    let segmentEnd := u64 (ph.pPaddr.toNat + ph.pMemsz.toNat)
    { startVirt := if ph.pVaddr.toNat < range.startVirt then ph.pVaddr.toNat else range.startVirt
      startPhys := if ph.pPaddr.toNat < range.startPhys then ph.pPaddr.toNat else range.startPhys
      endPhys := if segmentEnd > range.endPhys then segmentEnd else range.endPhys }

/-- `compute_kernel_memory_range`. -/
def computeKernelMemoryRange (phdr : List Elf64Phdr) : KernelRange :=
  phdr.foldl extendRange { startVirt := 2 ^ 64 - 1, startPhys := 2 ^ 64 - 1, endPhys := 0 }

/-- `pages_4kib`, the `int` the number of pages is stored in. -/
def pages4kib (range : KernelRange) : Int :=
  (BitVec.ofNat 32 (sub64 (u64 (sub64 range.endPhys range.startPhys + EFI_PAGE_SIZE)) 1
    / EFI_PAGE_SIZE)).toInt

/-- The value of an `int` passed as a `UINTN`. -/
def toUINTN (v : Int) : Nat := (v % 2 ^ 64).toNat

/-- The loop over the pages of the image. -/
def mapPages (bs : BootServices φ) (startVirt startPhys : Nat) :
    Nat → Loader φ → Load (Loader φ)
  | 0, m => .ok m
  | i + 1, m => mapPages bs startVirt startPhys i m >>=
      map4kTo bs (u64 (startVirt + i * EFI_PAGE_SIZE)) (u64 (startPhys + i * EFI_PAGE_SIZE))

/-- `efi_main`, from `compute_kernel_memory_range` to the end of the loop that maps the image. -/
def mapKernel (bs : BootServices φ) (phdr : List Elf64Phdr) (m : Loader φ) : Load (Loader φ) :=
  let range := computeKernelMemoryRange phdr
  let pages := pages4kib range
  match bs.allocatePages .address .loaderData (toUINTN pages) range.startPhys m.fw with
  | .error status => .error (.status status)
  | .ok (startPhys, fw) =>
      mapPages bs range.startVirt startPhys pages.toNat { m with fw := fw }

end YmirC.Surtrc
