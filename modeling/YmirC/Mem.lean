import YmirC.Lib.ByteMemory

/-!
# `YmirC.Mem`: addresses of `ymirc/mem.h` and `ymirc/mem.c`

An address is a `Nat` below `2 ^ 64`. The source computes with `uintptr_t`, so every sum and
difference that can leave that range goes through `u64`. A pointer is the address it holds
and `NULL` is 0.

`virt2phys` and `phys2virt` read the global `mapping_reconstructed`, which is their first
argument here.
-/

set_option autoImplicit false

namespace YmirC

/-- The value of an unsigned 64-bit expression. -/
def u64 (n : Nat) : Nat := n % 2 ^ 64

/-- The unsigned 64-bit difference `a - b`. -/
def sub64 (a b : Nat) : Nat := u64 (a + 2 ^ 64 - u64 b)

def PAGE_SIZE : Nat := 4096
def PAGE_SIZE_2MB : Nat := PAGE_SIZE * 2 ^ 9
def PAGE_MASK : Nat := PAGE_SIZE - 1

def DIRECT_MAP_BASE : Nat := 0xFFFF888000000000
def DIRECT_MAP_SIZE : Nat := 512 * 1024 * 1024 * 1024
def KERNEL_BASE : Nat := 0xFFFFFFFF80000000

/-- `virt2phys`. -/
def virt2phys (reconstructed : Bool) (addr : Nat) : Nat :=
  if !reconstructed then addr
  else if addr < KERNEL_BASE then sub64 addr DIRECT_MAP_BASE
  else sub64 addr KERNEL_BASE

/-- `phys2virt`. -/
def phys2virt (reconstructed : Bool) (addr : Nat) : Nat :=
  if !reconstructed then addr else u64 (addr + DIRECT_MAP_BASE)

end YmirC
