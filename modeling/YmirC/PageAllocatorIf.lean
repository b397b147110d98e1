import YmirC.Panic

/-!
# `YmirC.PageAllocatorIf`: the interface of the page allocator

`page_allocator_ops_t` is a record of three function pointers. The functions behind them work
on global state, which is the type `σ` here.
-/

set_option autoImplicit false

namespace YmirC

/-- `page_allocator_ops_t`. A pointer result is an address, 0 for `NULL`. -/
structure PageAllocatorOps (σ : Type) where
  alloc : (n : Nat) → σ → Run (Nat × σ)
  free : (ptr n : Nat) → σ → Run σ
  allocAlignedPages : (numPages alignSize : Nat) → σ → Run (Nat × σ)

end YmirC
