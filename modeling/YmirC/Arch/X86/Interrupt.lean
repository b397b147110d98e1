import YmirC.Arch.X86.Idt
import YmirC.Panic

/-!
# `YmirC.Arch.X86.Interrupt`: subscribers and handlers (`interrupt.c`)

A callback is a `κ` and a handler an `η`, the function pointers of the source. `itr_dispatch` is
the list of its calls.

Left out are the lines `unhandled_handler` logs before it halts.
-/

set_option autoImplicit false

namespace YmirC

/-- `MAX_SUBSCRIBER`. -/
abbrev MAX_SUBSCRIBER : Nat := 10

/-- `Subscriber`. -/
structure Subscriber (κ : Type) where
  self : BitVec 64
  callback : κ
  deriving DecidableEq, Repr

/-- `subscribers` and `handlers`. A slot that is not `in_use` is `none`, and so is a handler
that is null. -/
structure Interrupts (κ η : Type) where
  subscribers : Fin MAX_SUBSCRIBER → Option (Subscriber κ)
  handlers : Fin MAX_NUM_GATES → Option η

/-- A call of `itr_dispatch`, without the context it passes on. -/
inductive DispatchCall (κ η : Type) where
  | callback (callback : κ) (self : BitVec 64)
  | handler (handler : η)
  deriving DecidableEq, Repr

namespace Interrupts

variable {κ η : Type}

/-- The static data at the start. -/
def zero : Interrupts κ η where
  subscribers := fun _ => none
  handlers := fun _ => none

/-- `itr_init` without the gates: every vector gets `unhandled_handler`. -/
def itrInit (itr : Interrupts κ η) (unhandledHandler : η) : Interrupts κ η :=
  { itr with handlers := fun _ => some unhandledHandler }

/-- `register_handler`. -/
def registerHandler (itr : Interrupts κ η) (vector : BitVec 8) (handler : η) : Interrupts κ η :=
  { itr with handlers := Function.update itr.handlers vector.toFin (some handler) }

/-- The first slot that is not in use. -/
def freeSlot (itr : Interrupts κ η) : Option (Fin MAX_SUBSCRIBER) :=
  (List.finRange MAX_SUBSCRIBER).find? fun i => (itr.subscribers i).isNone

/-- `subscribe2interrupt`. -/
def subscribe2interrupt (itr : Interrupts κ η) (self : BitVec 64) (callback : κ) :
    Run (Interrupts κ η) :=
  match itr.freeSlot with
  | some i =>
      .ok { itr with subscribers := Function.update itr.subscribers i (some ⟨self, callback⟩) }
  | none => .error (.panic "Subscribers to interrupt is full.")

/-- The loop of `itr_dispatch` over the subscribers. -/
def notify (itr : Interrupts κ η) : List (DispatchCall κ η) :=
  (List.finRange MAX_SUBSCRIBER).filterMap fun i =>
    (itr.subscribers i).map fun s => .callback s.callback s.self

/-- `itr_dispatch` on a context with this vector. There is no result where the source reads
behind `handlers`, or calls a null pointer. -/
def itrDispatch (itr : Interrupts κ η) (vector : BitVec 64) : Option (List (DispatchCall κ η)) :=
  if h : vector.toNat < MAX_NUM_GATES then
    (itr.handlers ⟨vector.toNat, h⟩).map fun handler => itr.notify ++ [.handler handler]
  else none

end Interrupts

end YmirC
