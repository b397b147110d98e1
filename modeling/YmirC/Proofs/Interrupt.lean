import YmirC.Arch.X86.Interrupt

/-!
# `YmirC.Proofs.Interrupt`: `interrupt.c` keeps a list of subscribers and a handler per vector

`InterruptBook` is what the module is for: the subscribers in the order they came, ten at most,
and one handler for each vector. `Keeps` relates the two arrays to it. The slots in use are a
prefix, so that the first free slot is the end of the list (`freeSlot_eq`), and one operation of
the source is one of the book (`exec_eq`). `outputs_eq` is the same for any sequence of them.
-/

set_option autoImplicit false

namespace YmirC

variable {κ η : Type}

/-- `itr_dispatch` on the context of a vector. -/
theorem itrDispatch_eq (itr : Interrupts κ η) (v : BitVec 8) :
    itr.itrDispatch (v.setWidth 64)
      = (itr.handlers v.toFin).map fun handler => itr.notify ++ [.handler handler] := by
  have hv : (v.setWidth 64).toNat = v.toNat := by
    rw [BitVec.toNat_setWidth, Nat.mod_eq_of_lt (by omega)]
  rw [Interrupts.itrDispatch, dif_pos (by rw [hv]; exact v.isLt)]
  congr 2

/-- Subscribers, the first one first, and handlers. -/
structure InterruptBook (κ η : Type) where
  subscribers : List (Subscriber κ)
  handler : BitVec 8 → η

/-- An operation of `interrupt.c`. -/
inductive InterruptOp (κ η : Type) where
  | subscribe (self : BitVec 64) (callback : κ)
  | register (vector : BitVec 8) (handler : η)
  | dispatch (vector : BitVec 8)

/-- One operation of the source, with the calls it makes. -/
def Interrupts.exec (itr : Interrupts κ η) :
    InterruptOp κ η → Option (Run (Interrupts κ η × List (DispatchCall κ η)))
  | .subscribe self callback =>
      some ((itr.subscribe2interrupt self callback).map fun itr => (itr, []))
  | .register vector handler => some (.ok (itr.registerHandler vector handler, []))
  | .dispatch vector => (itr.itrDispatch (vector.setWidth 64)).map fun calls => .ok (itr, calls)

/-- The calls of each operation, up to a panic. -/
def Interrupts.outputs : Interrupts κ η → List (InterruptOp κ η) →
    Option (List (Run (List (DispatchCall κ η))))
  | _, [] => some []
  | itr, op :: ops =>
      (itr.exec op).bind fun
      | .ok (itr, calls) => (itr.outputs ops).map (.ok calls :: ·)
      | .error e => some [.error e]

namespace InterruptBook

/-- One operation of the book. -/
def exec (book : InterruptBook κ η) :
    InterruptOp κ η → Run (InterruptBook κ η × List (DispatchCall κ η))
  | .subscribe self callback =>
      if book.subscribers.length < MAX_SUBSCRIBER then
        .ok ({ book with subscribers := book.subscribers ++ [⟨self, callback⟩] }, [])
      else .error (.panic "Subscribers to interrupt is full.")
  | .register vector handler =>
      .ok ({ book with handler := Function.update book.handler vector handler }, [])
  | .dispatch vector =>
      .ok (book, book.subscribers.map (fun s => .callback s.callback s.self)
        ++ [.handler (book.handler vector)])

/-- The calls of each operation, up to a panic. -/
def outputs : InterruptBook κ η → List (InterruptOp κ η) → List (Run (List (DispatchCall κ η)))
  | _, [] => []
  | book, op :: ops =>
      match book.exec op with
      | .ok (book, calls) => .ok calls :: book.outputs ops
      | .error e => [.error e]

/-- The arrays hold the book. -/
structure Keeps (itr : Interrupts κ η) (book : InterruptBook κ η) : Prop where
  subscribers : ∀ i : Fin MAX_SUBSCRIBER, itr.subscribers i = book.subscribers[i.val]?
  handlers : ∀ v : BitVec 8, itr.handlers v.toFin = some (book.handler v)
  length : book.subscribers.length ≤ MAX_SUBSCRIBER

section Step
variable {itr : Interrupts κ η} {book : InterruptBook κ η}

/-- The first free slot is behind the last subscriber. -/
theorem Keeps.freeSlot (h : Keeps itr book) :
    itr.freeSlot = if hlt : book.subscribers.length < MAX_SUBSCRIBER then
      some ⟨book.subscribers.length, hlt⟩ else none := by
  have hfree : ∀ i : Fin MAX_SUBSCRIBER,
      (itr.subscribers i).isNone = decide (book.subscribers.length ≤ i.val) := by
    intro i
    rw [h.subscribers i, Bool.eq_iff_iff, Option.isNone_iff_eq_none, List.getElem?_eq_none_iff,
      decide_eq_true_eq]
  split
  · rename_i hlt
    rw [Interrupts.freeSlot, List.find?_eq_some_iff_getElem]
    refine ⟨by rw [hfree]; simp, book.subscribers.length, by simpa using hlt, by simp, ?_⟩
    intro j hj
    rw [hfree]
    simpa using hj
  · rename_i hge
    rw [Interrupts.freeSlot, List.find?_eq_none]
    intro i _
    rw [hfree]
    simp only [decide_eq_true_eq, Nat.not_le]
    exact Nat.lt_of_lt_of_le i.isLt (Nat.le_of_not_lt hge)

/-- The slots in order are the list. -/
theorem filterMap_finRange {α : Type} (l : List α) (n : Nat) :
    (List.finRange n).filterMap (fun i => l[i.val]?) = l.take n := by
  induction n with
  | zero => rfl
  | succ n ih =>
      rw [List.finRange_succ_last, List.filterMap_append, List.filterMap_map, List.take_add_one,
        ← ih]
      refine congrArg₂ (· ++ ·) rfl ?_
      simp only [Fin.val_last, List.filterMap_cons, List.filterMap_nil]
      cases l[n]? with
      | none => rfl
      | some a => rfl

/-- The loop over the subscribers calls them in order. -/
theorem Keeps.notify (h : Keeps itr book) :
    itr.notify = book.subscribers.map fun s => .callback s.callback s.self := by
  have hslots : itr.subscribers = fun i => book.subscribers[i.val]? := funext h.subscribers
  rw [Interrupts.notify, hslots, ← List.map_filterMap, filterMap_finRange,
    List.take_of_length_le h.length]

/-- One operation of the source is one of the book. -/
theorem Keeps.exec (h : Keeps itr book) (op : InterruptOp κ η) :
    match book.exec op with
    | .ok (book', calls) => ∃ itr', itr.exec op = some (.ok (itr', calls)) ∧ Keeps itr' book'
    | .error e => itr.exec op = some (.error e) := by
  cases op with
  | subscribe self callback =>
      rw [InterruptBook.exec, Interrupts.exec, Interrupts.subscribe2interrupt, h.freeSlot]
      by_cases hlt : book.subscribers.length < MAX_SUBSCRIBER
      · simp only [hlt, if_true, dif_pos]
        refine ⟨_, rfl, fun i => ?_, h.handlers, ?_⟩
        · show Function.update itr.subscribers _ _ i
            = (book.subscribers ++ [⟨self, callback⟩])[i.val]?
          by_cases hi : i = ⟨book.subscribers.length, hlt⟩
          · subst hi
            rw [Function.update_self, List.getElem?_concat_length]
          · have hne : i.val ≠ book.subscribers.length := fun heq => hi (Fin.ext heq)
            rw [Function.update_of_ne hi, h.subscribers i]
            obtain hlow | hhigh := Nat.lt_or_gt_of_ne hne
            · exact (List.getElem?_append_left hlow).symm
            · rw [List.getElem?_eq_none (Nat.le_of_lt hhigh), List.getElem?_eq_none]
              rw [List.length_append, List.length_singleton]
              exact hhigh
        · rw [List.length_append, List.length_singleton]
          exact hlt
      · simp only [hlt, if_false, dif_neg, not_false_eq_true]
        rfl
  | register vector handler =>
      refine ⟨_, rfl, h.subscribers, fun v => ?_, h.length⟩
      show Function.update itr.handlers vector.toFin (some handler) v.toFin
        = some (Function.update book.handler vector handler v)
      by_cases hv : v = vector
      · subst hv
        rw [Function.update_self, Function.update_self]
      · have hfin : v.toFin ≠ vector.toFin := fun heq => hv (BitVec.eq_of_toFin_eq heq)
        rw [Function.update_of_ne hfin, Function.update_of_ne hv, h.handlers v]
  | dispatch vector =>
      refine ⟨itr, ?_, h⟩
      rw [Interrupts.exec, itrDispatch_eq, h.handlers vector, Option.map_some, Option.map_some,
        h.notify]

/-- Any sequence of operations. -/
theorem Keeps.outputs (h : Keeps itr book) (ops : List (InterruptOp κ η)) :
    itr.outputs ops = some (book.outputs ops) := by
  induction ops generalizing itr book with
  | nil => rfl
  | cons op ops ih =>
      have hexec := h.exec op
      rw [Interrupts.outputs, InterruptBook.outputs]
      cases hbook : book.exec op with
      | ok r =>
          rw [hbook] at hexec
          obtain ⟨itr', hitr, hkeeps⟩ := hexec
          rw [hitr, Option.bind_some]
          simp only [ih hkeeps, Option.map_some]
      | error e =>
          rw [hbook] at hexec
          simp only at hexec
          rw [hexec, Option.bind_some]

end Step

end InterruptBook

/-- **The interrupt module is the book.** From `itr_init` on, any sequence of calls of
`subscribe2interrupt`, `register_handler` and `itr_dispatch` gives the calls of the book, and panics
where the book does, on the eleventh subscriber. -/
theorem interrupts_outputs (unhandledHandler : η) (ops : List (InterruptOp κ η)) :
    (Interrupts.zero.itrInit unhandledHandler).outputs ops
      = some (InterruptBook.outputs ⟨[], fun _ => unhandledHandler⟩ ops) := by
  refine InterruptBook.Keeps.outputs ⟨fun i => ?_, fun _ => rfl, ?_⟩ ops
  · rw [List.getElem?_nil]
    rfl
  · exact Nat.zero_le _

end YmirC
