/-!
# `YmirC.Lib.Outcome`: programs that keep their state when they stop

A program in `EStateM ε σ` either returns a value or stops with a reason, and in both cases
leaves a state. Two views of such a program are related here.

* `Ends x s Q E` is its specification from the state `s`: `Q` of the value and the state when it
  returns, `E` of the reason and the state when it stops. There is one rule per construct.
* `erase x` forgets the state of a program that stopped. A program written both ways, as a
  function into `Except` and in `EStateM`, is the same program when the erasure of the second is
  the first, and then `Ends.bind` hands the equation of the first to the continuation.

`zoom` runs a program on a part of the state, and `forRange` is the counting loop.
-/

set_option autoImplicit false

namespace Outcome

variable {ε σ τ α β : Type}

/-- The program started in `s` returns with `Q` or stops with `E`. -/
def Ends (x : EStateM ε σ α) (s : σ) (Q : α → σ → Prop) (E : ε → σ → Prop) : Prop :=
  match x.run s with
  | .ok a s' => Q a s'
  | .error e s' => E e s'

/-- A result without the state of a program that stopped. -/
def forget : EStateM.Result ε σ α → Except ε (α × σ)
  | .ok a s => .ok (a, s)
  | .error e _ => .error e

/-- The program as a function, without the state it stopped in. -/
def erase (x : EStateM ε σ α) (s : σ) : Except ε (α × σ) := forget (x.run s)

/-- The program on a part of a larger state. -/
def zoom (part : τ → σ) (put : σ → τ → τ) (x : EStateM ε σ α) : EStateM ε τ α := fun t =>
  match x.run (part t) with
  | .ok a s => .ok a (put s t)
  | .error e s => .error e (put s t)

/-- The loop `for (i = 0; i < n; i++)`. -/
def forRange (body : Nat → EStateM ε σ Unit) : Nat → EStateM ε σ Unit
  | 0 => pure ()
  | n + 1 => forRange body n >>= fun _ => body n

/-- A function that does nothing before it stops, as a program. -/
def ofExcept (f : σ → Except ε (α × σ)) : EStateM ε σ α := fun s =>
  match f s with
  | .ok (a, s') => .ok a s'
  | .error e => .error e s

variable {x : EStateM ε σ α} {f : α → EStateM ε σ β} {s : σ} {Q : α → σ → Prop}
  {E : ε → σ → Prop}

/-! ### Specifications -/

theorem ends_pure (a : α) : Ends (pure a : EStateM ε σ α) s Q E ↔ Q a s := Iff.rfl

theorem ends_throw (e : ε) : Ends (throw e : EStateM ε σ α) s Q E ↔ E e s := Iff.rfl

theorem ends_modify (g : σ → σ) {P : PUnit → σ → Prop} :
    Ends (modify g : EStateM ε σ PUnit) s P E ↔ P ⟨⟩ (g s) := Iff.rfl

theorem ends_modify_bind (g : σ → σ) {k : PUnit → EStateM ε σ α} :
    Ends (modify g >>= k) s Q E ↔ Ends (k ⟨⟩) (g s) Q E := Iff.rfl

theorem ends_get_bind {k : σ → EStateM ε σ α} :
    Ends (get >>= k) s Q E ↔ Ends (k s) s Q E := Iff.rfl

theorem ends_throw_bind (e : ε) {k : α → EStateM ε σ β} {P : β → σ → Prop} :
    Ends (throw e >>= k) s P E ↔ E e s := Iff.rfl

theorem Ends.mono {Q' : α → σ → Prop} {E' : ε → σ → Prop} (h : Ends x s Q E)
    (hQ : ∀ a s', Q a s' → Q' a s') (hE : ∀ e s', E e s' → E' e s') : Ends x s Q' E' := by
  unfold Ends at *
  cases hx : x.run s with
  | ok a s' =>
      rw [hx] at h
      exact hQ a s' h
  | error e s' =>
      rw [hx] at h
      exact hE e s' h

/-- Every program ends, one way or the other. -/
theorem ends_true : Ends x s (fun _ _ => True) (fun _ _ => True) := by
  unfold Ends
  split
  · trivial
  · trivial

/-- A program ends in one way only. -/
theorem Ends.and {Q' : α → σ → Prop} {E' : ε → σ → Prop} (h : Ends x s Q E) (h' : Ends x s Q' E') :
    Ends x s (fun a s' => Q a s' ∧ Q' a s') (fun e s' => E e s' ∧ E' e s') := by
  unfold Ends at *
  cases hx : x.run s with
  | ok a s' =>
      rw [hx] at h h'
      exact ⟨h, h'⟩
  | error e s' =>
      rw [hx] at h h'
      exact ⟨h, h'⟩

/-- A program that cannot end does not exist. -/
theorem not_ends_false : ¬ Ends x s (fun _ _ => False) (fun _ _ => False) := by
  unfold Ends
  cases x.run s with
  | ok a s' => exact id
  | error e s' => exact id

/-- A function that returns, as a program. -/
theorem run_ofExcept {g : σ → Except ε (α × σ)} {a : α} {s' : σ} (hg : g s = .ok (a, s')) :
    (ofExcept g).run s = .ok a s' := by
  show ofExcept g s = _
  unfold ofExcept
  rw [hg]

/-- What the erasure returns is what the program returns. -/
theorem ends_of_erase (h : ∀ a s', erase x s = .ok (a, s') → Q a s') :
    Ends x s Q (fun _ _ => True) := by
  unfold erase at h
  unfold Ends
  cases hx : x.run s with
  | ok a s' =>
      rw [hx] at h
      exact h a s' rfl
  | error e s' => trivial

/-- A sequence whose first part returns. -/
theorem ends_bind_of_run {P : β → σ → Prop} {a : α} {s' : σ} (hx : x.run s = .ok a s') :
    Ends (x >>= f) s P E ↔ Ends (f a) s' P E := by
  have hrun : (x >>= f).run s = (f a).run s' := by
    show EStateM.bind x f s = _
    unfold EStateM.bind
    rw [show x s = _ from hx]
    rfl
  unfold Ends
  rw [hrun]

/-- The rule of sequences. The continuation is told what the erasure of the first part is. -/
theorem Ends.bind {P : β → σ → Prop} (h : Ends x s Q E)
    (hf : ∀ a s', erase x s = .ok (a, s') → Q a s' → Ends (f a) s' P E) :
    Ends (x >>= f) s P E := by
  unfold Ends at h
  unfold erase at hf
  cases hx : x.run s with
  | ok a s' =>
      rw [hx] at h hf
      exact (ends_bind_of_run hx).mpr (hf a s' rfl h)
  | error e s' =>
      rw [hx] at h
      have hrun : (x >>= f).run s = .error e s' := by
        show EStateM.bind x f s = _
        unfold EStateM.bind
        rw [show x s = _ from hx]
      unfold Ends
      rw [hrun]
      exact h

theorem run_zoom {part : τ → σ} {put : σ → τ → τ} {t : τ} {a : α} {s' : σ}
    (hx : x.run (part t) = .ok a s') : (zoom part put x).run t = .ok a (put s' t) := by
  show zoom part put x t = _
  unfold zoom
  rw [hx]

theorem Ends.zoom {part : τ → σ} {put : σ → τ → τ} {t : τ} {P : α → τ → Prop} {F : ε → τ → Prop}
    (h : Ends x (part t) (fun a s => P a (put s t)) (fun e s => F e (put s t))) :
    Ends (zoom part put x) t P F := by
  unfold Ends at *
  show (match Outcome.zoom part put x t with | .ok a s' => P a s' | .error e s' => F e s')
  unfold Outcome.zoom
  cases hx : x.run (part t) with
  | ok a s' =>
      rw [hx] at h
      exact h
  | error e s' =>
      rw [hx] at h
      exact h

/-- The rule of a loop invariant. The body may stop in a state that meets `E`. -/
theorem ends_forRange {body : Nat → EStateM ε σ Unit} (I : Nat → σ → Prop) (h0 : I 0 s) :
    ∀ n, (∀ i < n, ∀ s', I i s' → Ends (body i) s' (fun _ => I (i + 1)) E) →
      Ends (forRange body n) s (fun _ => I n) E := by
  intro n
  induction n with
  | zero => exact fun _ => h0
  | succ n ih =>
      intro hbody
      refine Ends.bind (ih fun i hi => hbody i (Nat.lt_succ_of_lt hi)) ?_
      intro _ s' _ hs'
      exact hbody n (Nat.lt_succ_self n) s' hs'

/-! ### Erasure -/

@[simp] theorem erase_pure (a : α) : erase (pure a : EStateM ε σ α) s = .ok (a, s) := rfl

@[simp] theorem erase_throw (e : ε) : erase (throw e : EStateM ε σ α) s = .error e := rfl

@[simp] theorem erase_modify (g : σ → σ) :
    erase (modify g : EStateM ε σ PUnit) s = .ok (⟨⟩, g s) := rfl

@[simp] theorem erase_get : erase (get : EStateM ε σ σ) s = .ok (s, s) := rfl

@[simp] theorem erase_ofExcept (g : σ → Except ε (α × σ)) : erase (ofExcept g) s = g s := by
  show forget (ofExcept g s) = g s
  unfold ofExcept
  cases g s with
  | ok p => rfl
  | error e => rfl

@[simp] theorem erase_bind :
    erase (x >>= f) s = (erase x s >>= fun p => erase (f p.1) p.2) := by
  show forget (EStateM.bind x f s) = _
  unfold EStateM.bind erase EStateM.run
  cases x s with
  | ok a s' => rfl
  | error e s' => rfl

@[simp] theorem erase_ite {c : Prop} [Decidable c] (y : EStateM ε σ α) :
    erase (if c then x else y) s = if c then erase x s else erase y s := by
  split
  · rfl
  · rfl

@[simp] theorem erase_zoom (part : τ → σ) (put : σ → τ → τ) (t : τ) :
    erase (zoom part put x) t = (erase x (part t)).map fun p => (p.1, put p.2 t) := by
  show forget (Outcome.zoom part put x t) = _
  unfold Outcome.zoom erase
  cases x.run (part t) with
  | ok a s' => rfl
  | error e s' => rfl

end Outcome
