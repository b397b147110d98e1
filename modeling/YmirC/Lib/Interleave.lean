import Mathlib.Logic.Relation

/-!
# `YmirC.Lib.Interleave`: a program of atomic steps among other moves

The machine state `σ` changes in two ways. A program takes atomic steps, and between any two of
them the rest of the machine makes any number of moves (`move`). `Steps` are the runs of both
together.

`Spec move good P p Q` says that such a run from a state with `P` is in a `good` state all along,
and that `Q` holds of the result and the state when the program has returned. There is one rule
per construct. In each the assertion in front of the construct is `Stable`: the moves keep it.

A `poll` waits for the machine, and goes on when the moves have brought the answer it stops at.
`Spec.returns` says when no run of a program is stuck in one: in every good state some moves lead
to that answer.
-/

set_option autoImplicit false

namespace Interleave

/-- A program. `ask` goes on with the answer of its step, and `poll` takes its step until it
stops. -/
inductive Prog (σ β α : Type) where
  | ret (a : α)
  | act (f : σ → σ) (next : Prog σ β α)
  | ask (f : σ → β × σ) (next : β → Prog σ β α)
  | poll (f : σ → β × σ) (stop : β → Bool) (next : β → Prog σ β α)

variable {σ β α γ : Type}

namespace Prog

/-- One program behind the other. -/
def bind : Prog σ β α → (α → Prog σ β γ) → Prog σ β γ
  | ret a, k => k a
  | act f next, k => act f (next.bind k)
  | ask f next, k => ask f fun b => (next b).bind k
  | poll f stop next, k => poll f stop fun b => (next b).bind k

instance : Monad (Prog σ β) where
  pure := ret
  bind := bind

/-- A single step. -/
def step (f : σ → σ) : Prog σ β Unit := act f (ret ())

/-- A single step with an answer. -/
def query (f : σ → β × σ) : Prog σ β β := ask f ret

/-- A single step until it stops. -/
def await (f : σ → β × σ) (stop : β → Bool) : Prog σ β β := poll f stop ret

/-- The program alone. There is no result where it waits for a move. -/
def run : Prog σ β α → σ → Option (α × σ)
  | ret a, s => some (a, s)
  | act f next, s => next.run (f s)
  | ask f next, s => (next (f s).1).run (f s).2
  | poll f stop next, s => if stop (f s).1 then (next (f s).1).run (f s).2 else none

end Prog

/-! ### Runs -/

section Runs
variable (move : σ → σ → Prop)

/-- A step of the program or a move. -/
inductive Step : Prog σ β α × σ → Prog σ β α × σ → Prop
  | move {p : Prog σ β α} {s s' : σ} : move s s' → Step (p, s) (p, s')
  | act {f : σ → σ} {next : Prog σ β α} {s : σ} : Step (.act f next, s) (next, f s)
  | ask {f : σ → β × σ} {next : β → Prog σ β α} {s : σ} :
      Step (.ask f next, s) (next (f s).1, (f s).2)
  | stop {f : σ → β × σ} {stop : β → Bool} {next : β → Prog σ β α} {s : σ} :
      stop (f s).1 = true → Step (.poll f stop next, s) (next (f s).1, (f s).2)
  | again {f : σ → β × σ} {stop : β → Bool} {next : β → Prog σ β α} {s : σ} :
      stop (f s).1 = false → Step (.poll f stop next, s) (.poll f stop next, (f s).2)

/-- Any number of them. -/
abbrev Steps : Prog σ β α × σ → Prog σ β α × σ → Prop := Relation.ReflTransGen (Step move)

/-- The moves keep `P`. -/
def Stable (P : σ → Prop) : Prop := ∀ s s', P s → move s s' → P s'

/-- Every run from `s` is good, and ends with `Q` when the program returns. A `poll` keeps an
assertion of its own. -/
def wp (good : σ → Prop) : Prog σ β α → (α → σ → Prop) → σ → Prop
  | .ret a, Q, s => ∀ s', Relation.ReflTransGen move s s' → good s' ∧ Q a s'
  | .act f next, Q, s => ∀ s', Relation.ReflTransGen move s s' → good s' ∧ wp good next Q (f s')
  | .ask f next, Q, s =>
      ∀ s', Relation.ReflTransGen move s s' → good s' ∧ wp good (next (f s').1) Q (f s').2
  | .poll f stop next, Q, s =>
      ∃ I : σ → Prop, Stable move I ∧ I s ∧ ∀ s', I s' → good s' ∧
        (stop (f s').1 = true → wp good (next (f s').1) Q (f s').2) ∧
        (stop (f s').1 = false → I (f s').2)

/-- The specification of a program between two assertions. -/
def Spec (good P : σ → Prop) (p : Prog σ β α) (Q : α → σ → Prop) : Prop :=
  ∀ s, P s → wp move good p Q s

end Runs

variable {move : σ → σ → Prop} {good P : σ → Prop} {Q : α → σ → Prop}

theorem Stable.moves (h : Stable move P) {s s' : σ} (hs : P s)
    (hmoves : Relation.ReflTransGen move s s') : P s' := by
  induction hmoves with
  | refl => exact hs
  | tail _ hmove ih => exact h _ _ ih hmove

/-! ### Soundness -/

theorem wp_good {p : Prog σ β α} {s : σ} (h : wp move good p Q s) : good s := by
  cases p with
  | ret a => exact (h s .refl).1
  | act f next => exact (h s .refl).1
  | ask f next => exact (h s .refl).1
  | poll f stop next =>
      obtain ⟨I, -, hI, hall⟩ := h
      exact (hall s hI).1

theorem wp_move {p : Prog σ β α} {s s' : σ} (h : wp move good p Q s) (hmove : move s s') :
    wp move good p Q s' := by
  cases p with
  | ret a => exact fun t ht => h t (.head hmove ht)
  | act f next => exact fun t ht => h t (.head hmove ht)
  | ask f next => exact fun t ht => h t (.head hmove ht)
  | poll f stop next =>
      obtain ⟨I, hstable, hI, hall⟩ := h
      exact ⟨I, hstable, hstable s s' hI hmove, hall⟩

/-- One step. -/
theorem wp_step {c c' : Prog σ β α × σ} (hstep : Step move c c') (h : wp move good c.1 Q c.2) :
    wp move good c'.1 Q c'.2 := by
  cases hstep with
  | move hmove => exact wp_move h hmove
  | act => exact (h _ .refl).2
  | ask => exact (h _ .refl).2
  | stop hstop =>
      obtain ⟨I, -, hI, hall⟩ := h
      exact (hall _ hI).2.1 hstop
  | again hagain =>
      obtain ⟨I, hstable, hI, hall⟩ := h
      exact ⟨I, hstable, (hall _ hI).2.2 hagain, hall⟩

theorem wp_steps {c c' : Prog σ β α × σ} (hsteps : Steps move c c') (h : wp move good c.1 Q c.2) :
    wp move good c'.1 Q c'.2 := by
  induction hsteps with
  | refl => exact h
  | tail _ hstep ih => exact wp_step hstep ih

/-- A specification speaks of every run. -/
theorem Spec.sound {p p' : Prog σ β α} {s s' : σ} (h : Spec move good P p Q) (hs : P s)
    (hsteps : Steps move (p, s) (p', s')) : good s' ∧ ∀ a, p' = .ret a → Q a s' := by
  have hwp : wp move good p' Q s' := wp_steps hsteps (h s hs)
  refine ⟨wp_good hwp, ?_⟩
  rintro a rfl
  exact (hwp s' .refl).2

/-- The program alone is one of the runs. -/
theorem steps_run {p : Prog σ β α} {s s' : σ} {a : α} (h : p.run s = some (a, s')) :
    Steps move (p, s) (.ret a, s') := by
  induction p generalizing s with
  | ret b =>
      cases h
      exact .refl
  | act f next ih => exact .head .act (ih h)
  | ask f next ih => exact .head .ask (ih _ h)
  | poll f stop next ih =>
      rw [Prog.run] at h
      split at h
      · exact .head (.stop ‹_›) (ih _ h)
      · cases h

/-! ### Rules -/

theorem Spec.ret {a : α} (hstable : Stable move P) (hgood : ∀ s, P s → good s)
    (hQ : ∀ s, P s → Q a s) : Spec move good P (.ret a : Prog σ β α) Q := by
  intro s hs s' hmoves
  have hs' := hstable.moves hs hmoves
  exact ⟨hgood s' hs', hQ s' hs'⟩

theorem Spec.act {f : σ → σ} {next : Prog σ β α} {R : σ → Prop} (hstable : Stable move P)
    (hgood : ∀ s, P s → good s) (hf : ∀ s, P s → R (f s)) (hnext : Spec move good R next Q) :
    Spec move good P (.act f next) Q := by
  intro s hs s' hmoves
  have hs' := hstable.moves hs hmoves
  exact ⟨hgood s' hs', hnext _ (hf s' hs')⟩

theorem Spec.ask {f : σ → β × σ} {next : β → Prog σ β α} {R : β → σ → Prop}
    (hstable : Stable move P) (hgood : ∀ s, P s → good s) (hf : ∀ s, P s → R (f s).1 (f s).2)
    (hnext : ∀ b, Spec move good (R b) (next b) Q) : Spec move good P (.ask f next) Q := by
  intro s hs s' hmoves
  have hs' := hstable.moves hs hmoves
  exact ⟨hgood s' hs', hnext _ _ (hf s' hs')⟩

theorem Spec.poll {f : σ → β × σ} {stop : β → Bool} {next : β → Prog σ β α} {R : β → σ → Prop}
    (hstable : Stable move P) (hgood : ∀ s, P s → good s)
    (hagain : ∀ s, P s → stop (f s).1 = false → P (f s).2)
    (hstop : ∀ s, P s → stop (f s).1 = true → R (f s).1 (f s).2)
    (hnext : ∀ b, Spec move good (R b) (next b) Q) : Spec move good P (.poll f stop next) Q :=
  fun _ hs => ⟨P, hstable, hs, fun s' hs' =>
    ⟨hgood s' hs', fun h => hnext _ _ (hstop s' hs' h), hagain s' hs'⟩⟩

theorem Spec.bind {p : Prog σ β α} {k : α → Prog σ β γ} {R : α → σ → Prop} {Q : γ → σ → Prop}
    (hp : Spec move good P p R) (hk : ∀ a, Spec move good (R a) (k a) Q) :
    Spec move good P (p >>= k) Q := by
  induction p generalizing P with
  | ret a =>
      intro s hs
      exact hk a s ((hp s hs) s .refl).2
  | act f next ih =>
      intro s hs s' hmoves
      obtain ⟨hgood, hnext⟩ := hp s hs s' hmoves
      have hrest := ih (P := fun t => wp move good next R t) fun t ht => ht
      exact ⟨hgood, hrest _ hnext⟩
  | ask f next ih =>
      intro s hs s' hmoves
      obtain ⟨hgood, hnext⟩ := hp s hs s' hmoves
      have hrest := ih (f s').1 (P := fun t => wp move good (next (f s').1) R t) fun t ht => ht
      exact ⟨hgood, hrest _ hnext⟩
  | poll f stop next ih =>
      intro s hs
      obtain ⟨I, hstable, hI, hall⟩ := hp s hs
      refine ⟨I, hstable, hI, fun t ht => ?_⟩
      obtain ⟨hgood, hnext, hagain⟩ := hall t ht
      have hrest := ih (f t).1 (P := fun u => wp move good (next (f t).1) R u) fun u hu => hu
      exact ⟨hgood, fun h => hrest _ (hnext h), hagain⟩

/-! ### Waiting -/

section Waiting
variable (move good)

/-- In every good state some moves lead to an answer the `poll` stops at. -/
def Answered (f : σ → β × σ) (stop : β → Bool) : Prop :=
  ∀ s, good s → ∃ s', Relation.ReflTransGen move s s' ∧ stop (f s').1 = true

/-- Every `poll` of the program is answered. -/
def Prog.Waits : Prog σ β α → Prop
  | .ret _ => True
  | .act _ next => next.Waits
  | .ask _ next => ∀ b, (next b).Waits
  | .poll f stop next => Answered move good f stop ∧ ∀ b, (next b).Waits

end Waiting

theorem Prog.Waits.bind {p : Prog σ β α} {k : α → Prog σ β γ} (hp : p.Waits move good)
    (hk : ∀ a, (k a).Waits move good) : (p >>= k).Waits move good := by
  induction p with
  | ret a => exact hk a
  | act f next ih => exact ih hp
  | ask f next ih => exact fun b => ih b (hp b)
  | poll f stop next ih => exact ⟨hp.1, fun b => ih b (hp.2 b)⟩

theorem Prog.Waits.step {c c' : Prog σ β α × σ} (hstep : Step move c c')
    (h : c.1.Waits move good) : c'.1.Waits move good := by
  cases hstep with
  | move _ => exact h
  | act => exact h
  | ask => exact h _
  | stop _ => exact h.2 _
  | again _ => exact h

theorem steps_moves {p : Prog σ β α} {s s' : σ} (h : Relation.ReflTransGen move s s') :
    Steps move (p, s) (p, s') := by
  induction h with
  | refl => exact .refl
  | tail _ hmove ih => exact .tail ih (.move hmove)

/-- A program whose polls are answered can return. -/
theorem exists_return {p : Prog σ β α} {s : σ} (h : wp move good p Q s)
    (hwaits : p.Waits move good) : ∃ a s', Steps move (p, s) (.ret a, s') ∧ Q a s' := by
  induction p generalizing s with
  | ret a => exact ⟨a, s, .refl, (h s .refl).2⟩
  | act f next ih =>
      obtain ⟨a, s', hsteps, hQ⟩ := ih (h s .refl).2 hwaits
      exact ⟨a, s', .head .act hsteps, hQ⟩
  | ask f next ih =>
      obtain ⟨a, s', hsteps, hQ⟩ := ih _ (h s .refl).2 (hwaits _)
      exact ⟨a, s', .head .ask hsteps, hQ⟩
  | poll f stop next ih =>
      obtain ⟨t, hmoves, hstop⟩ := hwaits.1 s (wp_good h)
      have ht : wp move good (.poll f stop next) Q t := wp_steps (steps_moves hmoves) h
      obtain ⟨a, s', hsteps, hQ⟩ := ih _ (wp_step (.stop hstop) ht) (hwaits.2 _)
      exact ⟨a, s', (steps_moves hmoves).trans (.head (.stop hstop) hsteps), hQ⟩

/-- No run is stuck: from wherever it is the program can return. -/
theorem Spec.returns {p p' : Prog σ β α} {s s' : σ} (h : Spec move good P p Q) (hs : P s)
    (hwaits : p.Waits move good) (hsteps : Steps move (p, s) (p', s')) :
    ∃ a s'', Steps move (p', s') (.ret a, s'') ∧ Q a s'' := by
  have hwaits' : p'.Waits move good := by
    generalize hc : (p', s') = c at hsteps
    have hrun : c.1.Waits move good := by
      clear hc
      induction hsteps with
      | refl => exact hwaits
      | tail _ hstep ih => exact ih.step hstep
    rw [← hc] at hrun
    exact hrun
  exact exists_return (wp_steps hsteps (h s hs)) hwaits'

end Interleave
