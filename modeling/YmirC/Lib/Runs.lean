import Mathlib.Data.List.Basic

/-!
# `YmirC.Lib.Runs`: guarded runs of a partial step function

A system is a set of initial states and a partial step function `step : σ → α → Option σ`
over actions. `Reachable init step ok` are the states of its runs whose every step meets the
guard `ok`. The guard is what lets one system carry both the unconditional statement
(`ok` is `True`) and the statement about the runs that avoid a defect.

`Reachable.invariant` is the induction every safety statement uses, and
`Reachable.of_exec` and `Reachable.exists_of_exec` turn a computed run into a reachable state.
-/

set_option autoImplicit false

namespace Runs

variable {σ α : Type}

/-- The states reached from an initial state by steps that all meet `ok`. -/
inductive Reachable (init : σ → Prop) (step : σ → α → Option σ) (ok : σ → α → Prop) :
    σ → Prop
  | start {s : σ} : init s → Reachable init step ok s
  | next {s s' : σ} {a : α} :
      Reachable init step ok s → ok s a → step s a = some s' → Reachable init step ok s'

variable {init : σ → Prop} {step : σ → α → Option σ} {ok : σ → α → Prop}

/-- What holds initially and is kept by every step that meets the guard holds in every
reachable state. -/
theorem Reachable.invariant {P : σ → Prop} (hinit : ∀ s, init s → P s)
    (hstep : ∀ s a s', P s → ok s a → step s a = some s' → P s') {s : σ}
    (h : Reachable init step ok s) : P s := by
  induction h with
  | start hs => exact hinit _ hs
  | next _ hok hs ih => exact hstep _ _ _ ih hok hs

/-- The state after a list of actions that all meet the guard, `none` when one of them does
not or is not possible. -/
def exec (step : σ → α → Option σ) (ok : σ → α → Prop) [∀ s a, Decidable (ok s a)] :
    σ → List α → Option σ
  | s, [] => some s
  | s, a :: rest => if ok s a then (step s a).bind fun s' => exec step ok s' rest else none

/-- A computed run ends in a reachable state. -/
theorem Reachable.of_exec [∀ s a, Decidable (ok s a)] :
    ∀ (as : List α) {s s' : σ}, Reachable init step ok s → exec step ok s as = some s' →
      Reachable init step ok s' := by
  intro as
  induction as with
  | nil =>
      intro s s' hs h
      cases h
      exact hs
  | cons a rest ih =>
      intro s s' hs h
      unfold exec at h
      split at h
      · rename_i hok
        obtain ⟨m, hm, hrest⟩ := Option.bind_eq_some_iff.mp h
        exact ih (.next hs hok hm) hrest
      · cases h

/-- A computed run that ends in a state with a decidable property reaches such a state. -/
theorem Reachable.exists_of_exec (step : σ → α → Option σ) (ok : σ → α → Prop)
    [∀ s a, Decidable (ok s a)] (P : σ → Prop) [DecidablePred P] (as : List α) {s : σ}
    (hs : init s)
    (h : (exec step ok s as).any (fun s' => decide (P s')) = true) :
    ∃ s', Reachable init step ok s' ∧ P s' := by
  cases hrun : exec step ok s as with
  | none =>
      rw [hrun] at h
      cases h
  | some s' =>
      rw [hrun] at h
      exact ⟨s', Reachable.of_exec as (.start hs) hrun, of_decide_eq_true h⟩

end Runs
