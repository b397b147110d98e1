import Mathlib.Algebra.Group.Nat.Defs

/-!
# `YmirC.Panic`: how a modelled function stops

`panic` (`ymirc/panic.c`) and `svm_vcpu_abort` (`svm_vcpu.c`) never return: both end in
`endless_halt`. A modelled function therefore lives in `Run`, the `Except` over `Halt`, and
each halt keeps the text the source prints before it stops.

`Halt.loop` is the third way not to return. A `while (1)` of the source that is still going
after the inputs it was given (the interrupt windows of the `HLT` loop, the gas of a search)
ends in `Halt.loop`, so a theorem that a function returns has to rule it out.
-/

set_option autoImplicit false

namespace YmirC

/-- The levels of `log.h`. -/
inductive LogLevel where
  | debug
  | info
  | warn
  | error
  deriving DecidableEq, Repr

/-- One call of a `LOG_*` macro: its level, its format text and its numeric arguments. -/
structure Log where
  level : LogLevel
  fmt : String
  args : List (BitVec 64) := []
  deriving DecidableEq, Repr

/-- Why a modelled function did not return. -/
inductive Halt where
  /-- `panic(msg)`. -/
  | panic (msg : String)
  /-- `svm_vcpu_abort`, after the given log lines. -/
  | abort (logs : List Log)
  /-- The loop is still running after the inputs it was given. -/
  | loop
  deriving DecidableEq, Repr

/-- The result of a modelled function. -/
abbrev Run (α : Type) : Type := Except Halt α

/-- `LOG_ERROR(fmt, args...)`. -/
def logError (fmt : String) (args : List (BitVec 64)) : Log :=
  { level := .error, fmt := fmt, args := args }

/-- `LOG_INFO(fmt, args...)`. -/
def logInfo (fmt : String) (args : List (BitVec 64)) : Log :=
  { level := .info, fmt := fmt, args := args }

/-- `LOG_WARN(fmt, args...)`. -/
def logWarn (fmt : String) (args : List (BitVec 64)) : Log :=
  { level := .warn, fmt := fmt, args := args }

section Bind
variable {α β : Type}

@[simp] theorem Run.bind_ok (a : α) (f : α → Run β) :
    ((Except.ok a : Run α) >>= f) = f a := rfl

@[simp] theorem Run.bind_error (e : Halt) (f : α → Run β) :
    ((Except.error e : Run α) >>= f) = .error e := rfl

@[simp] theorem Run.pure_eq (a : α) : (pure a : Run α) = .ok a := rfl

/-- A sequence that returns went through a first part that returned. -/
theorem Run.bind_eq_ok {x : Run α} {f : α → Run β} {b : β} :
    (x >>= f) = .ok b ↔ ∃ a, x = .ok a ∧ f a = .ok b := by
  cases x with
  | error e => simp
  | ok a => simp

/-- A sequence that stops does so in its first part or behind it. -/
theorem Run.bind_eq_error {x : Run α} {f : α → Run β} {e : Halt} :
    (x >>= f) = .error e ↔ x = .error e ∨ ∃ a, x = .ok a ∧ f a = .error e := by
  cases x with
  | error e => simp
  | ok a => simp

/-- A check that stops has passed in a run that returns. -/
theorem Run.ite_error_eq_ok {c : Prop} [Decidable c] {e : Halt} {x : Run α} {a : α} :
    (if c then .error e else x) = .ok a ↔ ¬ c ∧ x = .ok a := by
  by_cases hc : c
  · simp [hc]
  · simp [hc]

/-- What is left of a run when the reason to stop is forgotten. -/
theorem Run.toOption_eq_some {x : Run α} {a : α} : x.toOption = some a ↔ x = .ok a := by
  cases x with
  | error e => simp [Except.toOption]
  | ok b => simp [Except.toOption]

theorem Run.map_eq_ok {f : α → β} {x : Run α} {b : β} :
    x.map f = .ok b ↔ ∃ a, x = .ok a ∧ f a = b := by
  cases x with
  | error e => simp [Except.map]
  | ok a => simp [Except.map]

/-- When two continuations agree up to `φ` and `ψ`, so do two sequences. -/
theorem Run.map_bind {α' β' : Type} (φ : α → α') (ψ : β → β') {f : α → Run β} {f' : α' → Run β'}
    (h : ∀ a, f' (φ a) = (f a).map ψ) (x : Run α) : (x.map φ >>= f') = (x >>= f).map ψ := by
  cases x with
  | error e => rfl
  | ok a => exact h a

end Bind

section Loop
variable {α : Type}

/-- The loop `for (i = 0; i < n; i++)` with the given body over the state `α`. -/
def Run.forRange (body : Nat → α → Run α) : (n : Nat) → α → Run α
  | 0, a => .ok a
  | n + 1, a => Run.forRange body n a >>= body n

/-- The rule of a loop invariant: what holds before round 0 and is carried from each round to
the next holds after a loop that returned. -/
theorem Run.forRange_invariant {body : Nat → α → Run α} (P : Nat → α → Prop) {a : α}
    (h0 : P 0 a) :
    ∀ n, (∀ i < n, ∀ b b', P i b → body i b = .ok b' → P (i + 1) b') →
      ∀ {a'}, Run.forRange body n a = .ok a' → P n a' := by
  intro n
  induction n with
  | zero =>
      intro _ a' h
      cases h
      exact h0
  | succ n ih =>
      intro hbody a' h
      obtain ⟨b, hb, hlast⟩ := Run.bind_eq_ok.mp h
      have hn : P n b := ih (fun i hi => hbody i (by omega)) hb
      exact hbody n (by omega) b a' hn hlast

/-- A loop that stops does so in one of its rounds, from a state with the invariant. -/
theorem Run.forRange_error {body : Nat → α → Run α} (P : Nat → α → Prop) {a : α} {e : Halt}
    (h0 : P 0 a) :
    ∀ n, (∀ i < n, ∀ b b', P i b → body i b = .ok b' → P (i + 1) b') →
      Run.forRange body n a = .error e → ∃ i < n, ∃ b, P i b ∧ body i b = .error e := by
  intro n
  induction n with
  | zero =>
      intro _ h
      cases h
  | succ n ih =>
      intro hbody h
      have hbefore : ∀ i < n, ∀ b b', P i b → body i b = .ok b' → P (i + 1) b' :=
        fun i hi => hbody i (by omega)
      rcases Run.bind_eq_error.mp h with hfirst | ⟨b, hb, hlast⟩
      · obtain ⟨i, hi, hround⟩ := ih hbefore hfirst
        exact ⟨i, by omega, hround⟩
      · exact ⟨n, by omega, b, Run.forRange_invariant P h0 n hbefore hb, hlast⟩

/-- When each round agrees up to `φ`, so does the loop. -/
theorem Run.map_forRange (φ : α → α) (body : Nat → α → Run α)
    (h : ∀ i a, body i (φ a) = (body i a).map φ) (a : α) :
    ∀ n, Run.forRange body n (φ a) = (Run.forRange body n a).map φ := by
  intro n
  induction n with
  | zero => rfl
  | succ n ih =>
      rw [Run.forRange, ih]
      exact Run.map_bind φ φ (h n) _

end Loop

end YmirC
