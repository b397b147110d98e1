import YmirC.Lib.Extent

/-!
# `YmirC.Lib.Overwrite`: ranges written over one another

A list of writes, each a value for a range of places, is carried out in order. `after ws a x`
is the value at place `x` in the end, `a` being the value it had before. The last write that
holds the place decides (`after_eq`), which is all the lemmas below say in one way or another.
-/

set_option autoImplicit false

namespace Overwrite

variable {α : Type}

/-- The value at `x` after the writes `ws`. -/
def after (ws : List (Extent × α)) (a : α) (x : Nat) : α :=
  ws.foldl (fun b w => if x ∈ w.1 then w.2 else b) a

variable {ws ws' : List (Extent × α)} {a b : α} {x : Nat}

@[simp] theorem after_nil : after [] a x = a := rfl

@[simp] theorem after_cons (w : Extent × α) :
    after (w :: ws) a x = after ws (if x ∈ w.1 then w.2 else a) x := rfl

theorem after_append : after (ws ++ ws') a x = after ws' (after ws a x) x :=
  List.foldl_append

/-- Writes that do not hold the place leave it as it was. -/
theorem after_of_notMem (h : ∀ w ∈ ws, x ∉ w.1) : after ws a x = a := by
  induction ws with
  | nil => rfl
  | cons w ws ih =>
      rw [after_cons, if_neg (h w List.mem_cons_self)]
      exact ih fun w' hw' => h w' (List.mem_cons_of_mem w hw')

/-- When every write that holds the place writes `b` there, the place keeps a `b`. -/
theorem after_of_forall (h : ∀ w ∈ ws, x ∈ w.1 → w.2 = b) : after ws b x = b := by
  induction ws with
  | nil => rfl
  | cons w ws ih =>
      have hw : (if x ∈ w.1 then w.2 else b) = b := by
        split
        · rename_i hx
          exact h w List.mem_cons_self hx
        · rfl
      rw [after_cons, hw]
      exact ih fun w' hw' => h w' (List.mem_cons_of_mem w hw')

/-- Among disjoint writes, the one that holds the place decides. -/
theorem after_of_mem (hdisj : ws.Pairwise fun w w' => w.1.Disjoint w'.1) {w : Extent × α}
    (hw : w ∈ ws) (hx : x ∈ w.1) : after ws a x = w.2 := by
  obtain ⟨pre, post, rfl⟩ := List.append_of_mem hw
  have hpost := (List.pairwise_cons.mp (List.pairwise_append.mp hdisj).2.1).1
  rw [after_append, after_cons, if_pos hx]
  exact after_of_notMem fun w' hw' => hpost w' hw' x hx

/-- The value in the end is that of the last write that holds the place, or the one it had
before when there is none. -/
theorem after_eq (ws : List (Extent × α)) (a : α) (x : Nat) :
    (∃ pre w post, ws = pre ++ w :: post ∧ x ∈ w.1 ∧ after ws a x = w.2 ∧
      ∀ w' ∈ post, x ∉ w'.1) ∨
    (after ws a x = a ∧ ∀ w ∈ ws, x ∉ w.1) := by
  induction ws generalizing a with
  | nil => exact .inr ⟨rfl, fun w hw => absurd hw List.not_mem_nil⟩
  | cons w ws ih =>
      rcases ih (if x ∈ w.1 then w.2 else a) with
        ⟨pre, w', post, rfl, hx, hval, hlast⟩ | ⟨hval, hnone⟩
      · exact .inl ⟨w :: pre, w', post, rfl, hx, hval, hlast⟩
      · by_cases hx : x ∈ w.1
        · rw [if_pos hx] at hval
          exact .inl ⟨[], w, ws, rfl, hx, by rw [after_cons, if_pos hx, hval], hnone⟩
        · rw [if_neg hx] at hval
          refine .inr ⟨by rw [after_cons, if_neg hx, hval], fun w' hw' => ?_⟩
          rcases List.mem_cons.mp hw' with rfl | hw'
          · exact hx
          · exact hnone w' hw'

end Overwrite
