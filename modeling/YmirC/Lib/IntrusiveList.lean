import YmirC.Lib.ByteMemory

/-!
# `YmirC.Lib.IntrusiveList`: linked lists threaded through memory

A free list whose links live in the free memory itself: the 64-bit word at each node is the
address of the next node, and 0 ends the list. `Chain m p l` says that following the links
from `p` gives exactly the nodes `l`.

`Chain.congr` is the frame rule: a chain depends on the link words of its nodes only.
`Chain.push` and `Chain.cons_of_ne_zero` are the two stack operations. `Chain.unique` says that
a chain is determined by its first pointer.
-/

set_option autoImplicit false

namespace IntrusiveList

open ByteMemory

/-- The address in the link word of the node at `p`. -/
def next (m : Mem) (p : Nat) : Nat := (load64 m p).toNat

/-- Following the links from `p` gives the nodes `l`. -/
def Chain (m : Mem) : Nat → List Nat → Prop
  | p, [] => p = 0
  | p, c :: l => p = c ∧ c ≠ 0 ∧ c < 2 ^ 64 ∧ Chain m (next m c) l

variable {m m' : Mem} {p : Nat} {l : List Nat}

/-- A chain that does not start with 0 has a first node, and the rest follows its link. -/
theorem Chain.cons_of_ne_zero (h : Chain m p l) (hp : p ≠ 0) :
    ∃ l', l = p :: l' ∧ p < 2 ^ 64 ∧ Chain m (next m p) l' := by
  cases l with
  | nil => exact absurd h hp
  | cons c l =>
      obtain ⟨rfl, -, hlt, hrest⟩ := h
      exact ⟨l, rfl, hlt, hrest⟩

theorem Chain.eq_nil_of_zero (h : Chain m 0 l) : l = [] := by
  cases l with
  | nil => rfl
  | cons c l => exact absurd h.1.symm h.2.1

/-- The nodes of a chain are determined by its first pointer. -/
theorem Chain.unique {l' : List Nat} (h : Chain m p l) (h' : Chain m p l') : l = l' := by
  induction l generalizing p l' with
  | nil =>
      rw [show p = 0 from h] at h'
      exact h'.eq_nil_of_zero.symm
  | cons c l ih =>
      obtain ⟨rfl, hne, -, hrest⟩ := h
      obtain ⟨l₁, rfl, -, hrest'⟩ := h'.cons_of_ne_zero hne
      rw [ih hrest hrest']

/-- Two chains of the same nodes have the same first pointer. -/
theorem Chain.first_eq {p' : Nat} (h : Chain m p l) (h' : Chain m' p' l) : p = p' := by
  cases l with
  | nil => exact Eq.trans h h'.symm
  | cons c l => exact h.1.trans h'.1.symm

/-- The first pointer is an address. -/
theorem Chain.lt (h : Chain m p l) : p < 2 ^ 64 := by
  cases l with
  | nil =>
      rw [show p = 0 from h]
      decide
  | cons c l =>
      rw [h.1]
      exact h.2.2.1

/-- A chain depends on the link words of its nodes only. -/
theorem Chain.congr : ∀ {l : List Nat} {p : Nat},
    (∀ c ∈ l, ∀ k < 8, m' (c + k) = m (c + k)) → Chain m p l → Chain m' p l := by
  intro l
  induction l with
  | nil =>
      intro p _ h
      exact h
  | cons c l ih =>
      intro p hsame h
      obtain ⟨hp, hne, hlt, hrest⟩ := h
      have hlink : next m' c = next m c := by
        unfold next
        rw [load64_congr (hsame c List.mem_cons_self)]
      refine ⟨hp, hne, hlt, ?_⟩
      rw [hlink]
      exact ih (fun d hd => hsame d (List.mem_cons_of_mem c hd)) hrest

/-- Storing the old first pointer in a fresh node puts the node in front. -/
theorem Chain.push (h : Chain m p l) {c : Nat} (hne : c ≠ 0) (hlt : c < 2 ^ 64)
    (hdisj : ∀ d ∈ l, c + 8 ≤ d ∨ d + 8 ≤ c) :
    Chain (store64 m c (BitVec.ofNat 64 p)) c (c :: l) := by
  have hlink : next (store64 m c (BitVec.ofNat 64 p)) c = p := by
    unfold next
    rw [load64_store64, BitVec.toNat_ofNat]
    exact Nat.mod_eq_of_lt h.lt
  refine ⟨rfl, hne, hlt, ?_⟩
  rw [hlink]
  refine h.congr fun d hd k hk => store64_apply_of_disjoint m c (d + k) _ ?_
  have := hdisj d hd
  omega

end IntrusiveList
