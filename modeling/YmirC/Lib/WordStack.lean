import YmirC.Lib.ByteMemory

/-!
# `YmirC.Lib.WordStack`: a stack of 64-bit words that grows downward

Memory has a byte at every 64-bit address, and address arithmetic wraps. `StackAt m sp ws` says
that the words from `sp` upward are `ws`. A push puts a word in front (`StackAt.push`), as long
as the stack does not go once around memory, and whatever leaves the bytes of a stack alone
leaves the stack alone (`StackAt.congr`).
-/

set_option autoImplicit false

namespace WordStack

/-- The byte at each address. -/
abbrev Memory : Type := BitVec 64 → BitVec 8

/-- The word at `a`, lowest byte first. -/
def load (m : Memory) (a : BitVec 64) : BitVec 64 :=
  ByteMemory.load64 (fun i => m (a + BitVec.ofNat 64 i)) 0

/-- Memory with the word `v` at `a`. -/
def store (m : Memory) (a v : BitVec 64) : Memory := fun b =>
  if (b - a).toNat < 8 then v.extractLsb' (8 * (b - a).toNat) 8 else m b

/-- The 128-bit value at `a`, lowest byte first. -/
def load128 (m : Memory) (a : BitVec 64) : BitVec 128 := load m (a + 8#64) ++ load m a

/-- Memory with the 128-bit value `v` at `a`. -/
def store128 (m : Memory) (a : BitVec 64) (v : BitVec 128) : Memory :=
  store (store m a (v.extractLsb' 0 64)) (a + 8#64) (v.extractLsb' 64 64)

/-- Memory with words at places of a record at `a`: the word number `i` becomes `v` for each
`(i, v)`, in order. -/
def storeAll (m : Memory) (a : BitVec 64) : List (Nat × BitVec 64) → Memory
  | [] => m
  | (i, v) :: vs => storeAll (store m (a + BitVec.ofNat 64 (8 * i)) v) a vs

/-- A list with elements replaced, in order. -/
def setAll {α : Type} (ws : List α) : List (Nat × α) → List α
  | [] => ws
  | (i, v) :: vs => setAll (ws.set i v) vs

/-- The words from `a` upward. -/
def loads (m : Memory) (a : BitVec 64) : Nat → List (BitVec 64)
  | 0 => []
  | n + 1 => load m a :: loads m (a + 8#64) n

/-- The words from `sp` upward are `ws`. -/
def StackAt (m : Memory) (sp : BitVec 64) : List (BitVec 64) → Prop
  | [] => True
  | w :: ws => load m sp = w ∧ StackAt m (sp + 8#64) ws

/-! ### Words -/

theorem toNat_add_ofNat_sub (a : BitVec 64) {k : Nat} (hk : k < 8) :
    (a + BitVec.ofNat 64 k - a).toNat = k := by
  have hsub : a + BitVec.ofNat 64 k - a = BitVec.ofNat 64 k := by
    rw [BitVec.add_comm, BitVec.add_sub_cancel]
  rw [hsub, BitVec.toNat_ofNat]
  omega

/-- A word depends on its eight bytes only. -/
theorem load_congr {m m' : Memory} {a : BitVec 64} (h : ∀ b, (b - a).toNat < 8 → m b = m' b) :
    load m a = load m' a := by
  apply ByteMemory.load64_congr
  intro k hk
  have hb : (a + BitVec.ofNat 64 (0 + k) - a).toNat < 8 := by
    rw [Nat.zero_add, toNat_add_ofNat_sub a hk]
    exact hk
  exact h _ hb

/-- A load sees the store at its own address. -/
@[simp] theorem load_store (m : Memory) (a v : BitVec 64) : load (store m a v) a = v := by
  have hbytes : load (store m a v) a
      = ByteMemory.load64 (ByteMemory.store64 (fun _ => 0#8) 0 v) 0 := by
    apply ByteMemory.load64_congr
    intro k hk
    have hin : 0 ≤ k ∧ k < 0 + 8 := by omega
    simp only [Nat.zero_add, store, ByteMemory.store64, ByteMemory.storeBytes,
      toNat_add_ofNat_sub a hk, if_pos hk, if_pos hin, Nat.sub_zero]
  rw [hbytes, ByteMemory.load64_store64]

/-! ### Stacks -/

@[simp] theorem stackAt_nil (m : Memory) (sp : BitVec 64) : StackAt m sp [] := trivial

@[simp] theorem stackAt_cons (m : Memory) (sp w : BitVec 64) (ws : List (BitVec 64)) :
    StackAt m sp (w :: ws) ↔ load m sp = w ∧ StackAt m (sp + 8#64) ws := Iff.rfl

/-- A stack depends on its bytes only. -/
theorem StackAt.congr {m m' : Memory} {ws : List (BitVec 64)} {sp : BitVec 64}
    (h : StackAt m sp ws) (hsame : ∀ b, (b - sp).toNat < 8 * ws.length → m' b = m b) :
    StackAt m' sp ws := by
  induction ws generalizing sp with
  | nil => trivial
  | cons w ws ih =>
      simp only [List.length_cons] at hsame
      refine ⟨?_, ih h.2 ?_⟩
      · rw [← h.1]
        exact load_congr fun b hb => hsame b (by omega)
      · intro b hb
        exact hsame b (by bv_omega)

/-- A store below a stack, as long as the stack does not come around to it. -/
theorem StackAt.store_below {m : Memory} {sp a : BitVec 64} {ws : List (BitVec 64)}
    (h : StackAt m sp ws) (v : BitVec 64) (hbelow : 8 ≤ (sp - a).toNat)
    (hlen : 8 * ws.length + (sp - a).toNat ≤ 2 ^ 64) : StackAt (store m a v) sp ws := by
  apply h.congr
  intro b hb
  have hout : ¬ (b - a).toNat < 8 := by bv_omega
  rw [store, if_neg hout]

/-- A push. -/
theorem StackAt.push {m : Memory} {sp : BitVec 64} {ws : List (BitVec 64)} (h : StackAt m sp ws)
    (w : BitVec 64) (hlen : 8 * ws.length + 8 ≤ 2 ^ 64) :
    StackAt (store m (sp - 8#64) w) (sp - 8#64) (w :: ws) := by
  have hword : (sp - (sp - 8#64)).toNat = 8 := by bv_omega
  refine ⟨load_store m (sp - 8#64) w, ?_⟩
  rw [BitVec.sub_add_cancel]
  exact h.store_below w (by omega) (by omega)

theorem stackAt_append (m : Memory) (sp : BitVec 64) (us ws : List (BitVec 64)) :
    StackAt m sp (us ++ ws) ↔
      StackAt m sp us ∧ StackAt m (sp + BitVec.ofNat 64 (8 * us.length)) ws := by
  induction us generalizing sp with
  | nil => simp
  | cons u us ih =>
      have hadd : sp + BitVec.ofNat 64 (8 * (us.length + 1))
          = sp + 8#64 + BitVec.ofNat 64 (8 * us.length) := by
        rw [Nat.mul_add, BitVec.ofNat_add, BitVec.add_comm (BitVec.ofNat 64 (8 * us.length)),
          ← BitVec.add_assoc]
      rw [List.cons_append, stackAt_cons, stackAt_cons, ih, List.length_cons, hadd, and_assoc]

@[simp] theorem loads_length (m : Memory) (a : BitVec 64) (n : Nat) : (loads m a n).length = n := by
  induction n generalizing a with
  | zero => rfl
  | succ n ih => rw [loads, List.length_cons, ih]

theorem stackAt_loads (m : Memory) (a : BitVec 64) (n : Nat) : StackAt m a (loads m a n) := by
  induction n generalizing a with
  | zero => trivial
  | succ n ih => exact ⟨rfl, ih (a + 8#64)⟩

/-! ### Records

A record of words at `a` is a stack whose top is at `a`. Its fields are read and written at their
places. -/

/-- A field of a record. -/
theorem StackAt.load {m : Memory} {a : BitVec 64} {ws : List (BitVec 64)} (h : StackAt m a ws)
    {i : Nat} (hi : i < ws.length) : WordStack.load m (a + BitVec.ofNat 64 (8 * i)) = ws[i] := by
  have hsplit := h
  rw [← List.take_append_drop i ws, stackAt_append] at hsplit
  have hrest := hsplit.2
  rw [List.length_take_of_le (Nat.le_of_lt hi), List.drop_eq_getElem_cons hi] at hrest
  exact hrest.1

/-- Two fields of a record, read as one value. -/
theorem StackAt.load128 {m : Memory} {a : BitVec 64} {ws : List (BitVec 64)} (h : StackAt m a ws)
    {i : Nat} (hi : i + 1 < ws.length) :
    WordStack.load128 m (a + BitVec.ofNat 64 (8 * i)) = ws[i + 1] ++ ws[i] := by
  have hnext : a + BitVec.ofNat 64 (8 * i) + 8#64 = a + BitVec.ofNat 64 (8 * (i + 1)) := by
    bv_omega
  rw [WordStack.load128, hnext, h.load hi, h.load (Nat.lt_of_succ_lt hi)]

/-- The halves of a value, put together. -/
theorem append_halves (x : BitVec 128) :
    (x.extractLsb' 64 64 ++ x.extractLsb' 0 64 : BitVec (64 + 64)) = x :=
  (BitVec.extractLsb'_append_extractLsb'_eq_extractLsb' (show 64 = 0 + 64 from rfl)).trans
    BitVec.extractLsb'_eq_self

/-- A store above a stack, as long as it does not come around to it. -/
theorem StackAt.store_above {m : Memory} {sp a : BitVec 64} {ws : List (BitVec 64)}
    (h : StackAt m sp ws) (v : BitVec 64) (habove : 8 * ws.length ≤ (a - sp).toNat)
    (hlen : (a - sp).toNat + 8 ≤ 2 ^ 64) : StackAt (store m a v) sp ws := by
  apply h.congr
  intro b hb
  have hout : ¬ (b - a).toNat < 8 := by bv_omega
  rw [store, if_neg hout]

/-- A field of a record is written. -/
theorem StackAt.set {m : Memory} {a : BitVec 64} {ws : List (BitVec 64)} (h : StackAt m a ws)
    (v : BitVec 64) {i : Nat} (hi : i < ws.length) (hlen : 8 * ws.length ≤ 2 ^ 64) :
    StackAt (store m (a + BitVec.ofNat 64 (8 * i)) v) a (ws.set i v) := by
  induction ws generalizing a i with
  | nil => exact absurd hi (Nat.not_lt_zero i)
  | cons w ws ih =>
      rw [List.length_cons] at hi hlen
      cases i with
      | zero =>
          have hself : a + BitVec.ofNat 64 (8 * 0) = a := by simp
          rw [hself]
          refine ⟨load_store m a v, h.2.store_below v ?_ ?_⟩ <;> bv_omega
      | succ i =>
          have haddr : a + BitVec.ofNat 64 (8 * (i + 1)) = a + 8#64 + BitVec.ofNat 64 (8 * i) := by
            rw [Nat.mul_add, BitVec.ofNat_add, BitVec.add_comm (BitVec.ofNat 64 (8 * i)),
              ← BitVec.add_assoc]
          have hbelow : StackAt m a [w] := ⟨h.1, trivial⟩
          have hfirst := hbelow.store_above (a := a + BitVec.ofNat 64 (8 * (i + 1))) v
            (by rw [List.length_singleton]; bv_omega) (by bv_omega)
          rw [haddr] at hfirst ⊢
          exact ⟨hfirst.1, ih h.2 (by omega) (by omega)⟩

/-- Fields of a record are written one after the other. -/
theorem StackAt.storeAll {m : Memory} {a : BitVec 64} {ws : List (BitVec 64)}
    (h : StackAt m a ws) (vs : List (Nat × BitVec 64)) (hvs : ∀ x ∈ vs, x.1 < ws.length)
    (hlen : 8 * ws.length ≤ 2 ^ 64) : StackAt (WordStack.storeAll m a vs) a (setAll ws vs) := by
  induction vs generalizing m ws with
  | nil => exact h
  | cons x vs ih =>
      have hset := h.set x.2 (hvs x List.mem_cons_self) hlen
      refine ih hset ?_ ?_
      · intro y hy
        rw [List.length_set]
        exact hvs y (List.mem_cons_of_mem _ hy)
      · rw [List.length_set]
        exact hlen

/-- Bytes outside a record keep their values. -/
theorem storeAll_apply (m : Memory) {a b : BitVec 64} {n : Nat} (vs : List (Nat × BitVec 64))
    (hvs : ∀ x ∈ vs, x.1 < n) (hb : 8 * n ≤ (b - a).toNat) : storeAll m a vs b = m b := by
  induction vs generalizing m with
  | nil => rfl
  | cons x vs ih =>
      have hx := hvs x List.mem_cons_self
      rw [storeAll, ih _ fun y hy => hvs y (List.mem_cons_of_mem _ hy)]
      have hout : ¬ (b - (a + BitVec.ofNat 64 (8 * x.1))).toNat < 8 := by bv_omega
      rw [store, if_neg hout]

theorem storeAll_append (m : Memory) (a : BitVec 64) (us vs : List (Nat × BitVec 64)) :
    storeAll m a (us ++ vs) = storeAll (storeAll m a us) a vs := by
  induction us generalizing m with
  | nil => rfl
  | cons u us ih => exact ih _

/-- Replacements that agree with a list of the same length. -/
theorem setAll_getElem? {α : Type} {ws us : List α} (vs : List (Nat × α))
    (hlen : ws.length = us.length) (hvs : ∀ x ∈ vs, us[x.1]? = some x.2) (j : Nat) :
    (setAll ws vs)[j]? = if j ∈ vs.map Prod.fst then us[j]? else ws[j]? := by
  induction vs generalizing ws with
  | nil => rfl
  | cons x vs ih =>
      have hx := hvs x List.mem_cons_self
      rw [setAll, ih (by rw [List.length_set, hlen]) fun y hy => hvs y (List.mem_cons_of_mem _ hy),
        List.map_cons]
      by_cases hin : j ∈ vs.map Prod.fst
      · rw [if_pos hin, if_pos (List.mem_cons_of_mem _ hin)]
      · by_cases heq : j = x.1
        · have hlt : x.1 < ws.length := by
            rw [hlen]
            exact (List.getElem?_eq_some_iff.mp hx).1
          rw [if_neg hin, heq, if_pos List.mem_cons_self, hx, List.getElem?_set_self hlt]
        · rw [if_neg hin, if_neg (List.mem_cons.not.mpr (not_or.mpr ⟨heq, hin⟩)),
            List.getElem?_set_ne (Ne.symm heq)]

/-- Every element is replaced. -/
theorem setAll_eq {α : Type} {ws us : List α} (vs : List (Nat × α))
    (hlen : ws.length = us.length) (hvs : ∀ x ∈ vs, us[x.1]? = some x.2)
    (hall : ∀ j < us.length, j ∈ vs.map Prod.fst) : setAll ws vs = us := by
  apply List.ext_getElem?
  intro j
  rw [setAll_getElem? vs hlen hvs]
  by_cases hin : j ∈ vs.map Prod.fst
  · rw [if_pos hin]
  · have hj : us.length ≤ j := Nat.le_of_not_lt fun hlt => hin (hall j hlt)
    rw [if_neg hin, List.getElem?_eq_none (hlen ▸ hj), List.getElem?_eq_none hj]

/-- Every field of a record is written. -/
theorem stackAt_storeAll (m : Memory) (a : BitVec 64) {us : List (BitVec 64)}
    (vs : List (Nat × BitVec 64)) (hvs : ∀ x ∈ vs, us[x.1]? = some x.2)
    (hall : ∀ j < us.length, j ∈ vs.map Prod.fst) (hlen : 8 * us.length ≤ 2 ^ 64) :
    StackAt (WordStack.storeAll m a vs) a us := by
  have hws := loads_length m a us.length
  have hlt : ∀ x ∈ vs, x.1 < (loads m a us.length).length := by
    intro x hx
    rw [hws]
    exact (List.getElem?_eq_some_iff.mp (hvs x hx)).1
  rw [← setAll_eq vs hws hvs hall]
  exact (stackAt_loads m a us.length).storeAll vs hlt (hws.symm ▸ hlen)

end WordStack
