import Mathlib.Data.List.Infix
import YmirC.Lib.Paging

/-!
# `YmirC.Lib.PageTree`: hierarchies of tables as trees

A table of a hierarchy is named by its path, the indices from it up to the root: `[]` is the
root, `[i]` the table behind entry `i` of it, `[j, i]` the table behind entry `j` of that one.
`tableOf` is the table at a path, and `pathTo` are the paths of the tables the walk of an address
visits.

A hierarchy is a `Tree` when every table has one path and the entries that are not present are
zero. Two memories that differ in one entry of a tree (`SameBut`) have the same tables and the same
walks away from that entry. The two ways to extend a tree follow: an empty table behind an
entry that is not present changes no walk (`walk_addTable`), and an entry of the lowest level
changes the walks of its page only (`walk_addPage`). A copy of the root has the walks of the root
(`walk_copyRoot`).
-/

set_option autoImplicit false

namespace Paging

open ByteMemory

/-- The table behind entry `i` of a table of the given level. -/
def child (mem : Mem) (level table i : Nat) : Option Nat :=
  if i < 512 ∧ present (entryAt mem table i) = true ∧ leaf level (entryAt mem table i) = false then
    some (entryAddr (entryAt mem table i))
  else none

/-- The table at a path below the table `root` of level `top`. -/
def tableOf (mem : Mem) (top root : Nat) : List Nat → Option Nat
  | [] => some root
  | i :: v => (tableOf mem top root v).bind fun table => child mem (top - v.length) table i

/-- The path of the table the walk of `va` visits after `k` steps. -/
def pathTo (top va : Nat) : Nat → List Nat
  | 0 => []
  | k + 1 => index (top - k) va :: pathTo top va k

/-- Every table has one path, and the entries that are not present are zero. -/
structure Tree (mem : Mem) (top root : Nat) : Prop where
  inj : ∀ {v w t}, tableOf mem top root v = some t → tableOf mem top root w = some t → v = w
  zero : ∀ {v t i}, tableOf mem top root v = some t → i < 512 →
    present (entryAt mem t i) = false → entryAt mem t i = 0#64

/-- No two paths lead to one table. -/
def Unshared (mem : Mem) (top root : Nat) : Prop :=
  ∀ v w t, tableOf mem top root v = some t → tableOf mem top root w = some t → v = w

/-- The two words send a walk the same way. -/
structure SameTarget (e e' : BitVec 64) : Prop where
  present : present e' = present e
  large : large e' = large e
  addr : entryAddr e' = entryAddr e

/-- The entries of the tables are the same but for the one at the path `p`. -/
def SameBut (mem mem' : Mem) (top root : Nat) (p : List Nat) : Prop :=
  ∀ {w t j}, tableOf mem top root w = some t → j < 512 → j :: w ≠ p →
    entryAt mem' t j = entryAt mem t j

variable {mem mem' : Mem} {top root : Nat} {v w : List Nat} {i t f va : Nat}

theorem child_eq_some {level table t' : Nat} : child mem level table i = some t' ↔
    i < 512 ∧ present (entryAt mem table i) = true ∧ leaf level (entryAt mem table i) = false ∧
      entryAddr (entryAt mem table i) = t' := by
  unfold child
  split
  · rename_i h
    simp [h]
  · rename_i h
    constructor
    · intro h'
      cases h'
    · rintro ⟨hi, hp, hl, -⟩
      exact absurd ⟨hi, hp, hl⟩ h

theorem tableOf_cons_eq_some {t' : Nat} : tableOf mem top root (i :: v) = some t' ↔
    ∃ t, tableOf mem top root v = some t ∧ child mem (top - v.length) t i = some t' := by
  rw [tableOf, Option.bind_eq_some_iff]

/-- Tables are page aligned when the root is. -/
theorem tableOf_aligned (hroot : root % 4096 = 0) (h : tableOf mem top root v = some t) :
    t % 4096 = 0 := by
  cases v with
  | nil =>
      cases h
      exact hroot
  | cons i v =>
      obtain ⟨t0, -, hchild⟩ := tableOf_cons_eq_some.mp h
      rw [← (child_eq_some.mp hchild).2.2.2]
      exact entryAddr_mod _

/-- A path is shorter than the number of levels. -/
theorem length_lt_of_tableOf (htop : 0 < top) (h : tableOf mem top root v = some t) :
    v.length < top := by
  cases v with
  | nil => exact htop
  | cons i v =>
      obtain ⟨t0, -, hchild⟩ := tableOf_cons_eq_some.mp h
      have hleaf := (child_eq_some.mp hchild).2.2.1
      have hlevel : ¬ top - v.length ≤ 1 := by
        intro hle
        simp [leaf, hle] at hleaf
      rw [List.length_cons]
      omega

theorem length_pathTo (top va : Nat) : ∀ k, (pathTo top va k).length = k := by
  intro k
  induction k with
  | zero => rfl
  | succ k ih => rw [pathTo, List.length_cons, ih]

/-- Where there is no table, there is none below. -/
theorem tableOf_append_eq_none {v : List Nat} (h : tableOf mem top root v = none) :
    ∀ u, tableOf mem top root (u ++ v) = none := by
  intro u
  induction u with
  | nil => exact h
  | cons j u ih =>
      show (tableOf mem top root (u ++ v)).bind _ = none
      rw [ih, Option.bind_none]

/-- A walk that visits `n` tables below the root visits those before them, through present
entries. -/
theorem present_of_tableOf_pathTo : ∀ {n t}, tableOf mem top root (pathTo top va n) = some t →
    ∀ k < n, ∃ s, tableOf mem top root (pathTo top va k) = some s ∧
      present (entryAt mem s (index (top - k) va)) = true := by
  intro n
  induction n with
  | zero =>
      intro t _ k hk
      cases hk
  | succ n ih =>
      intro t h k hk
      obtain ⟨s, hs, hchild⟩ := tableOf_cons_eq_some.mp h
      by_cases hkn : k = n
      · rw [hkn]
        exact ⟨s, hs, (child_eq_some.mp hchild).2.1⟩
      · exact ih hs k (by omega)

/-- The walk goes on in the table it visits after `k` steps. -/
theorem walk_tableOf : ∀ k t, tableOf mem top root (pathTo top va k) = some t →
    walk mem top root va = walk mem (top - k) t va := by
  intro k
  induction k with
  | zero =>
      intro t h
      cases h
      rfl
  | succ k ih =>
      intro t h
      obtain ⟨t0, ht0, hchild⟩ := tableOf_cons_eq_some.mp h
      rw [length_pathTo] at hchild
      obtain ⟨-, hp, hl, rfl⟩ := child_eq_some.mp hchild
      have hlevel : ¬ top - k ≤ 1 := by
        intro hle
        simp [leaf, hle] at hl
      rw [ih t0 ht0]
      obtain ⟨l, hl'⟩ : ∃ l, top - k = l + 1 := ⟨top - k - 1, by omega⟩
      have hnext : top - (k + 1) = l := by omega
      rw [hl'] at hp hl ⊢
      rw [hnext]
      exact walk_of_table hp hl

theorem Tree.unshared (htree : Tree mem top root) : Unshared mem top root :=
  fun _ _ _ hv hw => htree.inj hv hw

theorem SameTarget.of_eq {e e' : BitVec 64} (h : e' = e) : SameTarget e e' := by
  rw [h]
  exact ⟨rfl, rfl, rfl⟩

theorem SameTarget.leaf {e e' : BitVec 64} (h : SameTarget e e') (level : Nat) :
    leaf level e' = leaf level e := by
  rw [Paging.leaf, Paging.leaf, h.large]

/-- A walk whose entries send it the same way from step `n` on goes on in the same way. -/
theorem walk_of_sameTargets {n : Nat}
    (h : ∀ {k t}, n ≤ k → tableOf mem top root (pathTo top va k) = some t →
      SameTarget (entryAt mem t (index (top - k) va)) (entryAt mem' t (index (top - k) va))) :
    ∀ l k t, k + l = top → n ≤ k → tableOf mem top root (pathTo top va k) = some t →
      walk mem' l t va = walk mem l t va := by
  -- By induction on the levels that are left.
  intro l
  induction l with
  | zero => exact fun _ _ _ _ _ => rfl
  | succ l ih =>
      intro k t hk hn ht
      have hlevel : top - k = l + 1 := by omega
      have hpath : pathTo top va (k + 1) = index (l + 1) va :: pathTo top va k := by
        rw [pathTo, hlevel]
      have hentry := h hn ht
      rw [hlevel] at hentry
      simp only [walk, hentry.present, hentry.leaf, hentry.addr]
      by_cases hp : present (entryAt mem t (index (l + 1) va)) = true
      · by_cases hl : leaf (l + 1) (entryAt mem t (index (l + 1) va)) = true
        · simp only [hl, if_true]
        · have hl' := Bool.eq_false_iff.mpr hl
          simp only [hp, hl', Bool.not_true, Bool.false_eq_true, if_false]
          apply ih (k + 1) _ (by omega) (by omega)
          rw [hpath]
          refine tableOf_cons_eq_some.mpr ⟨t, ht, ?_⟩
          rw [length_pathTo, hlevel]
          exact child_eq_some.mpr ⟨index_lt (l + 1) va, hp, hl', rfl⟩
      · simp only [Bool.eq_false_iff.mpr hp, Bool.not_false, if_true]

/-! ### One entry -/

section OneEntry
variable {p : List Nat}

/-- The tables whose path does not go through the entry are the same. -/
theorem tableOf_of_sameBut (h : SameBut mem mem' top root p) :
    ∀ w, ¬ p <:+ w → tableOf mem' top root w = tableOf mem top root w := by
  intro w
  induction w with
  | nil => exact fun _ => rfl
  | cons j w ih =>
      intro hp
      have hne : j :: w ≠ p := by
        intro heq
        exact hp (heq ▸ List.suffix_rfl)
      have hw := ih fun hsuf => hp (hsuf.trans (List.suffix_cons j w))
      rw [tableOf, tableOf, hw]
      cases ht : tableOf mem top root w with
      | none => simp only [Option.bind_none]
      | some t =>
          simp only [Option.bind_some]
          unfold child
          by_cases hj : j < 512
          · rw [h ht hj hne]
          · simp [hj]

/-- The table that holds the entry is the same. -/
theorem tableOf_parent (h : SameBut mem mem' top root (i :: v)) :
    tableOf mem' top root v = tableOf mem top root v := by
  apply tableOf_of_sameBut h
  intro hsuf
  have := hsuf.length_le
  rw [List.length_cons] at this
  omega

/-- The walks that do not read the entry are the same. -/
theorem walk_of_sameBut (h : SameBut mem mem' top root p) (hva : ∀ k, pathTo top va k ≠ p) :
    walk mem' top root va = walk mem top root va := by
  refine walk_of_sameTargets (n := 0) ?_ top 0 root (Nat.zero_add top) (Nat.le_refl 0) rfl
  intro k t _ ht
  exact .of_eq (h ht (index_lt (top - k) va) (hva (k + 1)))

/-- A walk that reads the entry goes on from the table that holds it. -/
theorem walk_of_pathTo (ht : tableOf mem top root v = some t)
    (hva : pathTo top va (v.length + 1) = i :: v) :
    walk mem top root va = walk mem (top - v.length) t va ∧ index (top - v.length) va = i := by
  rw [pathTo] at hva
  obtain ⟨hi, hv⟩ := List.cons.inj hva
  refine ⟨walk_tableOf v.length t ?_, hi⟩
  rw [hv]
  exact ht

/-- A walk reads the entry at a path or its steps avoid it. -/
theorem pathTo_ne_of_ne {p : List Nat} (hva : pathTo top va p.length ≠ p) :
    ∀ k, pathTo top va k ≠ p := by
  intro k heq
  have hlen := length_pathTo top va k
  rw [heq] at hlen
  exact hva (hlen ▸ heq)

/-- A leaf on the way maps the address. -/
theorem leaf_false_of_walk_eq_none (hwalk : walk mem top root va = none) {k : Nat} (hk : k < top)
    (ht : tableOf mem top root (pathTo top va k) = some t)
    (hp : present (entryAt mem t (index (top - k) va)) = true) :
    leaf (top - k) (entryAt mem t (index (top - k) va)) = false := by
  obtain ⟨l, hl⟩ : ∃ l, top - k = l + 1 := ⟨top - k - 1, by omega⟩
  rw [walk_tableOf k t ht, hl] at hwalk
  rw [hl] at hp ⊢
  rw [Bool.eq_false_iff]
  intro hleaf
  rw [walk_of_leaf hp hleaf] at hwalk
  cases hwalk

/-! ### Entries in memory -/

/-- The other entries of the table of an entry that is stored. -/
theorem entryAt_store64_of_ne (mem : Mem) {s j : Nat} (hne : s ≠ t ∨ j ≠ i) (ht : t % 4096 = 0)
    (hs : s % 4096 = 0) (hi : i < 512) (hj : j < 512) (e : BitVec 64) :
    entryAt (store64 mem (t + 8 * i) e) s j = entryAt mem s j := by
  apply load64_store64_of_disjoint
  omega

/-- Filling a page leaves the entries of the other tables alone. -/
theorem entryAt_fillBytes_of_ne (mem : Mem) {s j : Nat} (hne : s ≠ f) (hf : f % 4096 = 0)
    (hs : s % 4096 = 0) (hj : j < 512) (c : BitVec 8) :
    entryAt (fillBytes mem f c 4096) s j = entryAt mem s j := by
  apply load64_congr
  intro k hk
  rw [fillBytes_apply, if_neg (by omega)]

/-- The entries of a table that is filled with zeros. -/
theorem entryAt_fillBytes_zero (mem : Mem) {j : Nat} (hj : j < 512) :
    entryAt (fillBytes mem f 0#8 4096) f j = 0#64 := by
  apply BitVec.eq_of_getLsbD_eq
  intro b hb
  rw [entryAt, getLsbD_load64 _ _ _ hb, fillBytes_apply, if_pos (by omega), BitVec.getLsbD_zero,
    BitVec.getLsbD_zero]

/-- Entries at two paths are in two places. -/
theorem Unshared.ne_or_ne (h : Unshared mem top root) (hv : tableOf mem top root v = some t)
    {s j : Nat} (hw : tableOf mem top root w = some s) (hne : j :: w ≠ i :: v) : s ≠ t ∨ j ≠ i := by
  by_cases hs : s = t
  · right
    intro hji
    rw [hs] at hw
    rw [h w v t hw hv, hji] at hne
    exact hne rfl
  · exact .inl hs

/-- Storing an entry changes no other entry. -/
theorem Unshared.sameBut_store64 (h : Unshared mem top root) (hroot : root % 4096 = 0)
    (hv : tableOf mem top root v = some t) (hi : i < 512) (e : BitVec 64) :
    SameBut mem (store64 mem (t + 8 * i) e) top root (i :: v) := by
  intro w s j hw hj hne
  exact entryAt_store64_of_ne mem (h.ne_or_ne hv hw hne) (tableOf_aligned hroot hv)
    (tableOf_aligned hroot hw) hi hj e

end OneEntry

/-! ### A table behind an entry -/

section AddTable

/-- The entry at `i :: v`, which was not present, refers to an empty table at `f`, and the other
entries of the tables are the same. -/
structure AddsTable (mem mem' : Mem) (top root : Nat) (v : List Nat) (t i f : Nat) : Prop where
  same : SameBut mem mem' top root (i :: v)
  parent : tableOf mem top root v = some t
  index_lt : i < 512
  absent : present (entryAt mem t i) = false
  present : present (entryAt mem' t i) = true
  table : leaf (top - v.length) (entryAt mem' t i) = false
  addr : entryAddr (entryAt mem' t i) = f
  empty : ∀ j < 512, entryAt mem' f j = 0#64

/-- No table was behind the entry. -/
theorem AddsTable.tableOf_eq_none (h : AddsTable mem mem' top root v t i f) :
    tableOf mem top root (i :: v) = none := by
  rw [Option.eq_none_iff_forall_ne_some]
  intro g hg
  obtain ⟨t', ht', hchild⟩ := tableOf_cons_eq_some.mp hg
  rw [h.parent] at ht'
  cases ht'
  have hp := h.absent
  rw [(child_eq_some.mp hchild).2.1] at hp
  cases hp

/-- There is one more table. -/
theorem tableOf_addTable (h : AddsTable mem mem' top root v t i f) (w : List Nat) :
    tableOf mem' top root w = if w = i :: v then some f else tableOf mem top root w := by
  have hnew : tableOf mem' top root (i :: v) = some f :=
    tableOf_cons_eq_some.mpr ⟨t, (tableOf_parent h.same).trans h.parent,
      child_eq_some.mpr ⟨h.index_lt, h.present, h.table, h.addr⟩⟩
  -- No entry of the new table leads further.
  have hempty : ∀ j, tableOf mem' top root (j :: i :: v) = none := by
    intro j
    rw [Option.eq_none_iff_forall_ne_some]
    intro g hg
    obtain ⟨t', ht', hchild⟩ := tableOf_cons_eq_some.mp hg
    cases hnew.symm.trans ht'
    obtain ⟨hj, hp, -, -⟩ := child_eq_some.mp hchild
    rw [h.empty j hj, not_present_zero] at hp
    cases hp
  split
  · rename_i heq
    rw [heq]
    exact hnew
  · rename_i hne
    by_cases hsuf : (i :: v) <:+ w
    · -- A path through the entry that goes on: nothing is there, before and after.
      obtain ⟨u, rfl⟩ := hsuf
      rw [tableOf_append_eq_none h.tableOf_eq_none]
      rcases List.eq_nil_or_concat u with rfl | ⟨u', j, rfl⟩
      · exact absurd rfl hne
      · rw [List.concat_append]
        exact tableOf_append_eq_none (hempty j) u'
    · exact tableOf_of_sameBut h.same w hsuf

/-- Every table is the new one or one there was. -/
theorem AddsTable.cases (h : AddsTable mem mem' top root v t i f) {s : Nat}
    (hw : tableOf mem' top root w = some s) :
    (w = i :: v ∧ s = f) ∨ (w ≠ i :: v ∧ tableOf mem top root w = some s) := by
  rw [tableOf_addTable h] at hw
  split at hw
  · rename_i heq
    exact .inl ⟨heq, (Option.some.inj hw).symm⟩
  · rename_i hne
    exact .inr ⟨hne, hw⟩

/-- No walk changes: those that read the entry ended there and end in the empty table. -/
theorem walk_addTable (h : AddsTable mem mem' top root v t i f) (va : Nat) :
    walk mem' top root va = walk mem top root va := by
  by_cases hva : pathTo top va (i :: v).length = i :: v
  · rw [List.length_cons] at hva
    have hparent := (tableOf_parent h.same).trans h.parent
    obtain ⟨hwalk, hi⟩ := walk_of_pathTo h.parent hva
    obtain ⟨hwalk', -⟩ := walk_of_pathTo hparent hva
    rw [hwalk, hwalk']
    have hlevel : ¬ top - v.length ≤ 1 := by
      intro hle
      have := h.table
      simp [leaf, hle] at this
    obtain ⟨l, hl⟩ : ∃ l, top - v.length = l + 1 + 1 := ⟨top - v.length - 2, by omega⟩
    have htable := h.table
    rw [hl] at hi htable ⊢
    -- Before, the walk ended at the entry. Now it ends one table later.
    have habsent : walk mem (l + 1 + 1) t va = none := by
      apply walk_of_absent
      rw [hi]
      exact h.absent
    rw [habsent, walk_of_table (by rw [hi]; exact h.present) (by rw [hi]; exact htable), hi, h.addr]
    apply walk_of_absent
    rw [h.empty _ (Paging.index_lt _ _), not_present_zero]
  · exact walk_of_sameBut h.same (pathTo_ne_of_ne hva)

/-- The hierarchy stays a tree when the table is new. -/
theorem Tree.addTable (htree : Tree mem top root) (h : AddsTable mem mem' top root v t i f)
    (hnew : ∀ w, tableOf mem top root w ≠ some f) : Tree mem' top root := by
  constructor
  · intro w w' s hw hw'
    rcases h.cases hw with ⟨rfl, rfl⟩ | ⟨-, hw⟩
    · rcases h.cases hw' with ⟨rfl, -⟩ | ⟨-, hw'⟩
      · rfl
      · exact absurd hw' (hnew w')
    · rcases h.cases hw' with ⟨rfl, rfl⟩ | ⟨-, hw'⟩
      · exact absurd hw (hnew w)
      · exact htree.inj hw hw'
  · intro w s j hw hj hp
    rcases h.cases hw with ⟨rfl, rfl⟩ | ⟨-, hw⟩
    · exact h.empty j hj
    · by_cases hslot : j :: w = i :: v
      · -- The entry that refers to the table is not absent.
        obtain ⟨rfl, rfl⟩ := List.cons.inj hslot
        rw [h.parent] at hw
        cases hw
        rw [h.present] at hp
        cases hp
      · rw [h.same hw hj hslot] at hp ⊢
        exact htree.zero hw hj hp

end AddTable

/-! ### A page behind an entry -/

section AddPage

/-- The entry at `i :: v`, of a table of the lowest level, is present, and the other entries of
the tables are the same. -/
structure AddsPage (mem mem' : Mem) (top root : Nat) (v : List Nat) (t i : Nat) : Prop where
  same : SameBut mem mem' top root (i :: v)
  parent : tableOf mem top root v = some t
  lowest : v.length + 1 = top
  present : present (entryAt mem' t i) = true

/-- The tables are the same. -/
theorem tableOf_addPage (h : AddsPage mem mem' top root v t i) (w : List Nat) :
    tableOf mem' top root w = tableOf mem top root w := by
  have htop : 0 < top := by
    have := h.lowest
    omega
  by_cases hsuf : (i :: v) <:+ w
  · -- A path through the entry is too long.
    have hlong : ∀ m : Mem, tableOf m top root w = none := by
      intro m
      rw [Option.eq_none_iff_forall_ne_some]
      intro s hs
      have hlt := length_lt_of_tableOf htop hs
      have hle := hsuf.length_le
      rw [List.length_cons, h.lowest] at hle
      omega
    rw [hlong, hlong]
  · exact tableOf_of_sameBut h.same w hsuf

/-- The walks of the page end at the entry, and the others are the same. -/
theorem walk_addPage (h : AddsPage mem mem' top root v t i) (va : Nat) :
    walk mem' top root va = if pathTo top va top = i :: v then
      some (entryAddr (entryAt mem' t i) / span 1 * span 1 + va % span 1)
      else walk mem top root va := by
  split
  · rename_i hva
    rw [← h.lowest] at hva
    have hparent := (tableOf_parent h.same).trans h.parent
    have hone : top - v.length = 0 + 1 := by
      have := h.lowest
      omega
    obtain ⟨hwalk, hi⟩ := walk_of_pathTo hparent (by rw [h.lowest] at hva ⊢; exact hva)
    rw [hone] at hwalk hi
    rw [hwalk, walk_of_leaf (by rw [hi]; exact h.present) rfl, hi]
  · rename_i hva
    apply walk_of_sameBut h.same
    apply pathTo_ne_of_ne
    rw [List.length_cons, h.lowest]
    exact hva

/-- The hierarchy stays a tree. -/
theorem Tree.addPage (htree : Tree mem top root) (h : AddsPage mem mem' top root v t i) :
    Tree mem' top root := by
  constructor
  · intro w w' s hw hw'
    rw [tableOf_addPage h] at hw hw'
    exact htree.inj hw hw'
  · intro w s j hw hj hp
    rw [tableOf_addPage h] at hw
    by_cases hslot : j :: w = i :: v
    · obtain ⟨rfl, rfl⟩ := List.cons.inj hslot
      rw [h.parent] at hw
      cases hw
      rw [h.present] at hp
      cases hp
    · rw [h.same hw hj hslot] at hp ⊢
      exact htree.zero hw hj hp

end AddPage

/-! ### A copy of the root -/

section CopyRoot

/-- The table at `root'` has the entries of the root, and the tables below it keep theirs. -/
structure CopiesRoot (mem mem' : Mem) (top root root' : Nat) : Prop where
  entries : ∀ j < 512, entryAt mem' root' j = entryAt mem root j
  same : ∀ {i v t j}, tableOf mem top root (i :: v) = some t → j < 512 →
    entryAt mem' t j = entryAt mem t j

variable {root' : Nat}

/-- The tables below the root are the same. -/
theorem tableOf_copyRoot (h : CopiesRoot mem mem' top root root') :
    ∀ v i, tableOf mem' top root' (i :: v) = tableOf mem top root (i :: v) := by
  -- By induction on the path. Only the first step from the root reads the copy.
  intro v
  induction v with
  | nil =>
      intro i
      show child mem' top root' i = child mem top root i
      unfold child
      by_cases hi : i < 512
      · rw [h.entries i hi]
      · simp [hi]
  | cons j v ih =>
      intro i
      have hnext : ∀ (mem : Mem) (root : Nat), tableOf mem top root (i :: j :: v)
          = (tableOf mem top root (j :: v)).bind fun t => child mem (top - (j :: v).length) t i :=
        fun _ _ => rfl
      rw [hnext, hnext, ih j]
      cases ht : tableOf mem top root (j :: v) with
      | none => simp only [Option.bind_none]
      | some t =>
          simp only [Option.bind_some]
          unfold child
          by_cases hi : i < 512
          · rw [h.same ht hi]
          · simp [hi]

/-- No walk changes. -/
theorem walk_copyRoot (h : CopiesRoot mem mem' top root root') (va : Nat) :
    walk mem' top root' va = walk mem top root va := by
  cases top with
  | zero => rfl
  | succ l =>
      have hi := index_lt (l + 1) va
      simp only [walk, h.entries _ hi]
      by_cases hp : present (entryAt mem root (index (l + 1) va)) = true
      · by_cases hl : leaf (l + 1) (entryAt mem root (index (l + 1) va)) = true
        · simp only [hl, if_true]
        · have hl' := Bool.eq_false_iff.mpr hl
          simp only [hp, hl', Bool.not_true, Bool.false_eq_true, if_false]
          have htable : tableOf mem (l + 1) root (pathTo (l + 1) va 1)
              = some (entryAddr (entryAt mem root (index (l + 1) va))) :=
            tableOf_cons_eq_some.mpr ⟨root, rfl, child_eq_some.mpr ⟨hi, hp, hl', rfl⟩⟩
          refine walk_of_sameTargets (n := 1) ?_ l 1 _ (Nat.add_comm 1 l) (Nat.le_refl 1) htable
          intro k t hk ht
          -- From the first step on the walk is below the root.
          cases k with
          | zero => omega
          | succ k => exact .of_eq (h.same ht (index_lt _ va))
      · simp only [Bool.eq_false_iff.mpr hp, Bool.not_false, if_true]

/-- The hierarchy from the copy is a tree when the copy is a new table. -/
theorem Tree.copyRoot (htree : Tree mem top root) (h : CopiesRoot mem mem' top root root')
    (hnew : ∀ w, tableOf mem top root w ≠ some root') : Tree mem' top root' := by
  constructor
  · intro v w t hv hw
    cases v with
    | nil =>
        cases hv
        cases w with
        | nil => rfl
        | cons j w =>
            rw [tableOf_copyRoot h] at hw
            exact absurd hw (hnew _)
    -- Below the root the paths are those there were, and none of them leads to the copy.
    | cons i v =>
        rw [tableOf_copyRoot h] at hv
        cases w with
        | nil =>
            cases hw
            exact absurd hv (hnew _)
        | cons j w =>
            rw [tableOf_copyRoot h] at hw
            exact htree.inj hv hw
  · intro v t i hv hi hp
    cases v with
    | nil =>
        cases hv
        rw [h.entries i hi] at hp ⊢
        exact htree.zero (v := []) rfl hi hp
    | cons j v =>
        rw [tableOf_copyRoot h] at hv
        rw [h.same hv hi] at hp ⊢
        exact htree.zero hv hi hp

end CopyRoot

/-! ### Addresses of 64 bits -/

/-- The upper 16 bits of an address repeat bit 47. -/
def canonical (va : Nat) : Bool := va < 2 ^ 47 || (2 ^ 64 - 2 ^ 47 ≤ va && va < 2 ^ 64)

/-- The physical address the processor translates a virtual address to. -/
def translateAddr (mem : Mem) (root va : Nat) : Option Nat :=
  if canonical va then walk mem 4 root va else none

theorem canonical_iff (va : Nat) :
    canonical va = true ↔ va < 2 ^ 47 ∨ (2 ^ 64 - 2 ^ 47 ≤ va ∧ va < 2 ^ 64) := by
  simp [canonical]

/-- Canonical addresses with the same path are in the same page. -/
theorem pathTo_eq_iff {vb : Nat} (ha : canonical va = true) (hb : canonical vb = true) :
    pathTo 4 va 4 = pathTo 4 vb 4 ↔ va / 4096 = vb / 4096 := by
  have hpath : ∀ x, pathTo 4 x 4 = [x / 2 ^ 12 % 512, x / 2 ^ 21 % 512, x / 2 ^ 30 % 512,
      x / 2 ^ 39 % 512] := fun _ => rfl
  rw [canonical_iff] at ha hb
  rw [hpath, hpath]
  simp only [List.cons.injEq, and_true]
  constructor
  · intro h
    omega
  · intro h
    omega

/-- A page added at `vb`, in terms of translations. -/
theorem translateAddr_addPage {vb phys : Nat} (hb : canonical vb = true)
    (hwalk : ∀ va, walk mem' 4 root va = if pathTo 4 va 4 = pathTo 4 vb 4 then
      some (phys + va % 4096) else walk mem 4 root va) (va : Nat) :
    translateAddr mem' root va
      = if va / 4096 = vb / 4096 then some (phys + va % 4096) else translateAddr mem root va := by
  unfold translateAddr
  cases ha : canonical va with
  | true =>
      simp only [if_true]
      rw [hwalk va]
      by_cases hpage : va / 4096 = vb / 4096
      · rw [if_pos ((pathTo_eq_iff ha hb).mpr hpage), if_pos hpage]
      · rw [if_neg fun hpath => hpage ((pathTo_eq_iff ha hb).mp hpath), if_neg hpage]
  | false =>
      -- A page has only canonical addresses or none.
      have hpage : va / 4096 ≠ vb / 4096 := by
        intro heq
        have htrue : canonical va = true := by
          rw [canonical_iff] at hb ⊢
          omega
        rw [ha] at htrue
        cases htrue
      simp only [Bool.false_eq_true, if_false, if_neg hpage]

end Paging
