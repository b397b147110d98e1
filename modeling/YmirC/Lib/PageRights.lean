import Mathlib.Logic.Function.Basic
import YmirC.Lib.PageTree

/-!
# `YmirC.Lib.PageRights`: stores through page tables, and the rights of pages

An entry of a table also says what may be done with what it refers to: bit 1 allows writes, bit
63 forbids to execute. A byte stored at a virtual address goes to the physical address the walk
ends at, when every entry on the way allows it (`storeVirt`), and `storeAll` is the loop that
stores one byte after another.

Between two memories `KeepsTargets` says that every entry sends a walk the same way, and that only
the entries at the paths of `R` are not the same altogether. It is a preorder up to `R`, no
translation changes along it, and the rights change for the walks through `R` only. A store into a
page that holds no table is one such step with `R` empty (`KeepsTargets.store`), and so a run of
stores to pages of their own leaves exactly its bytes there (`storeAll_spec`). New rights in an
entry of level 1 are the other one (`KeepsTargets.store64`).
-/

set_option autoImplicit false

namespace Paging

open ByteMemory

/-- The bit that allows writes. -/
def mayWrite (e : BitVec 64) : Bool := e.getLsbD 1

/-- The bit that forbids to execute. -/
def noExecute (e : BitVec 64) : Bool := e.getLsbD 63

/-- The entries the walk of `va` reads, from the root down. -/
def walkEntries (mem : Mem) (top root va : Nat) : List (BitVec 64) :=
  (List.range top).filterMap fun k =>
    (tableOf mem top root (pathTo top va k)).map fun t => entryAt mem t (index (top - k) va)

/-- Every entry on the way allows writes. -/
def writable (mem : Mem) (root va : Nat) : Bool := (walkEntries mem 4 root va).all mayWrite

/-- The entry of level 1 that maps `va`. There is none when a large page maps it. -/
def pageEntry (mem : Mem) (root va : Nat) : Option (BitVec 64) :=
  if canonical va then
    ((tableOf mem 4 root (pathTo 4 va 3)).map fun t => entryAt mem t (index 1 va)).filter present
  else none

/-- The physical address is one of the bytes of the entry of level 1 on the way of `va`. -/
def EntryByte (mem : Mem) (root va b : Nat) : Prop :=
  ∃ t, tableOf mem 4 root (pathTo 4 va 3) = some t ∧
    t + 8 * index 1 va ≤ b ∧ b < t + 8 * index 1 va + 8

/-- A byte stored at a virtual address, which wraps around at 2^64. The error is the address of
the page fault. -/
def storeVirt (mem : Mem) (root va : Nat) (b : BitVec 8) : Except Nat Mem :=
  match translateAddr mem root (va % 2 ^ 64) with
  | some p => if writable mem root (va % 2 ^ 64) then .ok (Function.update mem p b) else .error va
  | none => .error va

/-- Bytes stored one after another from a virtual address on. -/
def storeAll (root : Nat) : Mem → (va : Nat) → List (BitVec 8) → Except Nat Mem
  | mem, _, [] => .ok mem
  | mem, va, b :: bs => storeVirt mem root va b >>= fun mem => storeAll root mem (va + 1) bs

/-- Every entry sends a walk the same way, and the entries at the paths outside `R` are the
same. -/
structure KeepsTargets (mem mem' : Mem) (top root : Nat) (R : List Nat → Prop) : Prop where
  target : ∀ {w t j}, tableOf mem top root w = some t → j < 512 →
    SameTarget (entryAt mem t j) (entryAt mem' t j)
  same : ∀ {w t j}, tableOf mem top root w = some t → j < 512 → ¬ R (j :: w) →
    entryAt mem' t j = entryAt mem t j

variable {mem mem' mem'' : Mem} {top root va p : Nat} {R R' : List Nat → Prop}

/-! ### Entries that keep their targets -/

section Keeps

/-- The tables are the same. -/
theorem KeepsTargets.tableOf (h : KeepsTargets mem mem' top root R) :
    ∀ w, tableOf mem' top root w = tableOf mem top root w := by
  intro w
  induction w with
  | nil => rfl
  | cons j w ih =>
      rw [Paging.tableOf, Paging.tableOf, ih]
      cases ht : Paging.tableOf mem top root w with
      | none => simp only [Option.bind_none]
      | some t =>
          simp only [Option.bind_some]
          unfold child
          by_cases hj : j < 512
          · have htarget := h.target ht hj
            rw [htarget.present, htarget.leaf, htarget.addr]
          · simp [hj]

theorem KeepsTargets.walk (h : KeepsTargets mem mem' top root R) (va : Nat) :
    walk mem' top root va = walk mem top root va := by
  refine walk_of_sameTargets (n := 0) ?_ top 0 root (Nat.zero_add top) (Nat.le_refl 0) rfl
  intro k t _ ht
  exact h.target ht (index_lt (top - k) va)

/-- No translation changes. -/
theorem KeepsTargets.translateAddr (h : KeepsTargets mem mem' 4 root R) (va : Nat) :
    translateAddr mem' root va = translateAddr mem root va := by
  unfold Paging.translateAddr
  rw [h.walk]

/-- The walks that avoid `R` read the same entries. -/
theorem KeepsTargets.walkEntries (h : KeepsTargets mem mem' top root R)
    (hva : ∀ k, ¬ R (pathTo top va (k + 1))) :
    walkEntries mem' top root va = walkEntries mem top root va := by
  unfold Paging.walkEntries
  apply List.filterMap_congr
  intro k _
  rw [h.tableOf]
  cases ht : Paging.tableOf mem top root (pathTo top va k) with
  | none => rw [Option.map_none, Option.map_none]
  | some t =>
      rw [Option.map_some, Option.map_some, h.same ht (index_lt (top - k) va) (hva k)]

theorem KeepsTargets.writable (h : KeepsTargets mem mem' 4 root R)
    (hva : ∀ k, ¬ R (pathTo 4 va (k + 1))) : writable mem' root va = writable mem root va := by
  unfold Paging.writable
  rw [h.walkEntries hva]

theorem KeepsTargets.pageEntry (h : KeepsTargets mem mem' 4 root R) (hva : ¬ R (pathTo 4 va 4)) :
    pageEntry mem' root va = pageEntry mem root va := by
  unfold Paging.pageEntry
  rw [h.tableOf]
  cases ht : Paging.tableOf mem 4 root (pathTo 4 va 3) with
  | none => rw [Option.map_none, Option.map_none]
  | some t =>
      rw [Option.map_some, Option.map_some, h.same ht (index_lt 1 va) hva]

/-- What is mapped by an entry of level 1 stays so. -/
theorem KeepsTargets.isSome_pageEntry (h : KeepsTargets mem mem' 4 root R) (va : Nat) :
    (Paging.pageEntry mem' root va).isSome = (Paging.pageEntry mem root va).isSome := by
  unfold Paging.pageEntry
  rw [h.tableOf]
  cases ht : Paging.tableOf mem 4 root (pathTo 4 va 3) with
  | none => rw [Option.map_none, Option.map_none]
  | some t =>
      have htarget := h.target ht (index_lt 1 va)
      rw [Option.map_some, Option.map_some, Option.filter_some, Option.filter_some, htarget.present]
      cases present (entryAt mem t (index 1 va)) with
      | false => simp only [Bool.false_eq_true, if_false]
      | true =>
          simp only [if_true]
          split
          · simp only [Option.isSome_some]
          · simp only [Option.isSome_none]

theorem KeepsTargets.entryByte {b : Nat} (h : KeepsTargets mem mem' 4 root R) :
    EntryByte mem' root va b ↔ EntryByte mem root va b := by
  unfold EntryByte
  rw [h.tableOf]

theorem KeepsTargets.unshared (h : KeepsTargets mem mem' top root R)
    (hmem : Unshared mem top root) : Unshared mem' top root := by
  intro v w t hv hw
  rw [h.tableOf] at hv hw
  exact hmem v w t hv hw

theorem KeepsTargets.refl (mem : Mem) (top root : Nat) (R : List Nat → Prop) :
    KeepsTargets mem mem top root R :=
  ⟨fun _ _ => .of_eq rfl, fun _ _ _ => rfl⟩

theorem KeepsTargets.trans (h : KeepsTargets mem mem' top root R)
    (h' : KeepsTargets mem' mem'' top root R') :
    KeepsTargets mem mem'' top root fun p => R p ∨ R' p := by
  constructor
  · intro w t j hw hj
    have h1 := h.target hw hj
    have h2 := h'.target ((h.tableOf w).trans hw) hj
    exact ⟨h2.present.trans h1.present, h2.large.trans h1.large, h2.addr.trans h1.addr⟩
  · intro w t j hw hj hR
    rw [not_or] at hR
    rw [h'.same ((h.tableOf w).trans hw) hj hR.2, h.same hw hj hR.1]

theorem KeepsTargets.mono (h : KeepsTargets mem mem' top root R) (hR : ∀ p, R p → R' p) :
    KeepsTargets mem mem' top root R' :=
  ⟨h.target, fun hw hj hp => h.same hw hj fun hin => hp (hR _ hin)⟩

end Keeps

/-! ### Addresses of one page -/

section OnePage
variable {vb : Nat}

theorem index_congr (h : va / 4096 = vb / 4096) (level : Nat) :
    index level va = index level vb := by
  have hspan : span level = 4096 * 2 ^ (9 * (level - 1)) := by
    rw [span, Nat.pow_add]
  rw [index, index, hspan, ← Nat.div_div_eq_div_mul, ← Nat.div_div_eq_div_mul, h]

theorem pathTo_congr (h : va / 4096 = vb / 4096) (top : Nat) :
    ∀ k, pathTo top va k = pathTo top vb k := by
  intro k
  induction k with
  | zero => rfl
  | succ k ih => rw [pathTo, pathTo, ih, index_congr h]

theorem canonical_congr (h : va / 4096 = vb / 4096) : canonical va = canonical vb := by
  rw [Bool.eq_iff_iff, canonical_iff, canonical_iff]
  omega

/-- The rights are those of the page. -/
theorem writable_congr (h : va / 4096 = vb / 4096) :
    writable mem root va = writable mem root vb := by
  unfold writable walkEntries
  simp only [pathTo_congr h, index_congr h]

theorem pageEntry_congr (h : va / 4096 = vb / 4096) :
    pageEntry mem root va = pageEntry mem root vb := by
  unfold pageEntry
  rw [canonical_congr h, pathTo_congr h, index_congr h]

end OnePage

/-! ### Stores -/

section Stores

/-- The physical address is in no table. -/
def OutsideTables (mem : Mem) (root p : Nat) : Prop :=
  ∀ v t, tableOf mem 4 root v = some t → p < t ∨ t + 4096 ≤ p

/-- A byte outside the tables changes no entry. -/
theorem KeepsTargets.store (hp : OutsideTables mem root p) (b : BitVec 8) :
    KeepsTargets mem (Function.update mem p b) 4 root fun _ => False := by
  have hsame : ∀ {w t j}, Paging.tableOf mem 4 root w = some t → j < 512 →
      entryAt (Function.update mem p b) t j = entryAt mem t j := by
    intro w t j hw hj
    apply load64_congr
    intro k hk
    have hout := hp w t hw
    have hne : t + 8 * j + k ≠ p := by omega
    rw [Function.update_of_ne hne]
  exact ⟨fun hw hj => .of_eq (hsame hw hj), fun hw hj _ => hsame hw hj⟩

theorem KeepsTargets.outsideTables (h : KeepsTargets mem mem' 4 root R)
    (hp : OutsideTables mem root p) : OutsideTables mem' root p := by
  intro v t hv
  rw [h.tableOf] at hv
  exact hp v t hv

/-- An entry is in a table. -/
theorem OutsideTables.not_entryByte (hp : OutsideTables mem root p) :
    ¬ EntryByte mem root va p := by
  rintro ⟨t, ht, hlo, hhi⟩
  have hout := hp _ t ht
  have hi := index_lt 1 va
  omega

/-- The `n` bytes from `va` on can be stored, each in a place of its own that is in no table. -/
structure Storable (mem : Mem) (root va n : Nat) : Prop where
  mapped : ∀ k < n, ∃ p, translateAddr mem root (va + k) = some p ∧ OutsideTables mem root p
  writable : ∀ k < n, writable mem root (va + k) = true
  inj : ∀ j < n, ∀ k < n,
    translateAddr mem root (va + j) = translateAddr mem root (va + k) → j = k

/-- A translated address is one of 64 bits. -/
theorem lt_of_translateAddr (h : translateAddr mem root va = some p) : va < 2 ^ 64 := by
  unfold Paging.translateAddr at h
  split at h
  · rename_i hcanonical
    rw [canonical_iff] at hcanonical
    omega
  · cases h

theorem storeVirt_ok (h : translateAddr mem root va = some p) (hw : writable mem root va = true)
    (b : BitVec 8) : storeVirt mem root va b = .ok (Function.update mem p b) := by
  have hmod : va % 2 ^ 64 = va := Nat.mod_eq_of_lt (lt_of_translateAddr h)
  unfold storeVirt
  rw [hmod, h]
  simp only [hw, if_true]

/-- What can be stored stays so when no entry on the way changes. -/
theorem KeepsTargets.storable {n : Nat} (h : KeepsTargets mem mem' 4 root R)
    (hR : ∀ k < n, ∀ l, ¬ R (pathTo 4 (va + k) (l + 1))) (hs : Storable mem root va n) :
    Storable mem' root va n := by
  constructor
  · intro k hk
    obtain ⟨p, hp, hout⟩ := hs.mapped k hk
    exact ⟨p, (h.translateAddr _).trans hp, h.outsideTables hout⟩
  · intro k hk
    rw [h.writable (hR k hk)]
    exact hs.writable k hk
  · intro j hj k hk heq
    rw [h.translateAddr, h.translateAddr] at heq
    exact hs.inj j hj k hk heq

/-- Some of the bytes can be stored as well. -/
theorem Storable.sub {n i l : Nat} (hs : Storable mem root va n) (h : i + l ≤ n) :
    Storable mem root (va + i) l := by
  constructor
  · intro k hk
    rw [Nat.add_assoc]
    exact hs.mapped (i + k) (by omega)
  · intro k hk
    rw [Nat.add_assoc]
    exact hs.writable (i + k) (by omega)
  · intro j hj k hk heq
    rw [Nat.add_assoc, Nat.add_assoc] at heq
    have := hs.inj (i + j) (by omega) (i + k) (by omega) heq
    omega

/-- The bytes from `va` on are those of the list, and no others changed. -/
structure Stored (mem mem' : Mem) (root va : Nat) (bs : List (BitVec 8)) : Prop where
  keeps : KeepsTargets mem mem' 4 root fun _ => False
  bytes : ∀ k (hk : k < bs.length) p, translateAddr mem root (va + k) = some p → mem' p = bs[k]
  others : ∀ p, (∀ k < bs.length, translateAddr mem root (va + k) ≠ some p) → mem' p = mem p

/-- The loop stores its bytes and changes nothing else, no entry of a table in particular. -/
theorem storeAll_spec : ∀ (bs : List (BitVec 8)) (mem : Mem) (va : Nat),
    Storable mem root va bs.length →
      ∃ mem', storeAll root mem va bs = .ok mem' ∧ Stored mem mem' root va bs := by
  intro bs
  induction bs with
  | nil =>
      intro mem va _
      refine ⟨mem, rfl, .refl mem 4 root _, ?_, fun _ _ => rfl⟩
      intro k hk
      cases hk
  | cons b bs ih =>
      intro mem va hs
      rw [List.length_cons] at hs
      obtain ⟨p0, hp0, hout⟩ := hs.mapped 0 (by omega)
      have hkeeps := KeepsTargets.store hout b
      -- The rest goes to other places, through the same entries.
      have hrest := hkeeps.storable (fun _ _ _ h => h) (hs.sub (i := 1) (l := bs.length) (by omega))
      obtain ⟨mem', hrun, hstored⟩ := ih _ _ hrest
      have hshift : ∀ k, translateAddr (Function.update mem p0 b) root (va + 1 + k)
          = translateAddr mem root (va + (k + 1)) := by
        intro k
        rw [hkeeps.translateAddr]
        congr 1
        omega
      have hfirst : mem' p0 = b := by
        rw [hstored.others p0, Function.update_self]
        intro k hk heq
        rw [hshift] at heq
        have := hs.inj 0 (by omega) (k + 1) (by omega) (hp0.trans heq.symm)
        omega
      refine ⟨mem', ?_, ?_, ?_, ?_⟩
      · have hstore := storeVirt_ok hp0 (hs.writable 0 (by omega)) b
        rw [Nat.add_zero] at hstore
        rw [storeAll, hstore]
        exact hrun
      · exact (hkeeps.trans hstored.keeps).mono fun _ h => h.elim id id
      · intro k hk p hp
        cases k with
        | zero =>
            rw [hp0] at hp
            cases hp
            exact hfirst
        | succ k => exact hstored.bytes k (by simpa using hk) p ((hshift k).trans hp)
      · intro p hp
        rw [hstored.others p]
        · apply Function.update_of_ne
          rintro rfl
          exact hp 0 (by simp) hp0
        · intro k hk heq
          exact hp (k + 1) (by simpa using hk) ((hshift k).symm.trans heq)

/-- Two runs of stores one behind the other are one. -/
theorem storeAll_append (cs : List (BitVec 8)) : ∀ (bs : List (BitVec 8)) (mem : Mem) (va : Nat),
    storeAll root mem va (bs ++ cs)
      = storeAll root mem va bs >>= fun mem => storeAll root mem (va + bs.length) cs := by
  intro bs
  induction bs with
  | nil => exact fun _ _ => rfl
  | cons b bs ih =>
      intro mem va
      have hlen : va + (b :: bs).length = va + 1 + bs.length := by
        rw [List.length_cons]
        omega
      rw [List.cons_append, storeAll, storeAll, bind_assoc, hlen]
      simp only [ih]

end Stores

/-! ### Rights of a page -/

section Rights
variable {e e' : BitVec 64}

theorem pageEntry_eq_some : pageEntry mem root va = some e ↔ canonical va = true ∧
    ∃ t, tableOf mem 4 root (pathTo 4 va 3) = some t ∧ entryAt mem t (index 1 va) = e ∧
      present e = true := by
  unfold pageEntry
  cases hc : canonical va with
  | false => simp
  | true =>
      cases ht : tableOf mem 4 root (pathTo 4 va 3) with
      | none => simp
      | some t =>
          simp only [if_true, Option.map_some, Option.filter_eq_some_iff, Option.some.injEq,
            exists_eq_left', true_and]

/-- An address with an entry of level 1 is translated by it. -/
theorem translateAddr_of_pageEntry (h : pageEntry mem root va = some e) :
    translateAddr mem root va = some (entryAddr e + va % 4096) := by
  obtain ⟨hc, t, ht, rfl, hp⟩ := pageEntry_eq_some.mp h
  have hspan : span 1 = 4096 := rfl
  have hone : 4 - 3 = 0 + 1 := rfl
  unfold translateAddr
  rw [if_pos hc, walk_tableOf 3 t ht, hone, walk_of_leaf hp rfl, hspan,
    Nat.div_mul_cancel (Nat.dvd_of_mod_eq_zero (entryAddr_mod _))]

/-- The two bits of the rights send no walk another way. -/
theorem SameTarget.of_bits (h : ∀ i, i ≠ 1 → i ≠ 63 → e'.getLsbD i = e.getLsbD i) :
    SameTarget e e' := by
  refine ⟨h 0 (by decide) (by decide), h 7 (by decide) (by decide), ?_⟩
  have hbits : e'.extractLsb' 12 40 = e.extractLsb' 12 40 := by
    apply BitVec.eq_of_getLsbD_eq
    intro i hi
    rw [BitVec.getLsbD_extractLsb', BitVec.getLsbD_extractLsb', h _ (by omega) (by omega)]
  rw [entryAddr, entryAddr, hbits]

/-- Storing an entry of level 1 with the same target changes the rights of its page only. -/
theorem KeepsTargets.store64 {v : List Nat} {t i : Nat} (hroot : root % 4096 = 0)
    (h : Unshared mem top root) (hv : Paging.tableOf mem top root v = some t) (hi : i < 512)
    (he : SameTarget (entryAt mem t i) e') :
    KeepsTargets mem (store64 mem (t + 8 * i) e') top root (· = i :: v) := by
  have hsame : SameBut mem (ByteMemory.store64 mem (t + 8 * i) e') top root (i :: v) :=
    h.sameBut_store64 hroot hv hi e'
  refine ⟨?_, fun hw hj hne => hsame hw hj hne⟩
  intro w s j hw hj
  by_cases hslot : j :: w = i :: v
  · obtain ⟨rfl, rfl⟩ := List.cons.inj hslot
    rw [hv] at hw
    cases hw
    have hset : entryAt (ByteMemory.store64 mem (t + 8 * j) e') t j = e' := load64_store64 _ _ _
    rw [hset]
    exact he
  · exact .of_eq (hsame hw hj hslot)

end Rights

/-! ### Hierarchies that grow -/

section Grows

/-- Tables and entries were added, and the new entries allow writes. -/
structure Adds (mem mem' : Mem) (top root : Nat) : Prop where
  kept : ∀ {v t}, tableOf mem top root v = some t → tableOf mem' top root v = some t
  same : ∀ {v t i}, tableOf mem top root v = some t → i < 512 →
    present (entryAt mem t i) = true → entryAt mem' t i = entryAt mem t i
  added : ∀ {v t i}, tableOf mem' top root v = some t → i < 512 →
    present (entryAt mem' t i) = true →
      (tableOf mem top root v = some t ∧ present (entryAt mem t i) = true) ∨
        mayWrite (entryAt mem' t i) = true

/-- The present entries on the way of `va` allow writes. -/
def WritableWay (mem : Mem) (root va : Nat) : Prop :=
  ∀ k t, tableOf mem 4 root (pathTo 4 va k) = some t →
    present (entryAt mem t (index (4 - k) va)) = true →
      mayWrite (entryAt mem t (index (4 - k) va)) = true

theorem Adds.refl (mem : Mem) (top root : Nat) : Adds mem mem top root :=
  ⟨id, fun _ _ _ => rfl, fun hv _ hp => .inl ⟨hv, hp⟩⟩

theorem Adds.trans (h : Adds mem mem' top root) (h' : Adds mem' mem'' top root) :
    Adds mem mem'' top root := by
  refine ⟨fun hv => h'.kept (h.kept hv), ?_, ?_⟩
  · intro v t i hv hi hp
    have hsame := h.same hv hi hp
    have hp' : present (entryAt mem' t i) = true := by
      rw [hsame]
      exact hp
    rw [h'.same (h.kept hv) hi hp', hsame]
  · intro v t i hv hi hp
    rcases h'.added hv hi hp with ⟨hv', hp'⟩ | hwrite
    · rw [h'.same hv' hi hp']
      exact h.added hv' hi hp'
    · exact .inr hwrite

section
variable {v : List Nat} {t i f : Nat}

/-- An empty table behind an entry that was not present. -/
theorem AddsTable.adds (h : AddsTable mem mem' top root v t i f)
    (hwrite : mayWrite (entryAt mem' t i) = true) : Adds mem mem' top root := by
  refine ⟨?_, ?_, ?_⟩
  · intro w s hw
    rw [tableOf_addTable h, if_neg, hw]
    rintro rfl
    rw [h.tableOf_eq_none] at hw
    cases hw
  · intro w s j hw hj hp
    apply h.same hw hj
    rintro heq
    obtain ⟨rfl, rfl⟩ := List.cons.inj heq
    rw [h.parent] at hw
    cases hw
    rw [h.absent] at hp
    cases hp
  · intro w s j hw hj hp
    rcases h.cases hw with ⟨-, rfl⟩ | ⟨-, hw⟩
    · -- The new table has no entries.
      rw [h.empty j hj, not_present_zero] at hp
      cases hp
    · by_cases hslot : j :: w = i :: v
      · obtain ⟨rfl, rfl⟩ := List.cons.inj hslot
        rw [h.parent] at hw
        cases hw
        exact .inr hwrite
      · rw [h.same hw hj hslot] at hp
        exact .inl ⟨hw, hp⟩

/-- A page behind an entry that was not present. -/
theorem AddsPage.adds (h : AddsPage mem mem' top root v t i)
    (habsent : Paging.present (entryAt mem t i) = false)
    (hwrite : mayWrite (entryAt mem' t i) = true) : Adds mem mem' top root := by
  refine ⟨fun hw => (tableOf_addPage h _).trans hw, ?_, ?_⟩
  · intro w s j hw hj hp
    apply h.same hw hj
    rintro heq
    obtain ⟨rfl, rfl⟩ := List.cons.inj heq
    rw [h.parent] at hw
    cases hw
    rw [habsent] at hp
    cases hp
  · intro w s j hw hj hp
    rw [tableOf_addPage h] at hw
    by_cases hslot : j :: w = i :: v
    · obtain ⟨rfl, rfl⟩ := List.cons.inj hslot
      rw [h.parent] at hw
      cases hw
      exact .inr hwrite
    · rw [h.same hw hj hslot] at hp
      exact .inl ⟨hw, hp⟩

end

/-- The page of an address keeps its entry. -/
theorem Adds.pageEntry {e : BitVec 64} (h : Adds mem mem' 4 root)
    (he : Paging.pageEntry mem root va = some e) : Paging.pageEntry mem' root va = some e := by
  obtain ⟨hc, t, ht, rfl, hp⟩ := pageEntry_eq_some.mp he
  exact pageEntry_eq_some.mpr ⟨hc, t, h.kept ht, h.same ht (index_lt 1 va) hp, hp⟩

theorem Adds.writableWay (h : Adds mem mem' 4 root) (hva : WritableWay mem root va) :
    WritableWay mem' root va := by
  intro k t ht hp
  rcases h.added ht (index_lt (4 - k) va) hp with ⟨ht', hp'⟩ | hwrite
  · rw [h.same ht' (index_lt (4 - k) va) hp']
    exact hva k t ht' hp'
  · exact hwrite

/-- An address that is mapped by an entry of level 1 is writable when its way is. -/
theorem WritableWay.writable (h : WritableWay mem root va)
    (he : (Paging.pageEntry mem root va).isSome) : Paging.writable mem root va = true := by
  obtain ⟨e, he⟩ := Option.isSome_iff_exists.mp he
  obtain ⟨-, t, ht, rfl, hp⟩ := pageEntry_eq_some.mp he
  unfold Paging.writable walkEntries
  rw [List.all_eq_true]
  intro e he
  obtain ⟨k, hk, hentry⟩ := List.mem_filterMap.mp he
  obtain ⟨s, hs, rfl⟩ := Option.map_eq_some_iff.mp hentry
  apply h k s hs
  have hk4 := List.mem_range.mp hk
  by_cases hk3 : k = 3
  · subst hk3
    rw [ht] at hs
    cases hs
    exact hp
  · -- The entries above level 1 refer to the next table on the way.
    obtain ⟨s', hs', hpresent⟩ := present_of_tableOf_pathTo ht k (by omega)
    rw [hs] at hs'
    cases hs'
    exact hpresent

end Grows

end Paging
