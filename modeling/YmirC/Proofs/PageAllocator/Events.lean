import Mathlib.Data.List.TakeWhile
import YmirC.Lib.Overwrite
import YmirC.Proofs.PageAllocator.Map

/-!
# `YmirC.Proofs.PageAllocator.Events`: the marks of `page_allocator_init`, in order

The descriptors may come in any order, so the end of the last descriptor may move back.
`initEvents` lists what the loop does to the bitmap and to the region table, one event per call of
`mark_uefi_reserved` and `mark_not_used` with the operands of its arguments, and `initLoop_eq` says
that the loop is the replay of this list.

What the loop leaves behind is then a matter of lists. The recorded regions are the reserving
events (`replay_regions`), and the status of a frame is that of the last event that holds it
(`replay_status`). A frame below `frame_end` is held by some event, because the loop cannot
pass over a frame without marking a hole there (`exists_event`): wherever the previous
descriptor ended, either it ended above the frame, and then the frame was passed before, or the
frame is in the hole or in the descriptor.

`pageAllocatorInit_sound` is the result for maps in any order.
-/

set_option autoImplicit false

namespace YmirC

open Overwrite (after)

namespace PageAllocator

/-- A call that marks frames in `page_allocator_init`. -/
inductive InitEvent where
  /-- `mark_uefi_reserved(frame, (hi - lo) / PAGE_SIZE)`. -/
  | reserveUpTo (frame hi lo : Nat)
  /-- `mark_uefi_reserved(frame, n)`. -/
  | reserve (frame n : Nat)
  /-- `mark_not_used(frame, n)`. -/
  | release (frame n : Nat)
  deriving DecidableEq, Repr

namespace InitEvent

/-- The frames an event marks. -/
def frames : InitEvent → Extent
  | .reserveUpTo frame hi lo => ⟨frame, sub64 hi lo / PAGE_SIZE⟩
  | .reserve frame n => ⟨frame, n⟩
  | .release frame n => ⟨frame, n⟩

/-- The status an event gives its frames. -/
def status : InitEvent → FrameStatus
  | .release _ _ => .unused
  | _ => .used

/-- The call itself. -/
def run (e : InitEvent) (pa : PageAllocator) : Run PageAllocator :=
  match e.status with
  | .unused => .ok (pa.markNotUsed e.frames.start e.frames.len)
  | .used => pa.markUefiReserved e.frames.start e.frames.len

/-- The subtraction of the event does not underflow, and the frame numbers it computes stay
below `FRAME_COUNT`. -/
def Safe (e : InitEvent) : Prop :=
  (∀ frame hi lo, e = .reserveUpTo frame hi lo → lo ≤ hi) ∧
    e.frames.start < FRAME_COUNT ∧ ∀ i < e.frames.len, e.frames.start + i < FRAME_COUNT

/-- The event as a write of its status. -/
def write (e : InitEvent) : Extent × FrameStatus := (e.frames, e.status)

/-- The region a reserving event records. -/
def region (e : InitEvent) : Option UefiReservedRegion :=
  match e.status with
  | .unused => none
  | .used => some ⟨e.frames.start, e.frames.len⟩

end InitEvent

/-- The hole in front of a descriptor. -/
def holeEvent (physEnd physicalStart : Nat) : List InitEvent :=
  if physEnd < physicalStart then [.reserveUpTo (phys2frame physEnd) physicalStart physEnd] else []

/-- The events of the loop of `page_allocator_init`, from `phys_end` on. -/
def initEvents : Nat → List EfiMemoryDescriptor → List InitEvent
  | _, [] => []
  | physEnd, desc :: rest =>
      if physEnd < desc.physicalStart ∧ desc.physicalStart ≥ MAX_PHYSICAL_SIZE then
        [.reserveUpTo (phys2frame physEnd) MAX_PHYSICAL_SIZE physEnd]
      else holeEvent physEnd desc.physicalStart ++
        if desc.physicalEnd ≥ MAX_PHYSICAL_SIZE then
          [.reserveUpTo (phys2frame desc.physicalStart) MAX_PHYSICAL_SIZE desc.physicalStart]
        else if isUsableMemory desc then
          .release (phys2frame desc.physicalStart) desc.numberOfPages ::
            initEvents desc.physicalEnd rest
        else
          .reserve (phys2frame desc.physicalStart) desc.numberOfPages ::
            initEvents desc.physicalEnd rest

/-- The descriptors the loop reads to their end: those in front of the first one that reaches
`MAX_PHYSICAL_SIZE`. -/
def readDescs (map : List EfiMemoryDescriptor) : List EfiMemoryDescriptor :=
  map.takeWhile fun d => d.physicalEnd < MAX_PHYSICAL_SIZE

/-- The end of the last usable descriptor of `map`, `none` when there is none. -/
def lastUsableEnd (map : List EfiMemoryDescriptor) : Option Nat :=
  ((map.filter isUsableMemory).getLast?).map EfiMemoryDescriptor.physicalEnd

/-- The events, in order. -/
def replay : List InitEvent → PageAllocator → Run PageAllocator
  | [], pa => .ok pa
  | e :: rest, pa => e.run pa >>= replay rest

theorem replay_append (es es' : List InitEvent) (pa : PageAllocator) :
    replay (es ++ es') pa = replay es pa >>= replay es' := by
  induction es generalizing pa with
  | nil => rfl
  | cons e es ih =>
      show (e.run pa >>= replay (es ++ es')) = _
      cases hrun : e.run pa with
      | error x => simp [replay, hrun]
      | ok pa' => simpa [replay, hrun] using ih pa'

theorem replay_singleton (e : InitEvent) (pa : PageAllocator) : replay [e] pa = e.run pa := by
  show (e.run pa >>= fun pa => .ok pa) = e.run pa
  cases e.run pa <;> rfl

theorem replay_holeEvent (physEnd physicalStart : Nat) (pa : PageAllocator) :
    replay (holeEvent physEnd physicalStart) pa = pa.markHole physEnd physicalStart := by
  unfold holeEvent markHole
  split
  · exact replay_singleton _ pa
  · rfl

/-! ### The loop is the replay of its events -/

theorem physicalEnd_eq {d : EfiMemoryDescriptor} (hd : d.Placed) :
    u64 (d.physicalStart + u64 (d.numberOfPages * PAGE_SIZE)) = d.physicalEnd := by
  have hw := hd.noWrap
  have hlt : d.numberOfPages * PAGE_SIZE < 2 ^ 64 := by
    simp only [EfiMemoryDescriptor.physicalEnd] at hw
    omega
  rw [u64_of_lt hlt]
  exact u64_of_lt hw

theorem readDescs_of_ge {d : EfiMemoryDescriptor} {rest : List EfiMemoryDescriptor}
    (h : d.physicalEnd ≥ MAX_PHYSICAL_SIZE) : readDescs (d :: rest) = [] := by
  simp [readDescs, Nat.not_lt.mpr h]

theorem readDescs_of_lt {d : EfiMemoryDescriptor} {rest : List EfiMemoryDescriptor}
    (h : d.physicalEnd < MAX_PHYSICAL_SIZE) : readDescs (d :: rest) = d :: readDescs rest := by
  simp [readDescs, h]

theorem lastUsableEnd_cons (d : EfiMemoryDescriptor) (map : List EfiMemoryDescriptor) :
    lastUsableEnd (d :: map) =
      if isUsableMemory d then some ((lastUsableEnd map).getD d.physicalEnd)
      else lastUsableEnd map := by
  unfold lastUsableEnd
  split
  · rename_i hu
    rw [List.filter_cons_of_pos hu, List.getLast?_cons]
    cases (map.filter isUsableMemory).getLast? <;> rfl
  · rename_i hu
    rw [List.filter_cons_of_neg hu]

/-- The loop of `page_allocator_init` is the replay of its events, and `avail_end` ends at the
end of the last usable descriptor it read. -/
theorem initLoop_eq : ∀ (map : List EfiMemoryDescriptor) (physEnd availEnd : Nat)
    (pa : PageAllocator), (∀ d ∈ map, d.Placed) →
    initLoop map physEnd availEnd pa =
      (replay (initEvents physEnd map) pa >>=
        fun pa => pure ((lastUsableEnd (readDescs map)).getD availEnd, pa)) := by
  intro map
  induction map with
  | nil =>
      intro physEnd availEnd pa _
      rfl
  | cons d rest ih =>
      intro physEnd availEnd pa hplaced
      have hd := hplaced d List.mem_cons_self
      have hrest : ∀ e ∈ rest, e.Placed := fun e he => hplaced e (List.mem_cons_of_mem d he)
      rw [initLoop, initEvents]
      -- A descriptor behind the end of memory stops the loop before its hole is marked.
      by_cases hbreak : physEnd < d.physicalStart ∧ d.physicalStart ≥ MAX_PHYSICAL_SIZE
      · have hge : d.physicalEnd ≥ MAX_PHYSICAL_SIZE :=
          Nat.le_trans hbreak.2 (Nat.le_add_right _ _)
        rw [if_pos hbreak, if_pos hbreak, readDescs_of_ge hge, replay_singleton]
        rfl
      rw [if_neg hbreak, if_neg hbreak, replay_append, replay_holeEvent, bind_assoc]
      dsimp only
      rw [physicalEnd_eq hd]
      -- Both sides mark the hole first. Behind it they agree in each of the three cases.
      refine bind_congr fun pa₁ => ?_
      by_cases hge : d.physicalEnd ≥ MAX_PHYSICAL_SIZE
      · rw [if_pos hge, if_pos hge, readDescs_of_ge hge, replay_singleton]
        rfl
      rw [if_neg hge, if_neg hge, readDescs_of_lt (Nat.not_le.mp hge), lastUsableEnd_cons]
      by_cases hu : isUsableMemory d = true
      · rw [if_pos hu, if_pos hu, if_pos hu, ih _ _ _ hrest]
        rfl
      · rw [if_neg hu, if_neg hu, if_neg hu]
        show _ = ((pa₁.markUefiReserved _ _ >>= replay _) >>= _)
        rw [bind_assoc]
        exact bind_congr fun pa₂ => ih _ _ pa₂ hrest

/-! ### What a replay leaves behind -/

variable {es : List InitEvent} {pa pa' : PageAllocator}

/-- No event of the list wraps around. -/
def NoWrap (es : List InitEvent) : Prop := ∀ e ∈ es, e.frames.start + e.frames.len ≤ 2 ^ 64

/-- A returned `mark_uefi_reserved` marked the frames and recorded the region. -/
theorem markUefiReserved_ok {frame n : Nat} (h : pa.markUefiReserved frame n = .ok pa') :
    pa'.frameEnd = pa.frameEnd ∧
      pa'.reservedRegions = pa.reservedRegions ++ [⟨frame, n⟩] ∧
      ∀ f, pa'.frameStatusAt f = (pa.markAllocated frame n).frameStatusAt f := by
  unfold markUefiReserved addReservedRegion at h
  obtain ⟨-, h⟩ := Run.ite_error_eq_ok.mp h
  cases h
  refine ⟨mark_frameEnd pa .used frame n, ?_, fun f => rfl⟩
  show (mark .used pa frame n).reservedRegions ++ _ = _
  rw [mark_reservedRegions]

theorem InitEvent.run_ok {e : InitEvent} (h : e.run pa = .ok pa') :
    pa'.frameEnd = pa.frameEnd ∧
      pa'.reservedRegions = pa.reservedRegions ++ e.region.toList ∧
      ∀ f, pa'.frameStatusAt f
        = (mark e.status pa e.frames.start e.frames.len).frameStatusAt f := by
  unfold InitEvent.run at h
  unfold InitEvent.region
  cases hs : e.status with
  | unused =>
      rw [hs] at h
      cases h
      exact ⟨mark_frameEnd pa .unused _ _,
        (mark_reservedRegions pa .unused _ _).trans (List.append_nil _).symm, fun f => rfl⟩
  | used =>
      rw [hs] at h
      exact markUefiReserved_ok h

/-- The status of a frame after a replay is that of the last event that holds it. -/
theorem replay_status (hwrap : NoWrap es) (h : replay es pa = .ok pa') (f : Nat) :
    pa'.frameStatusAt f = after (es.map InitEvent.write) (pa.frameStatusAt f) f := by
  induction es generalizing pa with
  | nil =>
      cases h
      rfl
  | cons e es ih =>
      -- The first event decides what the rest of the replay starts from.
      obtain ⟨pa₁, hrun, hrest⟩ := Run.bind_eq_ok.mp h
      obtain ⟨-, -, hstatus⟩ := InitEvent.run_ok hrun
      rw [ih (fun e' he' => hwrap e' (List.mem_cons_of_mem e he')) hrest, hstatus f,
        frameStatusAt_mark pa e.status _ _ f (hwrap e List.mem_cons_self)]
      rfl

/-- The regions after a replay are those of its reserving events. -/
theorem replay_regions (h : replay es pa = .ok pa') :
    pa'.frameEnd = pa.frameEnd ∧
      pa'.reservedRegions = pa.reservedRegions ++ es.filterMap InitEvent.region := by
  induction es generalizing pa with
  | nil =>
      cases h
      exact ⟨rfl, (List.append_nil _).symm⟩
  | cons e es ih =>
      obtain ⟨pa₁, hrun, hrest⟩ := Run.bind_eq_ok.mp h
      obtain ⟨hend, hregions, -⟩ := InitEvent.run_ok hrun
      obtain ⟨hend', hregions'⟩ := ih hrest
      refine ⟨hend'.trans hend, ?_⟩
      rw [hregions', hregions, List.append_assoc]
      congr 1
      cases he : e.region with
      | none => rw [List.filterMap_cons_none he]; rfl
      | some r => rw [List.filterMap_cons_some he]; rfl

/-- A replay returns when there is room for the regions of its reserving events. -/
theorem replay_returns
    (hroom : pa.reservedRegions.length + (es.filterMap InitEvent.region).length
      ≤ MAX_UEFI_RESERVED_RESIONS) : ∃ pa', replay es pa = .ok pa' := by
  induction es generalizing pa with
  | nil => exact ⟨pa, rfl⟩
  | cons e es ih =>
      -- Only `add_reserved_region` can fail, when the table is full.
      have hstep : ∃ pa₁, e.run pa = .ok pa₁ := by
        unfold InitEvent.run
        cases hs : e.status with
        | unused => exact ⟨_, rfl⟩
        | used =>
            have hregion : e.region = some ⟨e.frames.start, e.frames.len⟩ := by
              rw [InitEvent.region, hs]
            rw [List.filterMap_cons_some hregion, List.length_cons] at hroom
            refine ⟨_, if_neg ?_⟩
            show ¬ (mark .used pa _ _).reservedRegions.length ≥ _
            rw [mark_reservedRegions]
            omega
      obtain ⟨pa₁, hrun⟩ := hstep
      obtain ⟨-, hregions, -⟩ := InitEvent.run_ok hrun
      have hroom₁ : pa₁.reservedRegions.length + (es.filterMap InitEvent.region).length
          ≤ MAX_UEFI_RESERVED_RESIONS := by
        rw [hregions, List.length_append]
        cases he : e.region with
        | none =>
            rw [List.filterMap_cons_none he] at hroom
            simpa using hroom
        | some r =>
            rw [List.filterMap_cons_some he, List.length_cons] at hroom
            simp only [Option.toList_some, List.length_singleton]
            omega
      obtain ⟨pa', hrest⟩ := ih hroom₁
      exact ⟨pa', Run.bind_eq_ok.mpr ⟨pa₁, hrun, hrest⟩⟩

/-! ### The events of one descriptor -/

/-- The event of a descriptor that ends below `MAX_PHYSICAL_SIZE`. -/
def ownEvent (d : EfiMemoryDescriptor) : InitEvent :=
  if isUsableMemory d then .release (phys2frame d.physicalStart) d.numberOfPages
  else .reserve (phys2frame d.physicalStart) d.numberOfPages

/-- The events of the descriptor that ends the loop. -/
def lastEvents (physEnd : Nat) (d : EfiMemoryDescriptor) : List InitEvent :=
  if physEnd < d.physicalStart ∧ d.physicalStart ≥ MAX_PHYSICAL_SIZE then
    [.reserveUpTo (phys2frame physEnd) MAX_PHYSICAL_SIZE physEnd]
  else holeEvent physEnd d.physicalStart ++
    [.reserveUpTo (phys2frame d.physicalStart) MAX_PHYSICAL_SIZE d.physicalStart]

@[simp] theorem ownEvent_frames (d : EfiMemoryDescriptor) : (ownEvent d).frames = d.frames := by
  unfold ownEvent
  split <;> rfl

theorem ownEvent_status (d : EfiMemoryDescriptor) :
    (ownEvent d).status = if isUsableMemory d then .unused else .used := by
  unfold ownEvent
  split <;> rfl

theorem initEvents_of_lt {physEnd : Nat} {d : EfiMemoryDescriptor}
    {rest : List EfiMemoryDescriptor} (h : d.physicalEnd < MAX_PHYSICAL_SIZE) :
    initEvents physEnd (d :: rest) =
      holeEvent physEnd d.physicalStart ++ ownEvent d :: initEvents d.physicalEnd rest := by
  have hstart : d.physicalStart ≤ d.physicalEnd := Nat.le_add_right _ _
  rw [initEvents, if_neg (by omega), if_neg (Nat.not_le.mpr h)]
  unfold ownEvent
  split <;> rfl

theorem initEvents_of_ge {physEnd : Nat} {d : EfiMemoryDescriptor}
    {rest : List EfiMemoryDescriptor} (h : d.physicalEnd ≥ MAX_PHYSICAL_SIZE) :
    initEvents physEnd (d :: rest) = lastEvents physEnd d := by
  rw [initEvents, if_pos h]
  rfl

/-- A frame is in the range between two aligned addresses when its own address is. -/
theorem mem_frames_iff {a b f : Nat} (ha : a % PAGE_SIZE = 0) (hb : b % PAGE_SIZE = 0) :
    (phys2frame a ≤ f ∧ f < phys2frame b) ↔ a ≤ f * PAGE_SIZE ∧ f * PAGE_SIZE < b := by
  simp only [phys2frame, PAGE_SIZE] at *
  omega

/-- The frames of a reserved range between two addresses. -/
theorem reserveUpTo_frames {lo hi : Nat} (hlo : lo % PAGE_SIZE = 0) (hle : lo ≤ hi)
    (hhi : hi < 2 ^ 64) :
    (InitEvent.reserveUpTo (phys2frame lo) hi lo).frames
      = ⟨phys2frame lo, phys2frame hi - phys2frame lo⟩ := by
  show Extent.mk (phys2frame lo) (sub64 hi lo / PAGE_SIZE) = _
  rw [sub64_div_page hle hhi hlo]

theorem mem_reserveUpTo {lo hi f : Nat} (hlo : lo % PAGE_SIZE = 0) (hhi : hi % PAGE_SIZE = 0)
    (hle : lo ≤ hi) (hmax : hi < 2 ^ 64) :
    f ∈ (InitEvent.reserveUpTo (phys2frame lo) hi lo).frames ↔
      lo ≤ f * PAGE_SIZE ∧ f * PAGE_SIZE < hi := by
  rw [reserveUpTo_frames hlo hle hmax, ← mem_frames_iff hlo hhi, Extent.mem_mk]
  have := phys2frame_mono hle
  omega

theorem safe_reserveUpTo {lo hi : Nat} (hlo : lo % PAGE_SIZE = 0) (hle : lo ≤ hi)
    (hlt : lo < MAX_PHYSICAL_SIZE) (hmax : hi ≤ MAX_PHYSICAL_SIZE) :
    (InitEvent.reserveUpTo (phys2frame lo) hi lo).Safe := by
  have hword : MAX_PHYSICAL_SIZE < 2 ^ 64 := by decide
  refine ⟨?_, ?_, ?_⟩
  · intro frame hi' lo' heq
    cases heq
    exact hle
  · show phys2frame lo < FRAME_COUNT
    simp only [phys2frame, FRAME_COUNT, MAX_PHYSICAL_SIZE, PAGE_SIZE] at *
    omega
  · rw [reserveUpTo_frames hlo hle (by omega)]
    intro i hi
    simp only [phys2frame, FRAME_COUNT, MAX_PHYSICAL_SIZE, PAGE_SIZE] at *
    omega

theorem MAX_PHYSICAL_SIZE_aligned : MAX_PHYSICAL_SIZE % PAGE_SIZE = 0 := by decide

/-- The hole event holds the frames between the two addresses. -/
theorem mem_holeEvent {physEnd physicalStart f : Nat} (hal : physEnd % PAGE_SIZE = 0)
    (hal' : physicalStart % PAGE_SIZE = 0) (hmax : physicalStart < 2 ^ 64) :
    (∃ e ∈ holeEvent physEnd physicalStart, f ∈ e.frames) ↔
      physEnd ≤ f * PAGE_SIZE ∧ f * PAGE_SIZE < physicalStart := by
  unfold holeEvent
  split
  · rename_i hlt
    simp only [List.mem_singleton, exists_eq_left]
    exact mem_reserveUpTo hal hal' (Nat.le_of_lt hlt) hmax
  · rename_i hge
    constructor
    · rintro ⟨e, he, -⟩
      cases he
    · intro hf
      omega

/-- The events of the last descriptor hold every frame from `phys_end` or its start on,
whichever is lower. -/
theorem mem_lastEvents {physEnd f : Nat} {d : EfiMemoryDescriptor} (hd : d.Placed)
    (hal : physEnd % PAGE_SIZE = 0) (hlt : physEnd < MAX_PHYSICAL_SIZE) :
    (∃ e ∈ lastEvents physEnd d, f ∈ e.frames) ↔
      min physEnd d.physicalStart ≤ f * PAGE_SIZE ∧ f * PAGE_SIZE < MAX_PHYSICAL_SIZE := by
  have hword : MAX_PHYSICAL_SIZE < 2 ^ 64 := by decide
  unfold lastEvents
  split
  · rename_i hbreak
    simp only [List.mem_singleton, exists_eq_left]
    rw [mem_reserveUpTo hal MAX_PHYSICAL_SIZE_aligned (Nat.le_of_lt hlt) hword]
    omega
  · rename_i hbreak
    have hstart : d.physicalStart < MAX_PHYSICAL_SIZE := by omega
    -- The hole in front of the descriptor and the range from its start join at the start.
    have hsplit : (∃ e ∈ holeEvent physEnd d.physicalStart ++
        [InitEvent.reserveUpTo (phys2frame d.physicalStart) MAX_PHYSICAL_SIZE d.physicalStart],
        f ∈ e.frames) ↔
        (∃ e ∈ holeEvent physEnd d.physicalStart, f ∈ e.frames) ∨
          f ∈ (InitEvent.reserveUpTo (phys2frame d.physicalStart) MAX_PHYSICAL_SIZE
            d.physicalStart).frames := by
      simp only [List.mem_append, List.mem_singleton, or_and_right, exists_or, exists_eq_left]
    rw [hsplit, mem_holeEvent hal hd.aligned (by omega),
      mem_reserveUpTo hd.aligned MAX_PHYSICAL_SIZE_aligned (Nat.le_of_lt hstart) hword]
    omega

theorem status_of_mem_holeEvent {physEnd physicalStart : Nat} {e : InitEvent}
    (he : e ∈ holeEvent physEnd physicalStart) : e.status = .used := by
  unfold holeEvent at he
  split at he
  · rw [List.mem_singleton.mp he]
    rfl
  · cases he

theorem status_of_mem_lastEvents {physEnd : Nat} {d : EfiMemoryDescriptor} {e : InitEvent}
    (he : e ∈ lastEvents physEnd d) : e.status = .used := by
  unfold lastEvents at he
  split at he
  · rw [List.mem_singleton.mp he]
    rfl
  · rcases List.mem_append.mp he with he | he
    · exact status_of_mem_holeEvent he
    · rw [List.mem_singleton.mp he]
      rfl

theorem safe_of_mem_holeEvent {physEnd physicalStart : Nat} {e : InitEvent}
    (hal : physEnd % PAGE_SIZE = 0) (hlt : physEnd < MAX_PHYSICAL_SIZE)
    (hmax : physicalStart ≤ MAX_PHYSICAL_SIZE) (he : e ∈ holeEvent physEnd physicalStart) :
    e.Safe := by
  unfold holeEvent at he
  split at he
  · rename_i hhole
    rw [List.mem_singleton.mp he]
    exact safe_reserveUpTo hal (Nat.le_of_lt hhole) hlt hmax
  · cases he

theorem safe_of_mem_lastEvents {physEnd : Nat} {d : EfiMemoryDescriptor} {e : InitEvent}
    (hd : d.Placed) (hal : physEnd % PAGE_SIZE = 0) (hlt : physEnd < MAX_PHYSICAL_SIZE)
    (he : e ∈ lastEvents physEnd d) : e.Safe := by
  unfold lastEvents at he
  split at he
  · rw [List.mem_singleton.mp he]
    exact safe_reserveUpTo hal (Nat.le_of_lt hlt) hlt (Nat.le_refl _)
  · rename_i hbreak
    have hstart : d.physicalStart < MAX_PHYSICAL_SIZE := by omega
    rcases List.mem_append.mp he with he | he
    · exact safe_of_mem_holeEvent hal hlt (Nat.le_of_lt hstart) he
    · rw [List.mem_singleton.mp he]
      exact safe_reserveUpTo hd.aligned (Nat.le_of_lt hstart) hstart (Nat.le_refl _)

theorem safe_ownEvent {d : EfiMemoryDescriptor} (hd : d.Placed)
    (hlt : d.physicalEnd < MAX_PHYSICAL_SIZE) : (ownEvent d).Safe := by
  refine ⟨?_, ?_, ?_⟩
  · intro frame hi lo heq
    unfold ownEvent at heq
    split at heq <;> cases heq
  all_goals
    have hal := hd.aligned
    simp only [ownEvent_frames, EfiMemoryDescriptor.frames, EfiMemoryDescriptor.physicalEnd,
      phys2frame, FRAME_COUNT, MAX_PHYSICAL_SIZE, PAGE_SIZE] at *
    omega

/-! ### The events of a whole map -/

/-- Where the loop is: `phys_end` is aligned and below `MAX_PHYSICAL_SIZE`, and the
descriptors to come are placed. -/
structure LoopAt (physEnd : Nat) (map : List EfiMemoryDescriptor) : Prop where
  aligned : physEnd % PAGE_SIZE = 0
  inRange : physEnd < MAX_PHYSICAL_SIZE
  placed : ∀ d ∈ map, d.Placed

theorem LoopAt.start {map : List EfiMemoryDescriptor} (h : ∀ d ∈ map, d.Placed) : LoopAt 0 map :=
  ⟨rfl, by decide, h⟩

theorem LoopAt.head {physEnd : Nat} {d : EfiMemoryDescriptor} {rest : List EfiMemoryDescriptor}
    (h : LoopAt physEnd (d :: rest)) : d.Placed :=
  h.placed d List.mem_cons_self

/-- A round that does not end the loop. -/
theorem LoopAt.next {physEnd : Nat} {d : EfiMemoryDescriptor} {rest : List EfiMemoryDescriptor}
    (h : LoopAt physEnd (d :: rest)) (hlt : d.physicalEnd < MAX_PHYSICAL_SIZE) :
    LoopAt d.physicalEnd rest :=
  ⟨h.head.end_aligned, hlt, fun e he => h.placed e (List.mem_cons_of_mem d he)⟩

/-- Every event is safe. -/
theorem initEvents_safe {physEnd : Nat} {map : List EfiMemoryDescriptor} (h : LoopAt physEnd map) :
    ∀ e ∈ initEvents physEnd map, e.Safe := by
  induction map generalizing physEnd with
  | nil =>
      intro e he
      cases he
  | cons d rest ih =>
      intro e he
      have hd := h.head
      by_cases hlt : d.physicalEnd < MAX_PHYSICAL_SIZE
      · have hstart : d.physicalStart ≤ d.physicalEnd := Nat.le_add_right _ _
        rw [initEvents_of_lt hlt, List.mem_append, List.mem_cons] at he
        rcases he with he | rfl | he
        · exact safe_of_mem_holeEvent h.aligned h.inRange (by omega) he
        · exact safe_ownEvent hd hlt
        · exact ih (h.next hlt) e he
      · rw [initEvents_of_ge (Nat.not_lt.mp hlt)] at he
        exact safe_of_mem_lastEvents hd h.aligned h.inRange he

theorem InitEvent.Safe.end_le {e : InitEvent} (h : e.Safe) :
    e.frames.start + e.frames.len ≤ FRAME_COUNT := by
  obtain ⟨-, hstart, hlen⟩ := h
  rcases Nat.eq_zero_or_pos e.frames.len with h0 | hpos
  · omega
  · have := hlen (e.frames.len - 1) (by omega)
    omega

theorem initEvents_noWrap {physEnd : Nat} {map : List EfiMemoryDescriptor}
    (h : LoopAt physEnd map) : NoWrap (initEvents physEnd map) := by
  intro e he
  have hle := (initEvents_safe h e he).end_le
  have : FRAME_COUNT ≤ 2 ^ 64 := by decide
  omega

/-- On a map of nonempty descriptors every event marks some frame. -/
theorem initEvents_nonempty {physEnd : Nat} {map : List EfiMemoryDescriptor}
    (h : LoopAt physEnd map) (hne : ∀ d ∈ map, 0 < d.numberOfPages) :
    ∀ e ∈ initEvents physEnd map, 0 < e.frames.len := by
  have hword : MAX_PHYSICAL_SIZE < 2 ^ 64 := by decide
  -- A reserved range between two aligned addresses has at least one frame.
  have hrange : ∀ lo hi, lo % PAGE_SIZE = 0 → hi % PAGE_SIZE = 0 → lo < hi →
      hi ≤ MAX_PHYSICAL_SIZE → 0 < (InitEvent.reserveUpTo (phys2frame lo) hi lo).frames.len := by
    intro lo hi hlo hhi hlt hmax
    rw [reserveUpTo_frames hlo (Nat.le_of_lt hlt) (by omega)]
    simp only [phys2frame, PAGE_SIZE] at *
    omega
  have hhole : ∀ p s, p % PAGE_SIZE = 0 → s % PAGE_SIZE = 0 → s ≤ MAX_PHYSICAL_SIZE →
      ∀ e ∈ holeEvent p s, 0 < e.frames.len := by
    intro p s hp hs hmax e he
    unfold holeEvent at he
    split at he
    · rename_i hlt
      rw [List.mem_singleton.mp he]
      exact hrange p s hp hs hlt hmax
    · cases he
  induction map generalizing physEnd with
  | nil =>
      intro e he
      cases he
  | cons d rest ih =>
      intro e he
      have hd := h.head
      by_cases hlt : d.physicalEnd < MAX_PHYSICAL_SIZE
      · have hstart : d.physicalStart ≤ d.physicalEnd := Nat.le_add_right _ _
        rw [initEvents_of_lt hlt, List.mem_append, List.mem_cons] at he
        -- The hole is nonempty because its ends differ, the descriptor by assumption.
        rcases he with he | rfl | he
        · exact hhole _ _ h.aligned hd.aligned (by omega) e he
        · rw [ownEvent_frames]
          exact hne d List.mem_cons_self
        · exact ih (h.next hlt) (fun d' hd' => hne d' (List.mem_cons_of_mem d hd')) e he
      · rw [initEvents_of_ge (Nat.not_lt.mp hlt)] at he
        unfold lastEvents at he
        split at he
        · rw [List.mem_singleton.mp he]
          exact hrange _ _ h.aligned MAX_PHYSICAL_SIZE_aligned h.inRange (Nat.le_refl _)
        · rename_i hbreak
          have hinRange := h.inRange
          rcases List.mem_append.mp he with he | he
          · exact hhole _ _ h.aligned hd.aligned (by omega) e he
          · rw [List.mem_singleton.mp he]
            exact hrange _ _ hd.aligned MAX_PHYSICAL_SIZE_aligned (by omega) (Nat.le_refl _)

/-- A releasing event is the own event of a usable descriptor that was read. -/
theorem exists_desc_of_release {physEnd : Nat} {map : List EfiMemoryDescriptor} {e : InitEvent}
    (he : e ∈ initEvents physEnd map) (hs : e.status = .unused) :
    ∃ d ∈ readDescs map, isUsableMemory d = true ∧ e = ownEvent d := by
  induction map generalizing physEnd with
  | nil => cases he
  | cons d rest ih =>
      by_cases hlt : d.physicalEnd < MAX_PHYSICAL_SIZE
      · rw [initEvents_of_lt hlt, List.mem_append, List.mem_cons] at he
        rw [readDescs_of_lt hlt]
        -- Holes are reserved, so the event is that of `d` or comes later.
        rcases he with he | rfl | he
        · rw [status_of_mem_holeEvent he] at hs
          cases hs
        · rw [ownEvent_status] at hs
          have hu : isUsableMemory d = true := by
            by_contra hno
            rw [if_neg hno] at hs
            cases hs
          exact ⟨d, List.mem_cons_self, hu, rfl⟩
        · obtain ⟨d', hd', hu, heq⟩ := ih he
          exact ⟨d', List.mem_cons_of_mem d hd', hu, heq⟩
      · rw [initEvents_of_ge (Nat.not_lt.mp hlt)] at he
        rw [status_of_mem_lastEvents he] at hs
        cases hs

/-- The loop does not pass over a frame: one below the end of a descriptor it read was marked,
unless the loop started above it. -/
theorem exists_event {physEnd : Nat} {map : List EfiMemoryDescriptor} (h : LoopAt physEnd map)
    {d : EfiMemoryDescriptor} (hd : d ∈ readDescs map) {f : Nat}
    (hf : f * PAGE_SIZE < d.physicalEnd) :
    f * PAGE_SIZE < physEnd ∨ ∃ e ∈ initEvents physEnd map, f ∈ e.frames := by
  induction map generalizing physEnd with
  | nil => cases hd
  | cons d₀ rest ih =>
      by_cases hlt : d₀.physicalEnd < MAX_PHYSICAL_SIZE
      · rw [readDescs_of_lt hlt, List.mem_cons] at hd
        rw [initEvents_of_lt hlt]
        -- A frame below the end of the first descriptor is in it, in the hole or below the start.
        have hfirst : f * PAGE_SIZE < d₀.physicalEnd → f * PAGE_SIZE < physEnd ∨
            ∃ e ∈ holeEvent physEnd d₀.physicalStart ++ ownEvent d₀ ::
              initEvents d₀.physicalEnd rest, f ∈ e.frames := by
          intro hend
          by_cases hbelow : f * PAGE_SIZE < physEnd
          · exact .inl hbelow
          have hword : MAX_PHYSICAL_SIZE < 2 ^ 64 := by decide
          have hstart : d₀.physicalStart ≤ d₀.physicalEnd := Nat.le_add_right _ _
          by_cases hin : d₀.physicalStart ≤ f * PAGE_SIZE
          · refine .inr ⟨ownEvent d₀, List.mem_append_right _ List.mem_cons_self, ?_⟩
            rw [ownEvent_frames]
            exact h.head.mem_frames.mpr ⟨hin, hend⟩
          · obtain ⟨e, he, hfe⟩ := (mem_holeEvent h.aligned h.head.aligned (by omega)).mpr
              ⟨Nat.not_lt.mp hbelow, Nat.not_le.mp hin⟩
            exact .inr ⟨e, List.mem_append_left _ he, hfe⟩
        -- For a later descriptor the loop goes on at the end of the first one.
        rcases hd with rfl | hd
        · exact hfirst hf
        · rcases ih (h.next hlt) hd with hbelow | ⟨e, he, hfe⟩
          · exact hfirst hbelow
          · exact .inr ⟨e, List.mem_append_right _ (List.mem_cons_of_mem _ he), hfe⟩
      · rw [readDescs_of_ge (Nat.not_lt.mp hlt)] at hd
        cases hd

theorem frameStatusAt_empty (f : Nat) : ({} : PageAllocator).frameStatusAt f = .unused := by
  simp [frameStatusAt]

/-- What `page_allocator_init` leaves behind, in terms of its events. -/
structure Replayed (map : List EfiMemoryDescriptor) (pa : PageAllocator) : Prop where
  frameEnd : pa.frameEnd = phys2frame ((lastUsableEnd (readDescs map)).getD 0)
  status : ∀ f, pa.frameStatusAt f = after ((initEvents 0 map).map InitEvent.write) .unused f
  regions : pa.reservedRegions = (initEvents 0 map).filterMap InitEvent.region

theorem pageAllocatorInit_eq {map : List EfiMemoryDescriptor} (h : ∀ d ∈ map, d.Placed) :
    pageAllocatorInit map = (replay (initEvents 0 map) {} >>= fun pa =>
      pure { pa with frameEnd := phys2frame ((lastUsableEnd (readDescs map)).getD 0) }) := by
  unfold pageAllocatorInit
  rw [initLoop_eq map 0 0 {} h, bind_assoc]
  rfl

/-- `page_allocator_init` returns when the regions fit in the table. -/
theorem pageAllocatorInit_returns {map : List EfiMemoryDescriptor} (h : ∀ d ∈ map, d.Placed)
    (hroom : ((initEvents 0 map).filterMap InitEvent.region).length
      ≤ MAX_UEFI_RESERVED_RESIONS) : ∃ pa, pageAllocatorInit map = .ok pa := by
  have hroom' : ({} : PageAllocator).reservedRegions.length
      + ((initEvents 0 map).filterMap InitEvent.region).length ≤ MAX_UEFI_RESERVED_RESIONS := by
    simpa using hroom
  obtain ⟨pa₁, hreplay⟩ := replay_returns hroom'
  rw [pageAllocatorInit_eq h, hreplay]
  exact ⟨_, rfl⟩

theorem replayed_of_pageAllocatorInit {map : List EfiMemoryDescriptor} (h : ∀ d ∈ map, d.Placed)
    {pa : PageAllocator} (hrun : pageAllocatorInit map = .ok pa) : Replayed map pa := by
  rw [pageAllocatorInit_eq h] at hrun
  obtain ⟨pa₁, hreplay, hret⟩ := Run.bind_eq_ok.mp hrun
  cases hret
  refine ⟨rfl, fun f => ?_, (replay_regions hreplay).2⟩
  rw [← frameStatusAt_empty f]
  exact replay_status (initEvents_noWrap (.start h)) hreplay f

/-- A frame below `frame_end` lies below the end of a usable descriptor that was read. -/
theorem Replayed.below {map : List EfiMemoryDescriptor} {pa : PageAllocator} (h : Replayed map pa)
    {f : Nat} (hf : f < pa.frameEnd) :
    ∃ d ∈ readDescs map, isUsableMemory d = true ∧ f * PAGE_SIZE < d.physicalEnd := by
  rw [h.frameEnd] at hf
  cases hlast : ((readDescs map).filter isUsableMemory).getLast? with
  | none =>
      rw [lastUsableEnd, hlast] at hf
      exact absurd hf (Nat.not_lt_zero f)
  | some d =>
      -- `frame_end` is the end of the last usable descriptor that was read.
      obtain ⟨hd, hu⟩ := List.mem_filter.mp (List.mem_of_getLast? hlast)
      refine ⟨d, hd, hu, ?_⟩
      rw [lastUsableEnd, hlast] at hf
      simp only [Option.map_some, Option.getD_some, phys2frame, PAGE_SIZE] at *
      omega

theorem mem_of_mem_readDescs {map : List EfiMemoryDescriptor} {d : EfiMemoryDescriptor}
    (h : d ∈ readDescs map) : d ∈ map ∧ d.physicalEnd < MAX_PHYSICAL_SIZE :=
  ⟨(List.takeWhile_sublist _).subset h, by simpa using List.mem_takeWhile_imp h⟩

/-- `frame_end` is the end of a descriptor below `MAX_PHYSICAL_SIZE`. -/
theorem frameEnd_le_of_replayed {map : List EfiMemoryDescriptor} {pa : PageAllocator}
    (h : Replayed map pa) : pa.frameEnd ≤ FRAME_COUNT := by
  by_contra hlt
  obtain ⟨d, hd, -, hend⟩ := h.below (f := FRAME_COUNT) (Nat.not_le.mp hlt)
  have hmax := (mem_of_mem_readDescs hd).2
  have hcount : FRAME_COUNT * PAGE_SIZE = MAX_PHYSICAL_SIZE := by decide
  omega

/-- An unused frame below `frame_end` belongs to a usable descriptor that was read, and no event
behind the one of this descriptor holds it. -/
theorem Replayed.unused {map : List EfiMemoryDescriptor} {pa : PageAllocator}
    (h : Replayed map pa) (hplaced : ∀ d ∈ map, d.Placed) {f : Nat} (hf : f < pa.frameEnd)
    (hunused : pa.frameStatusAt f = .unused) :
    ∃ d ∈ readDescs map, isUsableMemory d = true ∧ f ∈ d.frames := by
  rw [h.status f] at hunused
  rcases Overwrite.after_eq ((initEvents 0 map).map InitEvent.write) .unused f with
    ⟨pre, w, post, hsplit, hfw, hval, -⟩ | ⟨-, hnone⟩
  · -- The last event that holds `f` releases it.
    have hw : w ∈ (initEvents 0 map).map InitEvent.write := by
      rw [hsplit]
      exact List.mem_append_right _ List.mem_cons_self
    obtain ⟨e, he, rfl⟩ := List.mem_map.mp hw
    obtain ⟨d, hd, hu, rfl⟩ := exists_desc_of_release he (hval.symm.trans hunused)
    exact ⟨d, hd, hu, ownEvent_frames d ▸ hfw⟩
  · -- No event holds `f`, but `f` is below `frame_end`.
    obtain ⟨d, hd, -, hlt⟩ := h.below hf
    rcases exists_event (.start hplaced) hd hlt with hzero | ⟨e, he, hfe⟩
    · exact absurd hzero (Nat.not_lt_zero _)
    · exact absurd hfe (hnone _ (List.mem_map_of_mem he))

theorem mem_regions {r : UefiReservedRegion} :
    r ∈ es.filterMap InitEvent.region ↔
      ∃ e ∈ es, e.status = .used ∧ r = ⟨e.frames.start, e.frames.len⟩ := by
  rw [List.mem_filterMap]
  constructor
  · rintro ⟨e, he, hr⟩
    unfold InitEvent.region at hr
    cases hs : e.status with
    | unused =>
        rw [hs] at hr
        cases hr
    | used =>
        rw [hs] at hr
        cases hr
        exact ⟨e, he, hs, rfl⟩
  · rintro ⟨e, he, hs, rfl⟩
    refine ⟨e, he, ?_⟩
    rw [InitEvent.region, hs]

/-- A used frame is in a recorded region. -/
theorem Replayed.used {map : List EfiMemoryDescriptor} {pa : PageAllocator} (h : Replayed map pa)
    {f : Nat} (hused : pa.frameStatusAt f = .used) :
    ∃ r ∈ pa.reservedRegions, f ∈ r.frames := by
  rw [h.status f] at hused
  rcases Overwrite.after_eq ((initEvents 0 map).map InitEvent.write) .unused f with
    ⟨pre, w, post, hsplit, hfw, hval, -⟩ | ⟨hval, -⟩
  · have hw : w ∈ (initEvents 0 map).map InitEvent.write := by
      rw [hsplit]
      exact List.mem_append_right _ List.mem_cons_self
    -- The last event that holds `f` reserved it, and recorded its range.
    obtain ⟨e, he, rfl⟩ := List.mem_map.mp hw
    refine ⟨⟨e.frames.start, e.frames.len⟩, ?_, hfw⟩
    rw [h.regions]
    exact mem_regions.mpr ⟨e, he, hval.symm.trans hused, rfl⟩
  · rw [hval] at hused
    cases hused

end PageAllocator

open PageAllocator in
/-- **`page_allocator_init` is sound in any order.** On pairwise disjoint descriptors whose
regions fit in the table, it returns; every frame below `frame_end` that the bitmap reports
unused lies in a usable descriptor that ends below `MAX_PHYSICAL_SIZE`; and the loop is the
replay of events that are all safe, so no subtraction underflows and no frame number reaches
`FRAME_COUNT`. -/
theorem pageAllocatorInit_sound (map : List EfiMemoryDescriptor) (hmap : DisjointMap map)
    (hroom : ((initEvents 0 map).filterMap InitEvent.region).length
      ≤ MAX_UEFI_RESERVED_RESIONS) :
    (∃ pa, pageAllocatorInit map = .ok pa ∧
      ∀ f < pa.frameEnd, pa.frameStatusAt f = .unused →
        ∃ d ∈ map, isUsableMemory d = true ∧ d.physicalEnd < MAX_PHYSICAL_SIZE ∧ f ∈ d.frames) ∧
    initLoop map 0 0 {} = (replay (initEvents 0 map) {} >>=
      fun pa => pure ((lastUsableEnd (readDescs map)).getD 0, pa)) ∧
    ∀ e ∈ initEvents 0 map, e.Safe := by
  obtain ⟨pa, hrun⟩ := pageAllocatorInit_returns hmap.placed hroom
  refine ⟨⟨pa, hrun, ?_⟩, initLoop_eq map 0 0 {} hmap.placed, initEvents_safe (.start hmap.placed)⟩
  intro f hf hunused
  obtain ⟨d, hd, hu, hfd⟩ :=
    (replayed_of_pageAllocatorInit hmap.placed hrun).unused hmap.placed hf hunused
  exact ⟨d, (mem_of_mem_readDescs hd).1, hu, (mem_of_mem_readDescs hd).2, hfd⟩

/-- A map that is not sorted: the hole in front of the first descriptor holds the two behind
it. -/
def shuffledMap : List EfiMemoryDescriptor :=
  [⟨.conventionalMemory, 0x5000, 2⟩, ⟨.reservedMemoryType, 0x2000, 1⟩,
   ⟨.conventionalMemory, 0x3000, 1⟩, ⟨.bootServicesCode, 0x8000, 4⟩]

theorem shuffledMap_disjoint : DisjointMap shuffledMap where
  disjoint := by
    have h : shuffledMap.Pairwise fun d e =>
        d.physicalEnd ≤ e.physicalStart ∨ e.physicalEnd ≤ d.physicalStart := by decide
    exact h.imp fun hde => hde.elim bytes_disjoint_of_le fun hle => (bytes_disjoint_of_le hle).symm
  placed := by
    have h : ∀ d ∈ shuffledMap,
        d.physicalStart % PAGE_SIZE = 0 ∧ d.physicalEnd < 2 ^ 64 := by decide
    exact fun d hd => ⟨(h d hd).1, (h d hd).2⟩

open PageAllocator in
theorem pageAllocatorInit_sound_shuffledMap :
    ((initEvents 0 shuffledMap).filterMap InitEvent.region).length = 3 ∧
      ∃ pa, pageAllocatorInit shuffledMap = .ok pa ∧ pa.frameEnd = 12 ∧
        pa.frameStatusAt 3 = .unused ∧
        ∃ d ∈ shuffledMap, isUsableMemory d = true ∧ d.physicalEnd < MAX_PHYSICAL_SIZE ∧
          3 ∈ d.frames := by
  obtain ⟨⟨pa, hrun, hsound⟩, -, -⟩ :=
    pageAllocatorInit_sound shuffledMap shuffledMap_disjoint (by decide)
  have hreplayed := replayed_of_pageAllocatorInit shuffledMap_disjoint.placed hrun
  have hend : pa.frameEnd = 12 := hreplayed.frameEnd
  have hunused : pa.frameStatusAt 3 = .unused := hreplayed.status 3
  exact ⟨by decide, pa, hrun, hend, hunused, hsound 3 (by omega) hunused⟩

end YmirC
