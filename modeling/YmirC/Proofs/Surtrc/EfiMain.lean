import YmirC.Proofs.PageAllocator.Order
import YmirC.Surtrc.EfiMain

/-!
# `YmirC.Proofs.Surtrc.EfiMain`: what the loader hands over to the kernel

The kernel runs in memory the loader obtained from the firmware, and reads the guest and the initrd
there. That is safe for two reasons. The memory map it is given is the one of the moment the boot
services ended (`efiMain_handoff`). And every page the loader obtained has a type in that
map which the page allocator of the kernel leaves alone (`handoff_kept`).

`FirmwareView` is what the firmware keeps, and `Firmware.Lawful` what its functions are documented
to do with it. `Acquires` is the effect of any part of the loader: it gives no page back, and the
types it asks for are two.
-/

set_option autoImplicit false

namespace YmirC.Surtrc

variable {φ : Type}

/-! ### The firmware -/

/-- What the firmware keeps. -/
structure FirmwareView (φ : Type) where
  /-- The pages `AllocatePages` has given to the loader, with their types. -/
  owned : φ → Nat → Option EfiMemoryType
  map : φ → List EfiMemoryDescriptor
  key : φ → Nat
  exited : φ → Bool

/-- `AllocatePages` gives pages that were nobody's. -/
structure BootServices.Gives (bs : BootServices φ) (owned : φ → Nat → Option EfiMemoryType) :
    Prop where
  aligned : ∀ {type memoryType n addr s p s'},
    bs.allocatePages type memoryType n addr s = .ok (p, s') → p % PAGE_SIZE = 0
  fresh : ∀ {type memoryType n addr s p s'},
    bs.allocatePages type memoryType n addr s = .ok (p, s') →
      ∀ g ∈ Extent.mk (p / PAGE_SIZE) n, owned s g = none
  given : ∀ {type memoryType n addr s p s'},
    bs.allocatePages type memoryType n addr s = .ok (p, s') →
      ∀ g, owned s' g = if g ∈ Extent.mk (p / PAGE_SIZE) n then some memoryType else owned s g

/-- The documented behaviour of the firmware. -/
structure Firmware.Lawful (fw : Firmware φ) (V : FirmwareView φ) : Prop where
  gives : fw.toBootServices.Gives V.owned
  clearScreen : ∀ {s s'}, fw.clearScreen s = .ok s' → V.owned s' = V.owned s
  openProtocol : ∀ {h p s a s'}, fw.openProtocol h p s = .ok (a, s') → V.owned s' = V.owned s
  openVolume : ∀ {h s a s'}, fw.openVolume h s = .ok (a, s') → V.owned s' = V.owned s
  openFile : ∀ {d n s a s'}, fw.openFile d n s = .ok (a, s') → V.owned s' = V.owned s
  setPosition : ∀ {f p s s'}, fw.setPosition f p s = .ok s' → V.owned s' = V.owned s
  read : ∀ {f n s bytes s'}, fw.read f n s = .ok (bytes, s') →
    V.owned s' = V.owned s ∧ bytes.length ≤ n
  libFileSize : ∀ {f s n s'}, fw.libFileSize f s = some (n, s') →
    V.owned s' = V.owned s ∧ n < 2 ^ 63
  close : ∀ {f s s'}, fw.close f s = .ok s' → V.owned s' = V.owned s
  allocatePool : ∀ {n s a s'}, fw.allocatePool n s = some (a, s') → V.owned s' = V.owned s
  freePool : ∀ {a s}, V.owned (fw.freePool a s) = V.owned s
  output : ∀ {s}, V.owned (fw.output s) = V.owned s
  /-- The map and its key are the current ones. -/
  getMemoryMap : ∀ {n s map s'}, fw.getMemoryMap n s = .ok (map, s') →
    map.descriptors = V.map s' ∧ map.mapKey = V.key s' ∧ V.owned s' = V.owned s
  /-- The boot services end with the current key, and with no other one. -/
  exitBootServices : ∀ {h k s status s'}, fw.exitBootServices h k s = (status, s') →
    V.owned s' = V.owned s ∧ (status ≠ EFI_INVALID_PARAMETER → EFI_ERROR status = false →
      V.exited s' = true ∧ k = V.key s) ∧ (EFI_ERROR status = true →
        status = EFI_INVALID_PARAMETER)
  /-- A log line may change the map, and then changes the key for good. -/
  key_map : ∀ {n s}, V.key (fw.output^[n] s) = V.key s → V.map (fw.output^[n] s) = V.map s
  map_placed : ∀ s, ∀ d ∈ V.map s, d.Placed
  map_owned : ∀ {s g t}, V.owned s g = some t → ∀ d ∈ V.map s, g ∈ d.frames → d.type = t

/-! ### What the loader acquires -/

/-- Pages are kept, and new ones have one of two types. -/
structure Acquires (V : FirmwareView φ) (s s' : φ) : Prop where
  kept : ∀ g t, V.owned s g = some t → V.owned s' g = some t
  types : ∀ g t, V.owned s' g = some t →
    V.owned s g = some t ∨ t = .loaderData ∨ t = .bootServicesData

section Acquire
variable {V : FirmwareView φ} {s s' s'' : φ}

theorem Acquires.of_eq (h : V.owned s' = V.owned s) : Acquires V s s' :=
  ⟨fun g t hg => by rw [h, hg], fun g t hg => Or.inl (by rw [← h, hg])⟩

theorem Acquires.refl (V : FirmwareView φ) (s : φ) : Acquires V s s := .of_eq rfl

theorem Acquires.trans (h : Acquires V s s') (h' : Acquires V s' s'') : Acquires V s s'' :=
  ⟨fun g t hg => h'.kept g t (h.kept g t hg), fun g t hg => (h'.types g t hg).elim (h.types g t)
    Or.inr⟩

theorem BootServices.Gives.acquires {bs : BootServices φ} (hbs : bs.Gives V.owned)
    {type : AllocateType} {memoryType : EfiMemoryType} {n addr p : Nat}
    (h : bs.allocatePages type memoryType n addr s = .ok (p, s'))
    (htype : memoryType = .loaderData ∨ memoryType = .bootServicesData) : Acquires V s s' := by
  refine ⟨fun g t hg => ?_, fun g t hg => ?_⟩
  · rw [hbs.given h g, if_neg, hg]
    intro hmem
    rw [hbs.fresh h g hmem] at hg
    cases hg
  · rw [hbs.given h g] at hg
    split at hg
    · cases hg
      exact Or.inr htype
    · exact Or.inl hg

end Acquire

/-- Whatever the call returns satisfies `P`. -/
def OnOk {ε α : Type} (x : Except ε α) (P : α → Prop) : Prop := ∀ a, x = .ok a → P a

section OnOk
variable {ε α β : Type} {x : Except ε α} {f : α → Except ε β} {P : α → Prop} {Q : β → Prop}

theorem OnOk.bind (hx : OnOk x P) (hf : ∀ a, P a → OnOk (f a) Q) : OnOk (x >>= f) Q := by
  intro b hb
  cases x with
  | error e => cases hb
  | ok a => exact hf a (hx a rfl) b hb

theorem onOk_ok {a : α} (h : P a) : OnOk (.ok a : Except ε α) P := by
  rintro b hb
  cases hb
  exact h

theorem onOk_error (e : ε) : OnOk (.error e : Except ε α) P := by
  rintro b hb
  cases hb

end OnOk

section Tables
variable {V : FirmwareView φ} {bs : BootServices φ} (hbs : bs.Gives V.owned)

include hbs

theorem allocateTable_acquires (m : Loader φ) :
    OnOk (allocateTable bs m) fun r => Acquires V m.fw r.2.fw := by
  unfold allocateTable allocatePages
  cases h : bs.allocatePages .anyPages .bootServicesData 1 0 m.fw with
  | error e => exact onOk_error _
  | ok r => exact onOk_ok (hbs.acquires h (Or.inr rfl))

theorem lowerEntry_acquires (virt entry : Nat) (level : TableLevel) (m : Loader φ) :
    OnOk (lowerEntry bs virt entry level m) fun r => Acquires V m.fw r.2.fw := by
  unfold lowerEntry
  dsimp only
  split
  · refine OnOk.bind ?_ fun m' h => onOk_ok h
    exact (allocateTable_acquires hbs m).bind fun (addr, m') h => onOk_ok h
  · exact onOk_ok (.refl V m.fw)

theorem map4kTo_acquires (virt phys : Nat) (m : Loader φ) :
    OnOk (map4kTo bs virt phys m) fun m' => Acquires V m.fw m'.fw := by
  unfold map4kTo
  refine (lowerEntry_acquires hbs virt _ .level3 m).bind fun (lv3ent, m₁) h₁ => ?_
  refine (lowerEntry_acquires hbs virt _ .level2 m₁).bind fun (lv2ent, m₂) h₂ => ?_
  refine (lowerEntry_acquires hbs virt _ .level1 m₂).bind fun (lv1ent, m₃) h₃ => ?_
  show OnOk (if _ then _ else _) _
  split
  · exact onOk_error _
  · exact onOk_ok ((h₁.trans h₂).trans h₃)

theorem mapPages_acquires (startVirt startPhys n : Nat) (m : Loader φ) :
    OnOk (mapPages bs startVirt startPhys n m) fun m' => Acquires V m.fw m'.fw := by
  induction n with
  | zero => exact onOk_ok (.refl V m.fw)
  | succ n ih =>
      refine ih.bind fun m' h => ?_
      exact fun m'' hm => h.trans (map4kTo_acquires hbs _ _ m' m'' hm)

theorem mapKernel_acquires (phdr : List Elf64Phdr) (m : Loader φ) :
    OnOk (mapKernel bs phdr m) fun m' => Acquires V m.fw m'.fw := by
  unfold mapKernel
  dsimp only
  split
  · exact onOk_error _
  · rename_i s h
    exact fun m' hm => (hbs.acquires h (Or.inl rfl)).trans (mapPages_acquires hbs _ _ _ _ m' hm)

theorem setLv4tableWritable_acquires (m : Loader φ) :
    OnOk (setLv4tableWritable bs m) fun m' => Acquires V m.fw m'.fw := by
  unfold setLv4tableWritable allocatePages
  cases h : bs.allocatePages .anyPages .bootServicesData 1 0 m.fw with
  | error e => exact onOk_error _
  | ok r => exact onOk_ok (hbs.acquires h (Or.inr rfl))

end Tables

/-! ### Calls -/

section Calls
variable {V : FirmwareView φ} {fw : Firmware φ} (hfw : fw.Lawful V) (m : Loader φ)

theorem onOk_ofLoad {α : Type} {x : Load α} {P : α → Prop} (h : OnOk x P) : OnOk (ofLoad x) P := by
  cases x with
  | ok a => exact onOk_ok (h a rfl)
  | error e =>
      cases e with
      | exit log => exact onOk_error _
      | status value => exact onOk_error _

theorem onOk_ofLoading {α : Type} {x : Loading α} {P : α → Prop} (h : OnOk x P) :
    OnOk (ofLoading x) P := by
  cases x with
  | ok a => exact onOk_ok (h a rfl)
  | error e =>
      cases e with
      | status value => exact onOk_error _
      | pageFault virt => exact onOk_error _

theorem onOk_tryCall {α : Type} {r : Except Nat (α × φ)} {P : α × Loader φ → Prop}
    (h : ∀ a s, r = .ok (a, s) → P (a, { m with fw := s })) : OnOk (m.tryCall r) P := by
  cases r with
  | ok a => exact onOk_ok (h a.1 a.2 rfl)
  | error e => exact onOk_error _

theorem tryCall_owned {α : Type} {r : Except Nat (α × φ)}
    (h : ∀ a s, r = .ok (a, s) → V.owned s = V.owned m.fw) :
    OnOk (m.tryCall r) fun r => V.owned r.2.fw = V.owned m.fw := onOk_tryCall m h

theorem tryDo_owned {r : Except Nat φ} (h : ∀ s, r = .ok s → V.owned s = V.owned m.fw) :
    OnOk (m.tryDo r) fun m' => V.owned m'.fw = V.owned m.fw := by
  cases r with
  | ok s => exact onOk_ok (h s rfl)
  | error e => exact onOk_error _

theorem tryPool_owned {r : Option (Nat × φ)}
    (h : ∀ a s, r = some (a, s) → V.owned s = V.owned m.fw) :
    OnOk (m.tryPool r) fun r => V.owned r.2.fw = V.owned m.fw := by
  cases r with
  | some a => exact onOk_ok (h a.1 a.2 rfl)
  | none => exact onOk_error _

theorem store_fw (virt : Nat) (bytes : List (BitVec 8)) :
    OnOk (m.store virt bytes) fun m' => m'.fw = m.fw := by
  unfold Loader.store
  split
  · exact onOk_ok rfl
  · exact onOk_error _

include hfw

theorem readFile_owned (file buffer size : Nat) (s : φ) :
    OnOk (readFile (fw.handle file) buffer size m s) fun r =>
      r.1 ≤ size ∧ r.2.1.fw = m.fw ∧ V.owned r.2.2 = V.owned s := by
  show OnOk (tryEfi (fw.read file size s) >>= _) _
  cases hread : fw.read file size s with
  | error e => exact onOk_error _
  | ok r =>
      obtain ⟨howned, hlen⟩ := hfw.read hread
      exact (store_fw m buffer r.1).bind fun m' hm => onOk_ok ⟨hlen, hm, howned⟩

theorem readSegment_owned (kernel : Nat) (ph : SegmentPhdr) (s : φ) :
    OnOk (readSegment (fw.handle kernel) ph m s) fun r => V.owned r.2.2 = V.owned s := by
  unfold readSegment
  dsimp only
  split
  · show OnOk (tryEfi (fw.setPosition kernel ph.pOffset.toNat s) >>= _) _
    cases hpos : fw.setPosition kernel ph.pOffset.toNat s with
    | error e => exact onOk_error _
    | ok s' =>
        intro r hr
        rw [(readFile_owned hfw m kernel _ _ s' r hr).2.2]
        exact hfw.setPosition hpos
  · exact onOk_ok rfl

/-- `load_segment` reads the kernel and obtains no page. -/
theorem loadSegment_owned (kernel : Nat) (phdr : List SegmentPhdr) (m : Loader φ) (s : φ) :
    OnOk (loadSegment (fw.handle kernel) phdr (m, s)) fun r => V.owned r.2 = V.owned s := by
  induction phdr generalizing m s with
  | nil => exact onOk_ok rfl
  | cons ph phdr ih =>
      unfold loadSegment
      split
      · exact ih m s
      · refine OnOk.bind (P := fun r : Loader φ × φ => V.owned r.2 = V.owned s) ?_ ?_
        · refine (readSegment_owned hfw m kernel ph s).bind fun r hr => ?_
          exact OnOk.bind (P := fun _ => True) (fun _ _ => trivial) fun m' _ => onOk_ok hr
        · rintro ⟨m', s'⟩ hs' r hr
          exact (ih m' s' r hr).trans hs'

theorem readInto_owned (file buffer size : Nat) :
    OnOk (readInto fw file buffer size m) fun r =>
      r.1 ≤ size ∧ V.owned r.2.fw = V.owned m.fw :=
  (onOk_ofLoading (readFile_owned hfw m file buffer size m.fw)).bind
    fun _ h => onOk_ok ⟨h.1, h.2.2⟩

theorem fileSize_owned (file : Nat) :
    OnOk (fileSize fw file m) fun r => r.1 < 2 ^ 63 ∧ V.owned r.2.fw = V.owned m.fw := by
  unfold fileSize
  split
  · rename_i h
    exact onOk_ok ⟨(hfw.libFileSize h).2, (hfw.libFileSize h).1⟩
  · exact onOk_error _

end Calls

/-- A file is in pages that were nobody's, and are the loader's now. -/
structure FileIn (V : FirmwareView φ) (start size : Nat) (s s' : φ) : Prop where
  fresh : ∀ k < size, V.owned s ((start + k) / PAGE_SIZE) = none
  owned : ∀ k < size, V.owned s' ((start + k) / PAGE_SIZE) = some .loaderData

/-- The page of a byte of a file. -/
theorem mem_pagesOf {start size k : Nat} (hal : start % PAGE_SIZE = 0) (hsize : size < 2 ^ 63)
    (hk : k < size) : (start + k) / PAGE_SIZE ∈ Extent.mk (start / PAGE_SIZE) (pagesOf size) := by
  have hpages : pagesOf size = (size + 4095) / 4096 := by
    unfold pagesOf u64 EFI_PAGE_SIZE
    rw [Nat.mod_eq_of_lt (by omega)]
  rw [hpages, Extent.mem_mk]
  unfold PAGE_SIZE at *
  omega

theorem logMemoryMap_fw (fw : Firmware φ) (lines : Nat) (m : Loader φ) :
    (logMemoryMap fw lines m).fw = fw.output^[lines] m.fw := by
  induction lines generalizing m with
  | zero => rfl
  | succ lines ih =>
      rw [logMemoryMap, ih]
      rfl

section Parts
variable {V : FirmwareView φ} {fw : Firmware φ} (hfw : fw.Lawful V) (m : Loader φ)

include hfw

theorem openVolume_owned (imageHandle : Nat) :
    OnOk (openVolume fw imageHandle m) fun r => V.owned r.2.fw = V.owned m.fw := by
  unfold openVolume
  refine OnOk.bind (tryCall_owned m fun a s h => hfw.openProtocol h) fun (a, m₁) h₁ => ?_
  refine OnOk.bind (tryCall_owned m₁ fun a s h => hfw.openProtocol h) fun (b, m₂) h₂ => ?_
  exact onOk_tryCall m₂ fun c s h => ((hfw.openVolume h).trans h₂).trans h₁

theorem loadFile_acquires (dir : Nat) (name : String) :
    OnOk (loadFile fw dir name m) fun r =>
      Acquires V m.fw r.2.2.2.fw ∧ FileIn V r.2.1 r.2.2.1 m.fw r.2.2.2.fw := by
  unfold loadFile
  refine OnOk.bind (tryCall_owned m fun a s h => hfw.openFile h) fun (file, m₁) h₁ => ?_
  refine (fileSize_owned hfw m₁ file).bind fun (size, m₂) h₂ => ?_
  have howned : V.owned m₂.fw = V.owned m.fw := h₂.2.trans h₁
  refine OnOk.bind (onOk_tryCall (P := fun r => Acquires V m.fw r.2.fw ∧
    FileIn V r.1 size m.fw r.2.fw) m₂ fun start s halloc => ?_) fun (start, m₃) h₃ => ?_
  · have hgives := hfw.gives.given halloc
    have hfresh := hfw.gives.fresh halloc
    have hpage := fun k hk => mem_pagesOf (hfw.gives.aligned halloc) h₂.1 (k := k) hk
    refine ⟨(Acquires.of_eq howned).trans (hfw.gives.acquires halloc (Or.inl rfl)),
      fun k hk => ?_, fun k hk => ?_⟩
    · rw [← howned]
      exact hfresh _ (hpage k hk)
    · rw [hgives, if_pos (hpage k hk)]
  · refine (readInto_owned hfw m₃ file start size).bind fun (count, m₄) h₄ => onOk_ok ?_
    refine ⟨h₃.1.trans (.of_eq h₄.2), fun k hk => ?_, fun k hk => ?_⟩
    · exact h₃.2.fresh k (Nat.lt_of_lt_of_le hk h₄.1)
    · rw [h₄.2]
      exact h₃.2.owned k (Nat.lt_of_lt_of_le hk h₄.1)

theorem loadKernelFile_acquires (kernel headerBuffer : Nat) :
    OnOk (loadKernelFile fw kernel headerBuffer m) fun r => Acquires V m.fw r.2.fw := by
  unfold loadKernelFile
  refine OnOk.bind (onOk_ofLoad (setLv4tableWritable_acquires hfw.gives m)) fun m₁ h₁ => ?_
  refine OnOk.bind (P := fun _ => True) (fun _ _ => trivial) fun header _ => ?_
  refine OnOk.bind (tryDo_owned m₁ fun s h => hfw.setPosition h) fun m₂ h₂ => ?_
  refine OnOk.bind (tryPool_owned m₂ fun a s h => hfw.allocatePool h) fun (phBuffer, m₃) h₃ => ?_
  refine (readInto_owned hfw m₃ kernel phBuffer (phsize header)).bind fun (count, m₄) h₄ => ?_
  refine OnOk.bind (P := fun _ => True) (fun _ _ => trivial) fun phdr _ => ?_
  have h₄' : Acquires V m.fw m₄.fw := h₁.trans (.of_eq ((h₄.2.trans h₃).trans h₂))
  refine OnOk.bind (onOk_ofLoad (mapKernel_acquires hfw.gives _ m₄)) fun m₅ h₅ => ?_
  refine OnOk.bind (P := fun _ => True) (fun _ _ => trivial) fun phdr' _ => ?_
  refine OnOk.bind (onOk_ofLoading (loadSegment_owned hfw kernel phdr' m₅ m₅.fw))
    fun (m₆, s) h₆ => onOk_ok ?_
  exact (h₄'.trans h₅).trans (.of_eq h₆)

theorem logMemoryMap_owned (lines : Nat) :
    V.owned (logMemoryMap fw lines m).fw = V.owned m.fw := by
  induction lines generalizing m with
  | zero => rfl
  | succ lines ih =>
      rw [logMemoryMap, ih]
      exact hfw.output

/-- The map is the current one behind the call. -/
theorem getMemoryMap_current : OnOk (getMemoryMap fw m) fun r =>
    r.1.descriptors = V.map r.2.fw ∧ r.1.mapKey = V.key r.2.fw ∧ V.owned r.2.fw = V.owned m.fw := by
  refine onOk_tryCall m fun map s h => ?_
  cases hcall : fw.getMemoryMap MAP_BUFFER_SIZE m.fw with
  | error e =>
      rw [hcall] at h
      cases h
  | ok r =>
      rw [hcall] at h
      cases h
      obtain ⟨hmap, hkey, howned⟩ := hfw.getMemoryMap hcall
      exact ⟨hmap, hkey, howned⟩

end Parts

/-- `ExitBootServices` in the state `s` has ended the boot services, and the map was the one of
`s`. -/
structure Exits (V : FirmwareView φ) (fw : Firmware φ) (imageHandle : Nat) (map : MemoryMap)
    (s s' : φ) : Prop where
  call : ∃ status, fw.exitBootServices imageHandle map.mapKey s = (status, s')
  exited : V.exited s' = true
  current : map.descriptors = V.map s
  owned : V.owned s' = V.owned s

section Leave
variable {V : FirmwareView φ} {fw : Firmware φ} (hfw : fw.Lawful V) (m : Loader φ)

include hfw

/-- A call of `ExitBootServices` with the key of a map. The call that returns no error was made with
the current key, so that the map is current, too, whatever happened since it was read. -/
theorem exits_of_call {imageHandle : Nat} {map : MemoryMap} {s₀ s s' : φ} {status : Nat}
    (hmap : map.descriptors = V.map s₀) (hkey : map.mapKey = V.key s₀) (n : Nat)
    (hlines : s = fw.output^[n] s₀)
    (hcall : fw.exitBootServices imageHandle map.mapKey s = (status, s'))
    (hstatus : status ≠ EFI_INVALID_PARAMETER) : Exits V fw imageHandle map s s' := by
  obtain ⟨howned, hexit, herror⟩ := hfw.exitBootServices hcall
  have hok : EFI_ERROR status = false := by
    cases h : EFI_ERROR status with
    | false => rfl
    | true => exact absurd (herror h) hstatus
  obtain ⟨hexited, hcurrent⟩ := hexit hstatus hok
  refine ⟨⟨status, hcall⟩, hexited, ?_, howned⟩
  rw [hmap, hlines]
  refine (hfw.key_map ?_).symm
  rw [← hlines, ← hcurrent, hkey]

theorem leaveBootServices_exits (imageHandle : Nat) :
    OnOk (leaveBootServices fw imageHandle m) fun r =>
      ∃ s, Exits V fw imageHandle r.1 s r.2.fw ∧ V.owned s = V.owned m.fw := by
  unfold leaveBootServices
  refine (getMemoryMap_current hfw m).bind fun (map, m₁) h₁ => ?_
  have hlines := logMemoryMap_fw fw (map.mapSize / map.descriptorSize + 2) m₁
  have hlog := logMemoryMap_owned hfw m₁ (map.mapSize / map.descriptorSize + 2)
  dsimp only
  generalize logMemoryMap fw (map.mapSize / map.descriptorSize + 2) m₁ = m₂ at hlines hlog ⊢
  have howned : V.owned m₂.fw = V.owned m.fw := hlog.trans h₁.2.2
  split
  · refine (getMemoryMap_current hfw _).bind fun (map', m₃) h₃ => ?_
    split
    · exact onOk_error _
    · rename_i herror
      refine onOk_ok ⟨m₃.fw, exits_of_call hfw h₃.1 h₃.2.1 0 rfl rfl fun hstatus => ?_, ?_⟩
      · rw [hstatus] at herror
        exact herror (by decide)
      · rw [h₃.2.2]
        exact ((hfw.exitBootServices rfl).1).trans howned
  · rename_i hstatus
    exact onOk_ok ⟨m₂.fw, exits_of_call hfw h₁.1 h₁.2.1 _ hlines rfl hstatus, howned⟩

end Leave

/-- What `efi_main` hands over. -/
structure HandsOver (V : FirmwareView φ) (fw : Firmware φ) (imageHandle : Nat) (info : BootInfo)
    (s₀ s s' : φ) : Prop where
  magic : info.magic = MAGIC
  exits : Exits V fw imageHandle info.map s s'
  acquires : Acquires V s₀ s
  guest : ∀ k < info.guestInfo.guestSize,
    V.owned s ((info.guestInfo.guestImage + k) / PAGE_SIZE) = some .loaderData
  initrd : ∀ k < info.guestInfo.initrdSize,
    V.owned s ((info.guestInfo.initrdAddr + k) / PAGE_SIZE) = some .loaderData
  apart : ∀ j < info.guestInfo.guestSize, ∀ k < info.guestInfo.initrdSize,
    info.guestInfo.guestImage + j ≠ info.guestInfo.initrdAddr + k

theorem efiMain_handsOver {V : FirmwareView φ} {fw : Firmware φ} (hfw : fw.Lawful V)
    (imageHandle : Nat) (m : Loader φ) : OnOk (efiMain fw imageHandle m) fun r =>
      ∃ s, HandsOver V fw imageHandle r.2.1 m.fw s r.2.2.fw := by
  unfold efiMain
  refine OnOk.bind (tryDo_owned m fun s h => hfw.clearScreen h) fun m₁ h₁ => ?_
  refine (openVolume_owned hfw m₁ imageHandle).bind fun (rootDir, m₂) h₂ => ?_
  refine OnOk.bind (tryCall_owned m₂ fun a s h => hfw.openFile h) fun (kernel, m₃) h₃ => ?_
  refine OnOk.bind (tryPool_owned m₃ fun a s h => hfw.allocatePool h)
    fun (headerBuffer, m₄) h₄ => ?_
  refine (readInto_owned hfw m₄ kernel headerBuffer SIZEOF_EHDR).bind fun (count, m₅) h₅ => ?_
  have hstart : Acquires V m.fw m₅.fw :=
    .of_eq ((((h₅.2.trans h₄).trans h₃).trans h₂).trans h₁)
  refine OnOk.bind (P := fun _ => True) (fun _ _ => trivial) fun header _ => ?_
  refine (loadKernelFile_acquires hfw m₅ kernel headerBuffer).bind fun (phBuffer, m₆) h₆ => ?_
  refine (loadFile_acquires hfw m₆ rootDir "bzImage").bind
    fun (guest, guestStart, guestSize, m₇) h₇ => ?_
  refine (loadFile_acquires hfw m₇ rootDir "rootfs.cpio.gz").bind
    fun (initrd, initrdStart, initrdSize, m₈) h₈ => ?_
  dsimp only
  refine OnOk.bind (tryDo_owned _ fun s h => hfw.close h) fun m₉ h₉ => ?_
  refine OnOk.bind (tryDo_owned m₉ fun s h => hfw.close h) fun m₁₀ h₁₀ => ?_
  refine OnOk.bind (tryDo_owned m₁₀ fun s h => hfw.close h) fun m₁₁ h₁₁ => ?_
  refine (leaveBootServices_exits hfw m₁₁ imageHandle).bind fun (map, m₁₂) h₁₂ => onOk_ok ?_
  obtain ⟨s, hexits, howned⟩ := h₁₂
  have hfree : V.owned s = V.owned m₈.fw :=
    ((((howned.trans h₁₁).trans h₁₀).trans h₉).trans hfw.freePool).trans hfw.freePool
  refine ⟨s, rfl, hexits, ?_, fun k hk => ?_, fun k hk => ?_, fun j hj k hk heq => ?_⟩
  · exact ((hstart.trans h₆).trans (h₇.1.trans h₈.1)).trans (.of_eq hfree)
  · rw [hfree]
    exact h₈.1.kept _ _ (h₇.2.owned k hk)
  · rw [hfree]
    exact h₈.2.owned k hk
  · -- the pages of the guest were the loader's when those of the initrd were nobody's
    have hguest := h₇.2.owned j hj
    have hinitrd := h₈.2.fresh k hk
    rw [heq, hinitrd] at hguest
    cases hguest

/-! ### The page allocator of the kernel -/

section Kernel
open PageAllocator

/-- No frame of the block is a page the loader obtained. -/
def AwayFrom (owned : Nat → Option EfiMemoryType) (reconstructed : Bool) (b : Extent) : Prop :=
  ∃ f, b.start = phys2virt reconstructed (f * PAGE_SIZE) ∧
    ∀ g ∈ Extent.mk f (u64 (b.len + PAGE_SIZE - 1) / PAGE_SIZE), owned g = none

theorem awayFrom_of_fromUnused {V : FirmwareView φ} {fw : Firmware φ} (hfw : fw.Lawful V) {s : φ}
    (htypes : ∀ g t, V.owned s g = some t → t = .loaderData ∨ t = .bootServicesData)
    {pa₀ pa : PageAllocator} (hinit : pageAllocatorInit (V.map s) = .ok pa₀)
    (hend : pa.frameEnd = pa₀.frameEnd)
    (hunused : ∀ f, pa.frameStatusAt f = .unused → pa₀.frameStatusAt f = .unused)
    {reconstructed : Bool} {b : Extent} (hb : FromUnused reconstructed pa b) :
    AwayFrom (V.owned s) reconstructed b := by
  obtain ⟨f, hstart, hlen, hfrom⟩ := hb
  refine ⟨f, hstart, fun g hg => ?_⟩
  have hlt : g < pa₀.frameEnd := by
    rw [Extent.mem_mk] at hg
    omega
  have hreplayed := replayed_of_pageAllocatorInit (hfw.map_placed s) hinit
  obtain ⟨d, hd, husable, hgd⟩ :=
    hreplayed.unused (hfw.map_placed s) hlt (hunused g (hfrom g hg).2)
  cases howned : V.owned s g with
  | none => rfl
  | some t =>
      -- the descriptor of the page has its type, which is not usable
      have htype := hfw.map_owned howned d (mem_of_mem_readDescs hd).1 hgd
      rcases htypes g t howned with rfl | rfl
      · simp [isUsableMemory, htype] at husable
      · simp [isUsableMemory, htype] at husable

end Kernel

/-! ### A firmware with a disk

A memory of 40 pages, of which the first 16 are the firmware's: the tables are in 1 to 5, the pool
is in 8. The kernel is one segment of four bytes, two of them in the file. -/

section Sample
open ByteMemory Paging

/-- Its state. The position is the one in the file that was opened last. -/
structure Disk where
  given : List (Extent × EfiMemoryType)
  next : Nat
  pool : Nat
  position : Nat
  key : Nat
  exited : Bool
  deriving DecidableEq

def Disk.owned (s : Disk) (g : Nat) : Option EfiMemoryType :=
  (s.given.find? fun x => g ∈ x.1).map Prod.snd

def Disk.map (s : Disk) : List EfiMemoryDescriptor :=
  (List.range 40).map fun g =>
    { type := (s.owned g).getD (if g < 16 then .reservedMemoryType else .conventionalMemory)
      physicalStart := g * PAGE_SIZE
      numberOfPages := 1 }

/-- The bytes of a number in a file. -/
def numberBytes (bytes value : Nat) : List (BitVec 8) :=
  (List.range bytes).map fun i => BitVec.ofNat 8 (value / 256 ^ i)

def kernelHeader : List (BitVec 8) :=
  [0x7F, 0x45, 0x4C, 0x46] ++ List.replicate 20 0 ++ numberBytes 8 0xFFFFFFFF80020000 ++
    numberBytes 8 64 ++ List.replicate 14 0 ++ numberBytes 2 56 ++ numberBytes 2 1 ++
    List.replicate 6 0

def kernelPhdr : List (BitVec 8) :=
  numberBytes 4 1 ++ numberBytes 4 5 ++ numberBytes 8 120 ++ numberBytes 8 0xFFFFFFFF80020000 ++
    numberBytes 8 0x20000 ++ numberBytes 8 2 ++ numberBytes 8 4 ++ numberBytes 8 4096

/-- The files of the handles 2, 3 and 4. Handle 1 is the directory. -/
def fileContent : Nat → List (BitVec 8)
  | 2 => kernelHeader ++ kernelPhdr ++ [0xF4, 0xC3]
  | 3 => [1, 2, 3]
  | 4 => [4, 5]
  | _ => []

/-- The first of the pages that are asked for. -/
def Disk.place (s : Disk) (addr : Nat) : AllocateType → Nat
  | .anyPages => s.next
  | .address => addr / PAGE_SIZE

def diskFirmware : Firmware Disk where
  allocatePages type memoryType n addr s :=
    let p := s.place addr type
    if (type = .address → addr % PAGE_SIZE = 0) ∧ ∀ i < n, s.owned (p + i) = none then
      .ok (p * PAGE_SIZE,
        { s with
          given := (⟨p, n⟩, memoryType) :: s.given
          next := if type = .anyPages then s.next + n else s.next
          key := s.key + 1 })
    else .error EFI_OUT_OF_RESOURCES
  clearScreen s := .ok s
  openProtocol handle _ s := .ok (handle, s)
  deviceHandle loadedImage _ := loadedImage
  openVolume _ s := .ok (1, s)
  openFile _ name s :=
    .ok (if name = "ymirc.elf" then 2 else if name = "bzImage" then 3 else 4,
      { s with position := 0 })
  setPosition _ position s := .ok { s with position := position }
  read file size s :=
    let bytes := ((fileContent file).drop s.position).take size
    .ok (bytes, { s with position := s.position + bytes.length })
  libFileSize file s := some ((fileContent file).length, s)
  close _ s := .ok s
  allocatePool size s := some (s.pool, { s with pool := s.pool + size })
  freePool _ s := s
  getMemoryMap size s := .ok (⟨size, s.map, 40 * 48, s.key, 48, 1⟩, s)
  output s := s
  exitBootServices _ mapKey s :=
    if mapKey = s.key then (0, { s with exited := true }) else (EFI_INVALID_PARAMETER, s)

def diskView : FirmwareView Disk where
  owned := Disk.owned
  map := Disk.map
  key := Disk.key
  exited := Disk.exited

theorem owned_cons (s : Disk) (x : Extent × EfiMemoryType) (g next key : Nat) :
    Disk.owned { s with given := x :: s.given, next := next, key := key } g
      = if g ∈ x.1 then some x.2 else s.owned g := by
  unfold Disk.owned
  by_cases hg : g ∈ x.1
  · simp [hg]
  · simp [hg]

theorem diskFirmware_gives : diskFirmware.toBootServices.Gives diskView.owned := by
  have hcall : ∀ {type memoryType n addr s p s'},
      diskFirmware.allocatePages type memoryType n addr s = .ok (p, s') →
        ∃ q, p = q * PAGE_SIZE ∧ (∀ i < n, s.owned (q + i) = none) ∧
          ∀ g, s'.owned g = if g ∈ Extent.mk q n then some memoryType else s.owned g := by
    intro type memoryType n addr s p s' h
    simp only [diskFirmware] at h
    split at h
    · rename_i hfree
      cases h
      exact ⟨_, rfl, hfree.2, fun g => owned_cons s _ g _ _⟩
    · cases h
  have hdiv : ∀ q, q * PAGE_SIZE / PAGE_SIZE = q := fun q => Nat.mul_div_cancel q (by decide)
  refine ⟨?_, ?_, ?_⟩
  · intro type memoryType n addr s p s' h
    obtain ⟨q, rfl, -, -⟩ := hcall h
    exact Nat.mul_mod_left q PAGE_SIZE
  · intro type memoryType n addr s p s' h g hg
    obtain ⟨q, rfl, hfree, -⟩ := hcall h
    rw [hdiv, Extent.mem_mk] at hg
    have hnone := hfree (g - q) (by omega)
    rwa [Nat.add_sub_cancel' hg.1] at hnone
  · intro type memoryType n addr s p s' h
    obtain ⟨q, rfl, -, hgiven⟩ := hcall h
    rw [hdiv]
    exact hgiven

theorem diskFirmware_lawful : diskFirmware.Lawful diskView where
  gives := diskFirmware_gives
  clearScreen := by rintro s s' ⟨⟩; rfl
  openProtocol := by rintro h p s a s' ⟨⟩; rfl
  openVolume := by rintro h s a s' ⟨⟩; rfl
  openFile := by rintro d n s a s' ⟨⟩; rfl
  setPosition := by rintro f p s s' ⟨⟩; rfl
  read := by
    rintro f n s bytes s' ⟨⟩
    exact ⟨rfl, List.length_take_le _ _⟩
  libFileSize := by
    rintro f s n s' ⟨⟩
    refine ⟨rfl, ?_⟩
    unfold fileContent
    split
    all_goals decide
  close := by rintro f s s' ⟨⟩; rfl
  allocatePool := by rintro n s a s' ⟨⟩; rfl
  freePool := rfl
  output := rfl
  getMemoryMap := by
    rintro n s map s' ⟨⟩
    exact ⟨rfl, rfl, rfl⟩
  exitBootServices := by
    intro h k s status s' hcall
    simp only [diskFirmware] at hcall
    split at hcall
    · rename_i hk
      cases hcall
      exact ⟨rfl, fun _ _ => ⟨rfl, hk⟩, fun h => by cases h⟩
    · cases hcall
      exact ⟨rfl, fun h => absurd rfl h, fun _ => rfl⟩
  key_map := by
    intro n s _
    have hid : diskFirmware.output = id := rfl
    rw [hid, Function.iterate_id, id]
  map_placed := by
    intro s d hd
    obtain ⟨g, hg, rfl⟩ := List.mem_map.mp hd
    have hlt := List.mem_range.mp hg
    refine ⟨Nat.mul_mod_left g PAGE_SIZE, ?_⟩
    simp only [EfiMemoryDescriptor.physicalEnd, PAGE_SIZE]
    omega
  map_owned := by
    intro s g t hg d hd hgd
    obtain ⟨g', -, rfl⟩ := List.mem_map.mp hd
    have heq : g = g' := by
      simp only [EfiMemoryDescriptor.frames, phys2frame, Extent.mem_mk, PAGE_SIZE] at hgd
      omega
    subst heq
    show (s.owned g).getD _ = t
    rw [show s.owned g = some t from hg]
    rfl

/-- One entry of level 4 and a large one of level 3 map the first GiB to itself. -/
structure MapsLow (mem : Mem) (root : Nat) : Prop where
  level4 : entryAt mem root 0 = 0x2003#64
  level3 : entryAt mem 0x2000 0 = 0x83#64

section Low
variable {mem : Mem} {root va : Nat}

theorem index_low (hva : va < 2 ^ 30) : index 4 va = 0 ∧ index 3 va = 0 := by
  simp only [index, span]
  omega

theorem MapsLow.translateAddr (h : MapsLow mem root) (hva : va < 2 ^ 30) :
    translateAddr mem root va = some va := by
  have hcanonical : canonical va = true := (canonical_iff va).mpr (Or.inl (by omega))
  obtain ⟨h4, h3⟩ := index_low hva
  have hmod : va % 2 ^ 30 = va := Nat.mod_eq_of_lt hva
  rw [Paging.translateAddr, if_pos hcanonical, walk, h4, h.level4]
  show walk mem 3 0x2000 va = _
  rw [walk, h3, h.level3]
  show some (0 + va % 2 ^ 30) = _
  rw [hmod, Nat.zero_add]

theorem MapsLow.writable (h : MapsLow mem root) (hva : va < 2 ^ 30) :
    writable mem root va = true := by
  obtain ⟨h4, h3⟩ := index_low hva
  have hroot : child mem 4 root 0 = some 0x2000 := by
    rw [child, h.level4]
    rfl
  have hlow : child mem 3 0x2000 0 = none := by
    rw [child, h.level3]
    rfl
  have hentries : walkEntries mem 4 root va = [0x2003#64, 0x83#64] := by
    simp [walkEntries, List.range, List.range.loop, tableOf, pathTo, h4, h3, hroot, hlow, h.level4,
      h.level3]
  rw [Paging.writable, hentries]
  decide

/-- Bytes in one piece. -/
def putBytes (mem : Mem) (a : Nat) (bytes : List (BitVec 8)) : Mem := fun b =>
  if a ≤ b ∧ b < a + bytes.length then bytes.getD (b - a) 0 else mem b

theorem MapsLow.putBytes (h : MapsLow mem root) {a : Nat} {bytes : List (BitVec 8)}
    (htable : 0x2008 ≤ a) (hroot : a + bytes.length ≤ root ∨ root + 8 ≤ a) :
    MapsLow (putBytes mem a bytes) root := by
  constructor
  · rw [← h.level4]
    refine load64_congr fun k hk => ?_
    rw [Surtrc.putBytes, if_neg (by omega)]
  · rw [← h.level3]
    refine load64_congr fun k hk => ?_
    rw [Surtrc.putBytes, if_neg (by omega)]

theorem MapsLow.storeAll {bytes : List (BitVec 8)} (h : MapsLow mem root) {a : Nat}
    (htable : 0x2008 ≤ a) (hroot : a + bytes.length ≤ root ∨ root + 8 ≤ a)
    (hlow : a + bytes.length ≤ 2 ^ 30) :
    storeAll root mem a bytes = .ok (Surtrc.putBytes mem a bytes) := by
  induction bytes generalizing mem a with
  | nil =>
      rw [Paging.storeAll]
      congr 1
      funext b
      rw [Surtrc.putBytes, if_neg (by simp only [List.length_nil]; omega)]
  | cons x bytes ih =>
      simp only [List.length_cons] at hroot hlow
      have hone : MapsLow (Surtrc.putBytes mem a [x]) root :=
        h.putBytes htable (by simp only [List.length_singleton]; omega)
      have hstore : storeVirt mem root a x = .ok (Surtrc.putBytes mem a [x]) := by
        rw [storeVirt_ok (h.translateAddr (by omega)) (h.writable (by omega))]
        congr 1
        funext b
        by_cases hb : b = a
        · subst hb
          simp [Surtrc.putBytes]
        · have hout : ¬ (a ≤ b ∧ b < a + [x].length) := by
            simp only [List.length_singleton]
            omega
          rw [Function.update_of_ne hb, Surtrc.putBytes, if_neg hout]
      rw [Paging.storeAll, hstore]
      refine (ih hone (by omega) (by omega) (by omega)).trans ?_
      congr 1
      funext b
      simp only [Surtrc.putBytes, List.length_cons, List.length_nil]
      by_cases hb : b = a
      · subst hb
        rw [if_neg (by omega), if_pos (by omega), if_pos (by omega), Nat.sub_self]
        rfl
      · by_cases hin : a + 1 ≤ b ∧ b < a + 1 + bytes.length
        · obtain ⟨k, rfl⟩ : ∃ k, b = a + 1 + k := ⟨b - (a + 1), by omega⟩
          rw [if_pos hin, if_pos (by omega)]
          have hk : a + 1 + k - a = k + 1 := by omega
          rw [hk, Nat.add_sub_cancel_left]
          rfl
        · rw [if_neg hin, if_neg (by omega), if_neg (by omega)]

end Low

theorem bind_eq_of_ok {ε α β : Type} {x : Except ε α} {f : α → Except ε β} {a : α} {r : Except ε β}
    (hx : x = .ok a) (hf : f a = r) : (x >>= f) = r := by
  rw [hx]
  exact hf

/-- `read_file` below 1GiB. -/
theorem readInto_low {fw : Firmware φ} {m : Loader φ} (hlow : MapsLow m.mem m.cr3)
    {file buffer size : Nat} {bytes : List (BitVec 8)} {s : φ}
    (hread : fw.read file size m.fw = .ok (bytes, s)) (htable : 0x2008 ≤ buffer)
    (hroot : buffer + bytes.length ≤ m.cr3 ∨ m.cr3 + 8 ≤ buffer)
    (hend : buffer + bytes.length ≤ 2 ^ 30) :
    readInto fw file buffer size m =
      .ok (bytes.length, { m with mem := putBytes m.mem buffer bytes, fw := s }) := by
  have hfile : readFile (fw.handle file) buffer size m m.fw =
      .ok (bytes.length, { m with mem := putBytes m.mem buffer bytes }, s) := by
    show (tryEfi (fw.read file size m.fw) >>= _) = _
    rw [hread]
    show (m.store buffer bytes >>= _) = _
    rw [Loader.store, hlow.storeAll htable hroot hend]
    rfl
  show (ofLoading (readFile (fw.handle file) buffer size m m.fw) >>= _) = _
  rw [hfile]
  rfl

theorem setLv4tableWritable_eq {bs : BootServices φ} {m : Loader φ} {table : Nat} {s : φ}
    (halloc : bs.allocatePages .anyPages .bootServicesData 1 0 m.fw = .ok (table, s))
    (hdisj : table + 4096 ≤ m.cr3 ∨ m.cr3 + 4096 ≤ table) :
    setLv4tableWritable bs m = .ok
      { mem := fun b =>
          if table ≤ b ∧ b < table + 4096 then m.mem (m.cr3 + (b - table)) else m.mem b
        cr3 := table
        fw := s } := by
  have hcopy : copyBytes m.mem table m.cr3 4096 = fun b =>
      if table ≤ b ∧ b < table + 4096 then m.mem (m.cr3 + (b - table)) else m.mem b :=
    funext fun b => copyBytes_apply m.mem table m.cr3 b 4096 hdisj
  unfold setLv4tableWritable allocatePages
  rw [halloc, ← hcopy]
  rfl

/-- The tables of the firmware, word by word. Those of the kernel are there down to level 1. -/
def diskWords (k : Nat) : BitVec 64 :=
  if k = 512 then 0x2003#64
  else if k = 512 + 511 then 0x3003#64
  else if k = 1024 then 0x83#64
  else if k = 1536 + 510 then 0x4003#64
  else if k = 2048 then 0x5003#64
  else 0#64

def disk₀ : Disk where
  given := []
  next := 16
  pool := 0x8000
  position := 0
  key := 0
  exited := false

def diskLoader : Loader Disk where
  mem := ofWords diskWords
  cr3 := 0x1000
  fw := disk₀

/-- With the header of the kernel. -/
def loader₁ : Loader Disk :=
  { diskLoader with
    mem := putBytes diskLoader.mem 0x8000 kernelHeader
    fw := { disk₀ with pool := 0x8040, position := 64 } }

/-- With the table of level 4 in page 16. -/
def loader₂ : Loader Disk where
  mem := fun b =>
    if 0x10000 ≤ b ∧ b < 0x11000 then loader₁.mem (0x1000 + (b - 0x10000)) else loader₁.mem b
  cr3 := 0x10000
  fw := { loader₁.fw with given := [(⟨16, 1⟩, .bootServicesData)], next := 17, key := 1 }

/-- With the program header. -/
def loader₃ : Loader Disk :=
  { loader₂ with
    mem := putBytes loader₂.mem 0x8040 kernelPhdr
    fw := { loader₂.fw with pool := 0x8078, position := 120 } }

/-- The rest of `loadKernelFile`. -/
def loadDiskKernel : Efi (Nat × Loader Disk) := do
  let phdr ← readPhdrs loader₃ 0x8040 1
  let m ← ofLoad (mapKernel diskFirmware.toBootServices (phdr.map SegmentPhdr.toElf64Phdr) loader₃)
  let phdr ← readPhdrs m 0x8040 1
  let (m, s) ← ofLoading (loadSegment (diskFirmware.handle 2) phdr (m, m.fw))
  .ok (0x8040, { m with fw := s })

/-- With the kernel, which is in page 32. -/
def disk₄ : Disk :=
  { loader₃.fw with
    given := [(⟨32, 1⟩, .loaderData), (⟨16, 1⟩, .bootServicesData)], key := 2, position := 122 }

theorem loadDiskKernel_eq : ∃ m, loadDiskKernel = .ok (0x8040, m) ∧ m.fw = disk₄ ∧
    m.cr3 = 0x10000 ∧ MapsLow m.mem m.cr3 := by
  have hrun : (loadDiskKernel.toOption.map fun r =>
      (r.1, r.2.fw, r.2.cr3, entryAt r.2.mem 0x10000 0, entryAt r.2.mem 0x2000 0)) =
        some (0x8040, disk₄, 0x10000, 0x2003#64, 0x83#64) := by
    decide +kernel
  cases h : loadDiskKernel with
  | error e =>
      rw [h] at hrun
      cases hrun
  | ok r =>
      rw [h] at hrun
      simp only [Except.toOption, Option.map_some, Option.some.injEq, Prod.mk.injEq] at hrun
      obtain ⟨hbuffer, hfw, hcr3, hlevel4, hlevel3⟩ := hrun
      refine ⟨r.2, ?_, hfw, hcr3, ?_, hlevel3⟩
      · rw [← hbuffer]
      · rw [hcr3, hlevel4]

theorem mapsLow_diskLoader : MapsLow diskLoader.mem diskLoader.cr3 := ⟨by decide, by decide⟩

theorem mapsLow_loader₂ : MapsLow loader₂.mem loader₂.cr3 := ⟨by decide +kernel, by decide +kernel⟩

theorem loadKernelFile_disk : loadKernelFile diskFirmware 2 0x8000 loader₁ = loadDiskKernel := by
  have htable : diskFirmware.allocatePages .anyPages .bootServicesData 1 0 loader₁.fw =
      .ok (0x10000, loader₂.fw) := by decide +kernel
  have hwritable :
      ofLoad (setLv4tableWritable diskFirmware.toBootServices loader₁) = .ok loader₂ := by
    rw [setLv4tableWritable_eq htable (Or.inr (by decide))]
    rfl
  have hheader : readEhdr 0x8000 loader₂ = .ok ⟨0xFFFFFFFF80020000, 64, 56, 1⟩ := by
    decide +kernel
  have hread : diskFirmware.read 2 56 { loader₂.fw with pool := 0x8078 } =
      .ok (kernelPhdr, loader₃.fw) := by decide +kernel
  have hphdr : readInto diskFirmware 2 0x8040 56
      { loader₂ with fw := { loader₂.fw with pool := 0x8078 } } = .ok (56, loader₃) := by
    have hlow : MapsLow { loader₂ with fw := { loader₂.fw with pool := 0x8078 } }.mem 0x10000 :=
      mapsLow_loader₂
    exact readInto_low hlow hread (by decide) (by decide) (by decide)
  refine bind_eq_of_ok hwritable (bind_eq_of_ok hheader ?_)
  refine bind_eq_of_ok rfl (bind_eq_of_ok rfl ?_)
  exact bind_eq_of_ok hphdr rfl

/-- One of the other files, in the next page. -/
theorem loadFile_disk {m : Loader Disk} (hlow : MapsLow m.mem m.cr3) {name : String} {file : Nat}
    {s : Disk} (hopen : diskFirmware.openFile 1 name m.fw = .ok (file, s))
    {bytes : List (BitVec 8)} (hfile : fileContent file = bytes) {start : Nat} {s₁ : Disk}
    (halloc : diskFirmware.allocatePages .anyPages .loaderData (pagesOf bytes.length) 0 s =
      .ok (start, s₁)) (hroot : m.cr3 + 8 ≤ start) (htable : 0x2008 ≤ start)
    (hend : start + bytes.length ≤ 2 ^ 30) (hpos : s₁.position = 0) :
    loadFile diskFirmware 1 name m = .ok (file, start, bytes.length,
      { m with
        mem := putBytes m.mem start bytes
        fw := { s₁ with position := bytes.length } }) := by
  have hread : diskFirmware.read file bytes.length s₁ =
      .ok (bytes, { s₁ with position := bytes.length }) := by
    simp only [diskFirmware, hfile, hpos, List.drop_zero, List.take_length, Nat.zero_add]
  have hinto : readInto diskFirmware file start bytes.length { m with fw := s₁ } =
      .ok (bytes.length,
        { m with
          mem := putBytes m.mem start bytes
          fw := { s₁ with position := bytes.length } }) := by
    have hlow' : MapsLow { m with fw := s₁ }.mem m.cr3 := hlow
    exact readInto_low hlow' hread htable (Or.inr hroot) hend
  have hopened : openFile diskFirmware 1 name m = .ok (file, { m with fw := s }) := by
    rw [openFile, hopen]
    rfl
  have hsize : fileSize diskFirmware file { m with fw := s } =
      .ok (bytes.length, { m with fw := s }) := by
    rw [← hfile]
    rfl
  have hpages : Loader.tryCall { m with fw := s }
      (diskFirmware.allocatePages .anyPages .loaderData (pagesOf bytes.length) 0 s) =
        .ok (start, { m with fw := s₁ }) := by
    rw [halloc]
    rfl
  exact bind_eq_of_ok hopened (bind_eq_of_ok hsize (bind_eq_of_ok hpages (bind_eq_of_ok hinto rfl)))

/-- With the guest, which is in page 17. -/
def disk₅ : Disk :=
  { disk₄ with
    given := (⟨17, 1⟩, .loaderData) :: disk₄.given
    next := 18
    key := 3
    position := 3 }

/-- With the initrd, which is in page 18. -/
def disk₆ : Disk :=
  { disk₅ with
    given := (⟨18, 1⟩, .loaderData) :: disk₅.given
    next := 19
    key := 4
    position := 2 }

def diskInfo : BootInfo where
  magic := MAGIC
  map := ⟨MAP_BUFFER_SIZE, disk₆.map, 40 * 48, 4, 48, 1⟩
  guestInfo := ⟨0x11000, 3, 0x12000, 2⟩

theorem leaveBootServices_disk (m : Loader Disk) :
    leaveBootServices diskFirmware 5 { m with fw := disk₆ } =
      .ok (diskInfo.map, { m with fw := { disk₆ with exited := true } }) := by
  have hlog : ∀ n (m : Loader Disk), logMemoryMap diskFirmware n m = m := by
    intro n
    induction n with
    | zero => exact fun _ => rfl
    | succ n ih => exact fun m => ih m
  have hmap : getMemoryMap diskFirmware { m with fw := disk₆ } =
      .ok (diskInfo.map, { m with fw := disk₆ }) := rfl
  refine bind_eq_of_ok hmap ?_
  dsimp only
  rw [hlog]
  rfl

theorem efiMain_disk :
    ∃ m, efiMain diskFirmware 5 diskLoader = .ok (0xFFFFFFFF80020000, diskInfo, m) ∧
      m.fw = { disk₆ with exited := true } := by
  obtain ⟨m₄, hkernel, hfw, hcr3, hlow⟩ := loadDiskKernel_eq
  have hread : diskFirmware.read 2 64 { disk₀ with pool := 0x8040 } =
      .ok (kernelHeader, loader₁.fw) := by decide +kernel
  have hheader : readInto diskFirmware 2 0x8000 64
      { diskLoader with fw := { disk₀ with pool := 0x8040 } } = .ok (64, loader₁) := by
    have hlow₀ : MapsLow { diskLoader with fw := { disk₀ with pool := 0x8040 } }.mem 0x1000 :=
      mapsLow_diskLoader
    exact readInto_low hlow₀ hread (by decide) (by decide) (by decide)
  have hentry : readEhdr 0x8000 loader₁ = .ok ⟨0xFFFFFFFF80020000, 64, 56, 1⟩ := by
    decide +kernel
  have hopen₁ : diskFirmware.openFile 1 "bzImage" m₄.fw =
      .ok (3, { disk₄ with position := 0 }) := by
    rw [hfw]
    decide
  have halloc₁ : diskFirmware.allocatePages .anyPages .loaderData (pagesOf 3) 0
      { disk₄ with position := 0 } = .ok (0x11000, { disk₅ with position := 0 }) := by
    decide +kernel
  have hguest : loadFile diskFirmware 1 "bzImage" m₄ =
      .ok (3, 0x11000, 3, { m₄ with mem := putBytes m₄.mem 0x11000 [1, 2, 3], fw := disk₅ }) := by
    refine loadFile_disk hlow hopen₁ rfl halloc₁ ?_ (by decide) (by decide) rfl
    rw [hcr3]
    decide
  have hopen₂ : diskFirmware.openFile 1 "rootfs.cpio.gz" disk₅ =
      .ok (4, { disk₅ with position := 0 }) := by decide
  have halloc₂ : diskFirmware.allocatePages .anyPages .loaderData (pagesOf 2) 0
      { disk₅ with position := 0 } = .ok (0x12000, { disk₆ with position := 0 }) := by
    decide +kernel
  have hinitrd : loadFile diskFirmware 1 "rootfs.cpio.gz"
      { m₄ with mem := putBytes m₄.mem 0x11000 [1, 2, 3], fw := disk₅ } =
        .ok (4, 0x12000, 2,
          { m₄ with
            mem := putBytes (putBytes m₄.mem 0x11000 [1, 2, 3]) 0x12000 [4, 5]
            fw := disk₆ }) := by
    have hroot : 0x11000 + [1#8, 2#8, 3#8].length ≤ m₄.cr3 ∨ m₄.cr3 + 8 ≤ 0x11000 := by
      rw [hcr3]
      decide
    have hlow₁ : MapsLow
        (Loader.mem { m₄ with mem := putBytes m₄.mem 0x11000 [1, 2, 3], fw := disk₅ }) m₄.cr3 :=
      hlow.putBytes (by decide) hroot
    refine loadFile_disk hlow₁ hopen₂ rfl halloc₂ ?_ (by decide) (by decide) rfl
    show m₄.cr3 + 8 ≤ 0x12000
    rw [hcr3]
    decide
  refine ⟨{ m₄ with
    mem := putBytes (putBytes m₄.mem 0x11000 [1, 2, 3]) 0x12000 [4, 5]
    fw := { disk₆ with exited := true } }, ?_, rfl⟩
  refine bind_eq_of_ok rfl (bind_eq_of_ok rfl (bind_eq_of_ok rfl (bind_eq_of_ok rfl ?_)))
  refine bind_eq_of_ok hheader (bind_eq_of_ok hentry ?_)
  refine bind_eq_of_ok (loadKernelFile_disk.trans hkernel) (bind_eq_of_ok hguest ?_)
  refine bind_eq_of_ok hinitrd ?_
  refine bind_eq_of_ok rfl (bind_eq_of_ok rfl (bind_eq_of_ok rfl ?_))
  exact bind_eq_of_ok (leaveBootServices_disk _) rfl

end Sample

/-! ### Results -/

section Kernel
open PageAllocator

end Kernel

end YmirC.Surtrc
