import CloneVmm.Memory.DirtyLog

/-!
`vmm/mod.rs` and `memory/mod.rs`: the memory slots that each boot path registers with KVM, the view
of guest memory that it gives to the devices, and the size of the slot that it asks the dirty log of.
-/

namespace CloneVmm.Vmm

open CloneVmm.Memory

/-- Offsets count from the start of the allocation. `holeStart` is 0 when there is no hole. -/
structure GuestMem where
  size : Nat
  holeStart : Nat
  holeEnd : Nat

def hex (n : Nat) : String := "0x" ++ String.ofList (Nat.toDigits 16 n)

namespace GuestMem

def fromRaw (size : Nat) : GuestMem := ⟨size, 0, 0⟩

def fromRawWithHole (size holeStart holeEnd : Nat) : GuestMem := ⟨size, holeStart, holeEnd⟩

def hasHole (m : GuestMem) : Bool := decide (0 < m.holeStart)

def gpaToOffset (m : GuestMem) (gpa : Nat) : Except String Nat :=
  if m.holeStart = 0 then
    if m.size ≤ gpa then .error s!"GPA {hex gpa} exceeds memory size {hex m.size}" else .ok gpa
  else if gpa < m.holeStart then .ok gpa
  else if m.holeEnd ≤ gpa then
    let offset := m.holeStart + (gpa - m.holeEnd)
    if m.size ≤ offset then
      .error s!"GPA {hex gpa} (offset {hex offset}) exceeds memory size {hex m.size}"
    else .ok offset
  else .error s!"GPA {hex gpa} is in the MMIO hole ({hex m.holeStart}..{hex m.holeEnd})"

end GuestMem

structure MemoryRegion where
  slot : Nat
  guestPhysAddr : Nat
  memorySize : Nat
  userspaceOffset : Nat

namespace MemoryRegion

def Covers (r : MemoryRegion) (gpa : Nat) : Prop :=
  r.guestPhysAddr ≤ gpa ∧ gpa < r.guestPhysAddr + r.memorySize

instance (r : MemoryRegion) (gpa : Nat) : Decidable (r.Covers gpa) := inferInstanceAs (Decidable (_ ∧ _))

def offsetOf (r : MemoryRegion) (gpa : Nat) : Nat := r.userspaceOffset + (gpa - r.guestPhysAddr)

end MemoryRegion

inductive BootPath
  | boot
  | forkBoot
  | restoreBoot

/-- The size is far below the range of `u64`, as `mmap` has accepted it. -/
structure VmMemory where
  guestMem : GuestMem
  regions : List MemoryRegion
  kvmSlotSize : Nat

def mmioHoleStart : Nat := 0xC0000000

def mmioHoleEnd : Nat := 0x100000000

def guardSize : Nat := 128 <<< 20

def allocSize (memSize : Nat) : Nat :=
  if memSize ≤ mmioHoleStart then memSize + guardSize
  else mmioHoleStart + (memSize - mmioHoleStart) + guardSize

def regionsFor (memSize extra : Nat) (hole : Bool) : List MemoryRegion :=
  if hole then
    [⟨0, 0, mmioHoleStart, 0⟩, ⟨1, mmioHoleEnd, memSize - mmioHoleStart + extra, mmioHoleStart⟩]
  else [⟨0, 0, memSize + extra, 0⟩]

def bootGuestMem (memSize : Nat) : GuestMem :=
  if memSize ≤ mmioHoleStart then .fromRaw (allocSize memSize)
  else .fromRawWithHole (allocSize memSize) mmioHoleStart mmioHoleEnd

def boot (memSize : Nat) : VmMemory where
  guestMem := bootGuestMem memSize
  regions := regionsFor memSize guardSize (bootGuestMem memSize).hasHole
  kvmSlotSize := allocSize memSize

def forkFromTemplate (memorySize : Nat) : GuestMem :=
  if memorySize > mmioHoleStart then .fromRawWithHole memorySize mmioHoleStart mmioHoleEnd
  else .fromRaw memorySize

def forkBoot (memSize : Nat) : VmMemory where
  guestMem := forkFromTemplate memSize
  regions := regionsFor memSize 0 (!decide (memSize ≤ mmioHoleStart))
  kvmSlotSize := memSize

def restoreBoot (memSize : Nat) : VmMemory where
  guestMem := .fromRaw memSize
  regions := regionsFor memSize guardSize (!decide (memSize ≤ mmioHoleStart))
  kvmSlotSize := allocSize memSize

def BootPath.memory : BootPath → Nat → VmMemory
  | boot => Vmm.boot
  | forkBoot => Vmm.forkBoot
  | restoreBoot => Vmm.restoreBoot

variable {memSize : Nat}

theorem allocSize_eq (memSize : Nat) : allocSize memSize = memSize + guardSize := by
  unfold allocSize
  split
  · rfl
  · omega

structure Agrees (vm : VmMemory) : Prop where
  covered : ∀ r ∈ vm.regions, ∀ gpa, r.Covers gpa → vm.guestMem.gpaToOffset gpa = .ok (r.offsetOf gpa)
  rejected : ∀ gpa, (∀ r ∈ vm.regions, ¬ r.Covers gpa) → ∃ e, vm.guestMem.gpaToOffset gpa = .error e

theorem gpaToOffset_ok_iff (m : GuestMem) (gpa offset : Nat) :
    m.gpaToOffset gpa = .ok offset ↔
      (m.holeStart = 0 ∧ gpa < m.size ∧ offset = gpa) ∨
      (m.holeStart ≠ 0 ∧ gpa < m.holeStart ∧ offset = gpa) ∨
      (m.holeStart ≠ 0 ∧ m.holeStart ≤ gpa ∧ m.holeEnd ≤ gpa ∧ m.holeStart + (gpa - m.holeEnd) < m.size ∧
        offset = m.holeStart + (gpa - m.holeEnd)) := by
  unfold GuestMem.gpaToOffset
  dsimp only
  split
  · split
    · simp
      omega
    · simp
      omega
  · split
    · simp
      omega
    · split
      · split
        · simp
          omega
        · simp
          omega
      · simp
        omega

theorem gpaToOffset_fromRaw (size gpa offset : Nat) :
    (GuestMem.fromRaw size).gpaToOffset gpa = .ok offset ↔ gpa < size ∧ offset = gpa := by
  rw [gpaToOffset_ok_iff]
  simp [GuestMem.fromRaw]

theorem gpaToOffset_fromRawWithHole (size gpa offset : Nat) :
    (GuestMem.fromRawWithHole size mmioHoleStart mmioHoleEnd).gpaToOffset gpa = .ok offset ↔
      (gpa < mmioHoleStart ∧ offset = gpa) ∨
      (mmioHoleEnd ≤ gpa ∧ mmioHoleStart + (gpa - mmioHoleEnd) < size ∧
        offset = mmioHoleStart + (gpa - mmioHoleEnd)) := by
  have hstart : mmioHoleStart ≠ 0 := by decide
  have horder : mmioHoleStart ≤ mmioHoleEnd := by decide
  rw [gpaToOffset_ok_iff]
  dsimp only [GuestMem.fromRawWithHole]
  omega

theorem mem_regionsFor_hole {extra : Nat} {r : MemoryRegion} (hr : r ∈ regionsFor memSize extra true) :
    r = ⟨0, 0, mmioHoleStart, 0⟩ ∨ r = ⟨1, mmioHoleEnd, memSize - mmioHoleStart + extra, mmioHoleStart⟩ := by
  simpa [regionsFor] using hr

theorem error_of_ne_ok {vm : VmMemory} {gpa : Nat} (h : ∀ offset, vm.guestMem.gpaToOffset gpa ≠ .ok offset) :
    ∃ e, vm.guestMem.gpaToOffset gpa = .error e := by
  cases hresult : vm.guestMem.gpaToOffset gpa with
  | error e => exact ⟨e, rfl⟩
  | ok offset => exact absurd hresult (h offset)

theorem agrees_without_hole (size extra slotSize : Nat) :
    Agrees ⟨.fromRaw (size + extra), regionsFor size extra false, slotSize⟩ where
  covered := by
    intro r hr gpa hcovers
    have hr' : r = ⟨0, 0, size + extra, 0⟩ := by simpa [regionsFor] using hr
    subst hr'
    rw [gpaToOffset_fromRaw]
    simp only [MemoryRegion.Covers, MemoryRegion.offsetOf] at hcovers ⊢
    omega
  rejected := by
    intro gpa hfree
    apply error_of_ne_ok
    intro offset hok
    have huncovered := hfree ⟨0, 0, size + extra, 0⟩ (by simp [regionsFor])
    rw [gpaToOffset_fromRaw] at hok
    exact huncovered ⟨Nat.zero_le _, by simpa using hok.1⟩

theorem agrees_with_hole (extra slotSize : Nat) (h : mmioHoleStart < memSize) :
    Agrees ⟨.fromRawWithHole (memSize + extra) mmioHoleStart mmioHoleEnd, regionsFor memSize extra true, slotSize⟩ where
  covered := by
    intro r hr gpa hcovers
    rw [gpaToOffset_fromRawWithHole]
    rcases mem_regionsFor_hole hr with rfl | rfl
    · simp only [MemoryRegion.Covers, MemoryRegion.offsetOf] at hcovers ⊢
      omega
    · simp only [MemoryRegion.Covers] at hcovers
      exact .inr ⟨hcovers.1, by omega, rfl⟩
  rejected := by
    intro gpa hfree
    apply error_of_ne_ok
    intro offset hok
    have hlow := hfree ⟨0, 0, mmioHoleStart, 0⟩ (by simp [regionsFor])
    have hhigh := hfree ⟨1, mmioHoleEnd, memSize - mmioHoleStart + extra, mmioHoleStart⟩ (by simp [regionsFor])
    simp only [MemoryRegion.Covers] at hlow hhigh
    rw [gpaToOffset_fromRawWithHole] at hok
    omega

theorem agrees_boot (memSize : Nat) : Agrees (boot memSize) := by
  unfold boot bootGuestMem
  split
  · rw [allocSize_eq]
    exact agrees_without_hole memSize guardSize _
  · rw [allocSize_eq]
    exact agrees_with_hole guardSize _ (by omega)

theorem agrees_forkBoot (memSize : Nat) : Agrees (forkBoot memSize) := by
  unfold forkBoot forkFromTemplate
  by_cases h : memSize ≤ mmioHoleStart
  · rw [if_neg (by omega), decide_eq_true h]
    exact agrees_without_hole memSize 0 _
  · rw [if_pos (by omega), decide_eq_false h]
    exact agrees_with_hole 0 _ (by omega)

theorem not_agrees_restoreBoot (memSize : Nat) : ¬ Agrees (restoreBoot memSize) := by
  intro hagrees
  have hguard : 0 < guardSize := by decide
  have horder : mmioHoleStart < mmioHoleEnd := by decide
  by_cases h : memSize ≤ mmioHoleStart
  · have hcovered := hagrees.covered ⟨0, 0, memSize + guardSize, 0⟩ (by simp [restoreBoot, regionsFor, h]) memSize
      ⟨Nat.zero_le _, by simpa using hguard⟩
    have hlt := (gpaToOffset_fromRaw _ _ _).mp hcovered
    omega
  · have hcovered := hagrees.covered ⟨1, mmioHoleEnd, memSize - mmioHoleStart + guardSize, mmioHoleStart⟩
      (by simp [restoreBoot, regionsFor, h]) mmioHoleEnd ⟨Nat.le_refl _, by simp only; omega⟩
    have heq := ((gpaToOffset_fromRaw _ _ _).mp hcovered).2
    simp only [MemoryRegion.offsetOf] at heq
    omega

theorem gpaToOffset_agrees_iff (path : BootPath) (memSize : Nat) :
    Agrees (path.memory memSize) ↔ path ≠ .restoreBoot := by
  cases path with
  | boot => exact iff_of_true (agrees_boot memSize) (by simp)
  | forkBoot => exact iff_of_true (agrees_forkBoot memSize) (by simp)
  | restoreBoot => exact iff_of_false (not_agrees_restoreBoot memSize) (by simp)

theorem gpaToOffset_restore_fails :
    ¬ ∀ r ∈ (BootPath.restoreBoot.memory 0x100000000).regions, ∀ gpa, r.Covers gpa →
      (BootPath.restoreBoot.memory 0x100000000).guestMem.gpaToOffset gpa = .ok (r.offsetOf gpa) := by
  intro hcovered
  have hslot := hcovered ⟨1, mmioHoleEnd, 0x100000000 - mmioHoleStart + guardSize, mmioHoleStart⟩
    (by simp [BootPath.memory, restoreBoot, regionsFor, mmioHoleStart]) mmioHoleEnd (by decide)
  have hlt := ((gpaToOffset_fromRaw _ _ _).mp hslot).1
  exact absurd hlt (by decide)

/-- KVM marks the page of the slot that covers the address. -/
def kvmWrite (vm : VmMemory) (log : DirtyLog) (gpa : Nat) : DirtyLog :=
  match vm.regions.find? fun r => decide (r.Covers gpa) with
  | some r => log.mark (r.offsetOf gpa / pageSize)
  | none => log

def slot0Pages (vm : VmMemory) : Nat := ((vm.regions.head?.map (·.memorySize)).getD 0) / pageSize

def TracksRam (vm : VmMemory) (memSize : Nat) : Prop :=
  ∀ log : DirtyLog, log.slot0Pages = slot0Pages vm → ∀ writes : List Nat, ∀ gpa ∈ writes,
    ∀ r ∈ vm.regions, r.Covers gpa → r.offsetOf gpa / pageSize < memSize / pageSize →
      pageDirty ((DirtyPageTracker.new vm.kvmSlotSize).getDirtyBitmap (writes.foldl (kvmWrite vm) log)).1
        (r.offsetOf gpa / pageSize) = true

theorem boot_regions (memSize : Nat) :
    (boot memSize).regions = regionsFor memSize guardSize (decide (mmioHoleStart < memSize)) := by
  have hstart : 0 < mmioHoleStart := by decide
  refine congrArg (regionsFor memSize guardSize) ?_
  unfold bootGuestMem
  split
  · rw [decide_eq_false (by omega)]
    rfl
  · rw [decide_eq_true (by omega)]
    rfl

theorem regions_eq (path : BootPath) (memSize : Nat) :
    ∃ extra, (path.memory memSize).regions = regionsFor memSize extra (decide (mmioHoleStart < memSize)) := by
  have hnot : (!decide (memSize ≤ mmioHoleStart)) = decide (mmioHoleStart < memSize) := by
    rw [← decide_not]
    exact decide_eq_decide.mpr Nat.not_le
  cases path with
  | boot => exact ⟨guardSize, boot_regions memSize⟩
  | forkBoot => exact ⟨0, congrArg (regionsFor memSize 0) hnot⟩
  | restoreBoot => exact ⟨guardSize, congrArg (regionsFor memSize guardSize) hnot⟩

theorem le_kvmSlotSize (path : BootPath) (memSize : Nat) : memSize ≤ (path.memory memSize).kvmSlotSize := by
  have halloc : memSize ≤ allocSize memSize := by
    rw [allocSize_eq]
    omega
  cases path with
  | boot => exact halloc
  | forkBoot => exact Nat.le_refl _
  | restoreBoot => exact halloc

theorem regionsFor_disjoint {extra gpa : Nat} {hole : Bool} {r r' : MemoryRegion}
    (hr : r ∈ regionsFor memSize extra hole) (hr' : r' ∈ regionsFor memSize extra hole) (h : r.Covers gpa)
    (h' : r'.Covers gpa) : r = r' := by
  cases hole with
  | false =>
    simp only [regionsFor, Bool.false_eq_true, if_false, List.mem_singleton] at hr hr'
    rw [hr, hr']
  | true =>
    have horder : mmioHoleStart < mmioHoleEnd := by decide
    rcases mem_regionsFor_hole hr with rfl | rfl <;> rcases mem_regionsFor_hole hr' with rfl | rfl
    · rfl
    · simp only [MemoryRegion.Covers] at h h'
      omega
    · simp only [MemoryRegion.Covers] at h h'
      omega
    · rfl

section Tracking

variable {path : BootPath} {log : DirtyLog} {gpa : Nat} {r : MemoryRegion}

theorem kvmWrite_eq (hr : r ∈ (path.memory memSize).regions) (hcovers : r.Covers gpa) (log : DirtyLog) :
    kvmWrite (path.memory memSize) log gpa = log.mark (r.offsetOf gpa / pageSize) := by
  unfold kvmWrite
  cases hfind : (path.memory memSize).regions.find? fun r => decide (r.Covers gpa) with
  | none =>
    have hnone := List.find?_eq_none.mp hfind r hr
    simp only [decide_eq_true_eq] at hnone
    exact absurd hcovers hnone
  | some r' =>
    have hcovers' : r'.Covers gpa := by simpa using List.find?_some hfind
    have hr' := List.mem_of_find?_eq_some hfind
    obtain ⟨extra, hregions⟩ := regions_eq path memSize
    rw [hregions] at hr hr'
    rw [regionsFor_disjoint hr hr' hcovers hcovers']

theorem kvmWrite_mono (vm : VmMemory) (log : DirtyLog) (gpa : Nat) :
    (kvmWrite vm log gpa).slot0Pages = log.slot0Pages ∧
      ∀ page, log.written page = true → (kvmWrite vm log gpa).written page = true := by
  unfold kvmWrite
  split
  · refine ⟨rfl, fun page hpage => ?_⟩
    rw [DirtyLog.mark_written, hpage, Bool.or_true]
  · exact ⟨rfl, fun _ hpage => hpage⟩

theorem foldl_kvmWrite_mono (vm : VmMemory) (writes : List Nat) (log : DirtyLog) :
    (writes.foldl (kvmWrite vm) log).slot0Pages = log.slot0Pages ∧
      ∀ page, log.written page = true → (writes.foldl (kvmWrite vm) log).written page = true := by
  induction writes generalizing log with
  | nil => exact ⟨rfl, fun _ hpage => hpage⟩
  | cons gpa writes ih =>
    obtain ⟨hslot, hwritten⟩ := kvmWrite_mono vm log gpa
    obtain ⟨hslot', hwritten'⟩ := ih (kvmWrite vm log gpa)
    exact ⟨hslot'.trans hslot, fun page hpage => hwritten' page (hwritten page hpage)⟩

theorem foldl_kvmWrite_written (hr : r ∈ (path.memory memSize).regions) (hcovers : r.Covers gpa)
    {writes : List Nat} (hgpa : gpa ∈ writes) (log : DirtyLog) :
    (writes.foldl (kvmWrite (path.memory memSize)) log).written (r.offsetOf gpa / pageSize) = true := by
  obtain ⟨before, after, rfl⟩ := List.append_of_mem hgpa
  rw [List.foldl_append, List.foldl_cons, kvmWrite_eq hr hcovers]
  apply (foldl_kvmWrite_mono _ after _).2
  rw [DirtyLog.mark_written, beq_self_eq_true, Bool.true_or]

theorem slot0Pages_eq (path : BootPath) (memSize : Nat) :
    (memSize ≤ mmioHoleStart ∧ memSize / pageSize ≤ slot0Pages (path.memory memSize)) ∨
      (mmioHoleStart < memSize ∧ slot0Pages (path.memory memSize) = mmioHoleStart / pageSize) := by
  obtain ⟨extra, hregions⟩ := regions_eq path memSize
  unfold slot0Pages
  rw [hregions]
  by_cases hlarge : mmioHoleStart < memSize
  · right
    refine ⟨hlarge, ?_⟩
    rw [decide_eq_true hlarge]
    rfl
  · left
    refine ⟨Nat.not_lt.mp hlarge, ?_⟩
    rw [decide_eq_false hlarge]
    exact Nat.div_le_div_right (Nat.le_add_right memSize extra)

theorem tracksRam_of_le (h : memSize / pageSize ≤ mmioHoleStart / pageSize) :
    TracksRam (path.memory memSize) memSize := by
  intro log hlog writes gpa hgpa r hr hcovers hpage
  have hslot : r.offsetOf gpa / pageSize < slot0Pages (path.memory memSize) := by
    rcases slot0Pages_eq path memSize with ⟨-, hle⟩ | ⟨-, heq⟩
    · omega
    · omega
  have hsize : memSize / pageSize ≤ (path.memory memSize).kvmSlotSize / pageSize :=
    Nat.div_le_div_right (le_kvmSlotSize path memSize)
  rw [getDirtyBitmap_pageDirty _ _ _ (by omega), DirtyLog.reported, (foldl_kvmWrite_mono _ writes log).1, hlog,
    decide_eq_true hslot, foldl_kvmWrite_written hr hcovers hgpa]
  rfl

theorem not_tracksRam (path : BootPath) (h : mmioHoleStart / pageSize < memSize / pageSize) :
    ¬ TracksRam (path.memory memSize) memSize := by
  intro htracks
  have hlarge : mmioHoleStart < memSize := by
    by_contra hle
    have := Nat.div_le_div_right (c := pageSize) (Nat.not_lt.mp hle)
    omega
  have hslot : slot0Pages (path.memory memSize) = mmioHoleStart / pageSize := by
    rcases slot0Pages_eq path memSize with ⟨hle, -⟩ | ⟨-, heq⟩
    · omega
    · exact heq
  obtain ⟨extra, hregions⟩ := regions_eq path memSize
  have hr : ⟨1, mmioHoleEnd, memSize - mmioHoleStart + extra, mmioHoleStart⟩ ∈ (path.memory memSize).regions := by
    rw [hregions, decide_eq_true hlarge]
    simp [regionsFor]
  have hcovers : MemoryRegion.Covers ⟨1, mmioHoleEnd, memSize - mmioHoleStart + extra, mmioHoleStart⟩ mmioHoleEnd :=
    ⟨Nat.le_refl _, by simp only; omega⟩
  have hoffset : MemoryRegion.offsetOf ⟨1, mmioHoleEnd, memSize - mmioHoleStart + extra, mmioHoleStart⟩ mmioHoleEnd =
      mmioHoleStart := by simp [MemoryRegion.offsetOf]
  have hdirty := htracks ⟨slot0Pages (path.memory memSize), fun _ => false⟩ rfl [mmioHoleEnd] mmioHoleEnd
    List.mem_cons_self _ hr hcovers (by rwa [hoffset])
  have hsize : memSize / pageSize ≤ (path.memory memSize).kvmSlotSize / pageSize :=
    Nat.div_le_div_right (le_kvmSlotSize path memSize)
  rw [hoffset, getDirtyBitmap_pageDirty _ _ _ (by omega), DirtyLog.reported, (foldl_kvmWrite_mono _ _ _).1, hslot,
    decide_eq_false (Nat.lt_irrefl _)] at hdirty
  cases hdirty

end Tracking

theorem dirtyTracking_covers_iff (path : BootPath) (memSize : Nat) :
    TracksRam (path.memory memSize) memSize ↔ memSize / pageSize ≤ mmioHoleStart / pageSize := by
  constructor
  · intro htracks
    by_contra h
    exact not_tracksRam path (Nat.not_le.mp h) htracks
  · exact tracksRam_of_le

theorem dirtyTracking_covers_fails : ¬ TracksRam (BootPath.boot.memory 0x100000000) 0x100000000 :=
  not_tracksRam .boot (by decide)

end CloneVmm.Vmm
