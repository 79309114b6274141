import CloneVmm.Boot.LoadKernel
import CloneVmm.Virtio.Mmio

namespace CloneVmm.Vmm

open CloneVmm.Lib CloneVmm.Boot CloneVmm.Virtio

def ecamSize : Nat := 1 <<< 20

def pciMmioBase : Nat := 0xC0000000

def pciMmioEnd : Nat := 0xCFFFFFFF

def virtioWindow (i : Nat) : Span := ⟨mmioBase + i * mmioStride, mmioStride⟩

def ecamWindow : Span := ⟨ecamBase, ecamSize⟩

def barWindow : Span := ⟨pciMmioBase, pciMmioEnd + 1 - pciMmioBase⟩

def deviceWindows (numDevices : Nat) (pciEnabled : Bool) : List Span :=
  (List.range numDevices).map virtioWindow ++ if pciEnabled then [ecamWindow, barWindow] else []

def bootMemSize (memMb : UInt32) : Nat := memMb.toNat <<< 20

def MemoryRegion.span (r : MemoryRegion) : Span := ⟨r.guestPhysAddr, r.memorySize⟩

def ramSlots (memMb : UInt32) : List Span := (boot (bootMemSize memMb)).regions.map MemoryRegion.span

def ramRanges (memMb : UInt32) : List Span :=
  ((e820 (bootMemSize memMb)).filter fun e => decide (e.type = .ram)).map fun e => ⟨e.addr, e.size⟩

structure PhysicalMapDisjoint (memMb : UInt32) (numDevices : Nat) (pciEnabled : Bool) : Prop where
  windows : (ramSlots memMb ++ deviceWindows numDevices pciEnabled).Pairwise Span.Apart
  ramInside : ∀ range ∈ ramRanges memMb, ∃ slot ∈ ramSlots memMb, range.Within slot
  ramOutside : ∀ range ∈ ramRanges memMb, ∀ window ∈ deviceWindows numDevices pciEnabled, range.Apart window

variable {memMb : UInt32} {numDevices : Nat} {pciEnabled : Bool}

theorem bootMemSize_eq (memMb : UInt32) : bootMemSize memMb = memMb.toNat * 0x100000 := Nat.shiftLeft_eq _ _

theorem ramSlots_small (h : memMb.toNat ≤ 3072) : ramSlots memMb = [⟨0, bootMemSize memMb + guardSize⟩] := by
  have hsize : ¬ mmioHoleStart < bootMemSize memMb := by
    rw [bootMemSize_eq, mmioHoleStart]
    omega
  rw [ramSlots, boot_regions, decide_eq_false hsize]
  rfl

theorem ramSlots_large (h : 3072 < memMb.toNat) :
    ramSlots memMb =
      [⟨0, mmioHoleStart⟩, ⟨mmioHoleEnd, bootMemSize memMb - mmioHoleStart + guardSize⟩] := by
  have hsize : mmioHoleStart < bootMemSize memMb := by
    rw [bootMemSize_eq, mmioHoleStart]
    omega
  rw [ramSlots, boot_regions, decide_eq_true hsize]
  rfl

theorem ramRanges_small (h : memMb.toNat ≤ 3072) :
    ramRanges memMb =
      [⟨0, 0x9FC00⟩, ⟨0x100000, u64Sub (u64Sub (bootMemSize memMb) reservedTop) 0x100000⟩] := by
  have hsize : bootMemSize memMb ≤ mmioHoleStart := by
    rw [bootMemSize_eq, mmioHoleStart]
    omega
  simp [ramRanges, e820, e820Ram, hsize]

theorem ramRanges_large (h : 3072 < memMb.toNat) :
    ramRanges memMb =
      [⟨0, 0x9FC00⟩, ⟨0x100000, mmioHoleStart - 0x100000⟩, ⟨mmioHoleEnd, bootMemSize memMb - mmioHoleStart⟩] := by
  have hsize : ¬ bootMemSize memMb ≤ mmioHoleStart := by
    rw [bootMemSize_eq, mmioHoleStart]
    omega
  simp [ramRanges, e820, e820Ram, hsize]

theorem mem_deviceWindows {window : Span} :
    window ∈ deviceWindows numDevices pciEnabled ↔
      (∃ i < numDevices, window = virtioWindow i) ∨ (pciEnabled = true ∧ (window = ecamWindow ∨ window = barWindow)) := by
  cases pciEnabled <;> simp [deviceWindows, eq_comm]

theorem deviceWindows_apart (numDevices : Nat) (pciEnabled : Bool) :
    (deviceWindows numDevices pciEnabled).Pairwise Span.Apart := by
  have hvirtio : ((List.range numDevices).map virtioWindow).Pairwise Span.Apart := by
    rw [List.pairwise_map]
    refine List.pairwise_lt_range.imp fun {i j} hij => Span.apart_of_le ?_
    simp only [virtioWindow, mmioStride]
    omega
  unfold deviceWindows
  rw [List.pairwise_append]
  refine ⟨hvirtio, ?_, ?_⟩
  · split
    · exact List.pairwise_pair.mpr (Span.apart_of_le (by decide))
    · exact List.Pairwise.nil
  · intro w hw w' hw'
    obtain ⟨i, -, rfl⟩ := List.mem_map.mp hw
    have hend : w'.base + w'.size ≤ mmioBase := by
      split at hw'
      · rcases List.mem_pair.mp hw' with rfl | rfl
        · decide
        · decide
      · cases hw'
    exact (Span.apart_of_le (hend.trans (Nat.le_add_right _ _))).symm

theorem windows_iff :
    (ramSlots memMb ++ deviceWindows numDevices pciEnabled).Pairwise Span.Apart ↔
      ∀ slot ∈ ramSlots memMb, ∀ window ∈ deviceWindows numDevices pciEnabled, slot.Apart window := by
  have hslots : (ramSlots memMb).Pairwise Span.Apart := by
    rcases Nat.lt_or_ge 3072 memMb.toNat with h | h
    · rw [ramSlots_large h]
      exact List.pairwise_pair.mpr (Span.apart_of_le (show 0 + mmioHoleStart ≤ mmioHoleEnd by decide))
    · rw [ramSlots_small h]
      exact List.pairwise_singleton _ _
  rw [List.pairwise_append]
  exact ⟨fun h => h.2.2, fun h => ⟨hslots, deviceWindows_apart _ _, h⟩⟩

theorem physicalMapDisjoint_iff :
    PhysicalMapDisjoint memMb numDevices pciEnabled ↔
      (∀ slot ∈ ramSlots memMb, ∀ window ∈ deviceWindows numDevices pciEnabled, slot.Apart window) ∧
        ∀ range ∈ ramRanges memMb, ∃ slot ∈ ramSlots memMb, range.Within slot := by
  constructor
  · intro h
    exact ⟨windows_iff.mp h.windows, h.ramInside⟩
  · rintro ⟨hapart, hinside⟩
    refine ⟨windows_iff.mpr hapart, hinside, ?_⟩
    intro range hrange window hwindow
    obtain ⟨slot, hslot, hwithin⟩ := hinside range hrange
    exact (hapart slot hslot window hwindow).of_within hwithin

theorem slots_apart_small (h : memMb.toNat ≤ 3072) :
    (∀ slot ∈ ramSlots memMb, ∀ window ∈ deviceWindows numDevices pciEnabled, slot.Apart window) ↔
      (pciEnabled = true → memMb.toNat ≤ 2688) := by
  have hguard : guardSize = 128 * 0x100000 := rfl
  have hsize := bootMemSize_eq memMb
  rw [ramSlots_small h]
  simp only [List.mem_singleton, forall_eq]
  constructor
  · -- The slot grows into the ECAM window first.
    intro hapart hpci
    by_contra hlarge
    refine hapart ecamWindow (mem_deviceWindows.mpr (.inr ⟨hpci, .inl rfl⟩)) ecamBase ⟨Nat.zero_le _, ?_⟩ (by decide)
    simp only [ecamBase]
    omega
  · intro hpci window hwindow
    apply Span.apart_of_le
    rcases mem_deviceWindows.mp hwindow with ⟨i, -, rfl⟩ | ⟨hon, rfl | rfl⟩
    · simp only [virtioWindow, mmioBase]
      omega
    · have := hpci hon
      simp only [ecamWindow, ecamBase]
      omega
    · have := hpci hon
      simp only [barWindow, pciMmioBase]
      omega

theorem slots_apart_large (h : 3072 < memMb.toNat) :
    (∀ slot ∈ ramSlots memMb, ∀ window ∈ deviceWindows numDevices pciEnabled, slot.Apart window) ↔
      pciEnabled = false ∧ numDevices ≤ 1572864 := by
  have hsize := bootMemSize_eq memMb
  rw [ramSlots_large h]
  simp only [List.forall_mem_cons, List.not_mem_nil, false_imp_iff, implies_true, and_true]
  constructor
  · rintro ⟨hlow, hhigh⟩
    constructor
    · rw [Bool.eq_false_iff]
      intro hpci
      exact hlow ecamWindow (mem_deviceWindows.mpr (.inr ⟨hpci, .inl rfl⟩)) ecamBase ⟨Nat.zero_le _, by decide⟩
        (by decide)
    · -- The window of device 1572864 is at 4 GB.
      by_contra hmany
      refine hhigh (virtioWindow 1572864) (mem_deviceWindows.mpr (.inl ⟨_, by omega, rfl⟩)) mmioHoleEnd
        ⟨Nat.le_refl _, ?_⟩ (by decide)
      simp only [mmioHoleStart, guardSize]
      omega
  · rintro ⟨rfl, hfew⟩
    constructor
    · intro window hwindow
      rcases mem_deviceWindows.mp hwindow with ⟨i, hi, rfl⟩ | ⟨hon, -⟩
      · apply Span.apart_of_le
        simp only [virtioWindow, mmioBase, mmioHoleStart]
        omega
      · cases hon
    · intro window hwindow
      rcases mem_deviceWindows.mp hwindow with ⟨i, hi, rfl⟩ | ⟨hon, -⟩
      · apply Span.Apart.symm
        apply Span.apart_of_le
        simp only [virtioWindow, mmioBase, mmioStride, mmioHoleEnd]
        omega
      · cases hon

theorem ramInside_small (h : memMb.toNat ≤ 3072) :
    (∀ range ∈ ramRanges memMb, ∃ slot ∈ ramSlots memMb, range.Within slot) ↔ 2 ≤ memMb.toNat := by
  have hguard : guardSize = 128 * 0x100000 := rfl
  have hsize := bootMemSize_eq memMb
  rw [ramRanges_small h, ramSlots_small h]
  simp only [List.mem_singleton, exists_eq_left, List.forall_mem_cons, forall_eq, Span.Within, u64Sub, reservedTop]
  omega

theorem ramInside_large (h : 3072 < memMb.toNat) :
    ∀ range ∈ ramRanges memMb, ∃ slot ∈ ramSlots memMb, range.Within slot := by
  rw [ramRanges_large h, ramSlots_large h]
  intro range hrange
  simp only [List.mem_cons, List.not_mem_nil, or_false] at hrange
  rcases hrange with rfl | rfl | rfl
  · exact ⟨_, List.mem_cons_self, by decide⟩
  · exact ⟨_, List.mem_cons_self, by decide⟩
  · refine ⟨_, List.mem_cons_of_mem _ List.mem_cons_self, Nat.le_refl _, ?_⟩
    simp only
    omega

theorem physicalMap_disjoint_iff (memMb : UInt32) (numDevices : Nat) (pciEnabled : Bool) :
    PhysicalMapDisjoint memMb numDevices pciEnabled ↔
      2 ≤ memMb.toNat ∧
        if pciEnabled then memMb.toNat ≤ 2688 else memMb.toNat ≤ 3072 ∨ numDevices ≤ 1572864 := by
  rw [physicalMapDisjoint_iff]
  rcases Nat.lt_or_ge 3072 memMb.toNat with h | h
  · rw [slots_apart_large h, iff_true_intro (ramInside_large h)]
    cases pciEnabled with
    | true =>
      simp only [Bool.true_eq_false, false_and, if_true, false_iff]
      omega
    | false =>
      simp only [true_and, and_true, Bool.false_eq_true, if_false]
      omega
  · rw [slots_apart_small h, ramInside_small h]
    cases pciEnabled with
    | true =>
      simp only [forall_const, if_true]
      omega
    | false =>
      simp only [Bool.false_eq_true, false_imp_iff, true_and, if_false]
      omega

theorem physicalMap_disjoint_fails : ¬ PhysicalMapDisjoint 3072 2 true := by
  rw [physicalMapDisjoint_iff, slots_apart_small (by decide)]
  rintro ⟨hpci, -⟩
  exact absurd (hpci rfl) (by decide)

end CloneVmm.Vmm
