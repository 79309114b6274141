import CloneVmm.Vmm.PhysicalMap

/-!
`pci/vfio.rs` and the passthrough part of `boot`: the DMA mapping of each device that is passed through,
against the memory slots that KVM has.
-/

namespace CloneVmm.Vmm

structure DmaMap where
  vaddr : Nat
  iova : Nat
  size : Nat

namespace DmaMap

def translate (m : DmaMap) (addr : Nat) : Option Nat :=
  if m.iova ≤ addr ∧ addr < m.iova + m.size then some (m.vaddr + (addr - m.iova)) else none

theorem translate_eq_some {m : DmaMap} {addr : Nat} (h : m.iova ≤ addr) (h' : addr < m.iova + m.size) :
    m.translate addr = some (m.vaddr + (addr - m.iova)) := if_pos ⟨h, h'⟩

theorem translate_eq_none {m : DmaMap} {addr : Nat} (h : m.iova + m.size ≤ addr) : m.translate addr = none :=
  if_neg fun hmapped => absurd hmapped.2 (Nat.not_lt.mpr h)

end DmaMap

/-- What the kernel and the devices answer. -/
structure VfioHost where
  openDevice : String → Except String Unit
  iommuMapDma : String → DmaMap → Except String Unit
  addVfioDevice : String → Except String Unit

def mapDma (host : VfioHost) (bdf : String) (guestMemPtr memSize : Nat) : Except String DmaMap :=
  let dmaMap : DmaMap := ⟨guestMemPtr, 0, memSize⟩
  match host.iommuMapDma bdf dmaMap with
  | .error e => .error s!"VFIO_IOMMU_MAP_DMA failed: {e}"
  | .ok () => .ok dmaMap

/-- A device that does not open, map or attach is logged and left out; its container is closed. -/
def passthroughDevice (host : VfioHost) (guestMemPtr allocSize : Nat) (bdf : String) : Option (String × DmaMap) :=
  match host.openDevice bdf with
  | .error _ => none
  | .ok () =>
    match mapDma host bdf guestMemPtr allocSize with
    | .error _ => none
    | .ok dmaMap =>
      match host.addVfioDevice bdf with
      | .error _ => none
      | .ok () => some (bdf, dmaMap)

def bootPassthrough (host : VfioHost) (guestMemPtr : Nat) (memMb : UInt32) (passthroughDevices : List String) :
    List (String × DmaMap) :=
  passthroughDevices.filterMap (passthroughDevice host guestMemPtr (allocSize (bootMemSize memMb)))

structure DmaAgrees (guestMemPtr : Nat) (memMb : UInt32) (dmaMap : DmaMap) : Prop where
  covered : ∀ r ∈ (boot (bootMemSize memMb)).regions, ∀ gpa, r.Covers gpa →
    dmaMap.translate gpa = some (guestMemPtr + r.offsetOf gpa)
  outside : ∀ gpa, (∀ r ∈ (boot (bootMemSize memMb)).regions, ¬ r.Covers gpa) → dmaMap.translate gpa = none

section Passthrough

variable {host : VfioHost} {guestMemPtr : Nat} {memMb : UInt32} {bdf : String} {dmaMap : DmaMap}

theorem mapDma_ok {memSize : Nat} (h : mapDma host bdf guestMemPtr memSize = .ok dmaMap) :
    dmaMap = ⟨guestMemPtr, 0, memSize⟩ := by
  dsimp only [mapDma] at h
  split at h
  · cases h
  · exact (Except.ok.inj h).symm

theorem passthroughDevice_some {allocSize : Nat} {dev : String × DmaMap}
    (h : passthroughDevice host guestMemPtr allocSize bdf = some dev) : dev = (bdf, ⟨guestMemPtr, 0, allocSize⟩) := by
  unfold passthroughDevice at h
  split at h
  · cases h
  · split at h
    · cases h
    · next dmaMap hmap =>
      split at h
      · cases h
      · rw [← mapDma_ok hmap]
        exact (Option.some.inj h).symm

theorem mem_bootPassthrough {passthroughDevices : List String} {dev : String × DmaMap}
    (h : dev ∈ bootPassthrough host guestMemPtr memMb passthroughDevices) :
    dev.1 ∈ passthroughDevices ∧ dev.2 = ⟨guestMemPtr, 0, bootMemSize memMb + guardSize⟩ := by
  obtain ⟨bdf, hbdf, hdev⟩ := List.mem_filterMap.mp h
  rw [passthroughDevice_some hdev, allocSize_eq]
  exact ⟨hbdf, rfl⟩

theorem dmaAgrees_small (h : memMb.toNat ≤ 3072) :
    DmaAgrees guestMemPtr memMb ⟨guestMemPtr, 0, bootMemSize memMb + guardSize⟩ := by
  have hsize : ¬ mmioHoleStart < bootMemSize memMb := by
    rw [bootMemSize_eq, mmioHoleStart]
    omega
  have hregions : (boot (bootMemSize memMb)).regions = [⟨0, 0, bootMemSize memMb + guardSize, 0⟩] := by
    rw [boot_regions, decide_eq_false hsize]
    rfl
  constructor
  · intro r hr gpa hcovers
    rw [hregions, List.mem_singleton] at hr
    subst hr
    rw [DmaMap.translate_eq_some hcovers.1 hcovers.2, MemoryRegion.offsetOf, Nat.zero_add]
  · intro gpa hfree
    have huncovered := hfree ⟨0, 0, bootMemSize memMb + guardSize, 0⟩ (by rw [hregions]; exact List.mem_cons_self)
    refine DmaMap.translate_eq_none (Nat.not_lt.mp fun hlt => huncovered ⟨Nat.zero_le _, hlt⟩)

theorem not_dmaAgrees_large (h : 3072 < memMb.toNat) :
    ¬ DmaAgrees guestMemPtr memMb ⟨guestMemPtr, 0, bootMemSize memMb + guardSize⟩ := by
  intro hagrees
  have hsize : mmioHoleStart < bootMemSize memMb := by
    rw [bootMemSize_eq, mmioHoleStart]
    omega
  have horder : mmioHoleStart < mmioHoleEnd := by decide
  have hnone := hagrees.outside mmioHoleStart (by
    intro r hr hcovers
    rw [boot_regions, decide_eq_true hsize] at hr
    rcases mem_regionsFor_hole hr with rfl | rfl
    · exact absurd hcovers.2 (by simp)
    · exact absurd hcovers.1 (Nat.not_le.mpr horder))
  rw [DmaMap.translate_eq_some (Nat.zero_le _) (by simp only; omega)] at hnone
  cases hnone

theorem passthroughDma_agrees_iff {passthroughDevices : List String} {dev : String × DmaMap}
    (hdev : dev ∈ bootPassthrough host guestMemPtr memMb passthroughDevices) :
    DmaAgrees guestMemPtr memMb dev.2 ↔ memMb.toNat ≤ 3072 := by
  rw [(mem_bootPassthrough hdev).2]
  constructor
  · intro hagrees
    by_contra h
    exact not_dmaAgrees_large (Nat.not_le.mp h) hagrees
  · exact dmaAgrees_small

end Passthrough

def willingHost : VfioHost := ⟨fun _ => .ok (), fun _ _ => .ok (), fun _ => .ok ()⟩

theorem passthroughDma_agrees_small :
    DmaAgrees 0x7F0000000000 512 ⟨0x7F0000000000, 0, allocSize (bootMemSize 512)⟩ := by
  have hdev : ("0000:01:00.0", DmaMap.mk 0x7F0000000000 0 (allocSize (bootMemSize 512))) ∈
      bootPassthrough willingHost 0x7F0000000000 512 ["0000:01:00.0"] := List.mem_cons_self
  exact (passthroughDma_agrees_iff hdev).mpr (by decide)

theorem passthroughDma_agrees_fails :
    ¬ ∀ dev ∈ bootPassthrough willingHost 0x7F0000000000 3073 ["0000:01:00.0"],
      DmaAgrees 0x7F0000000000 3073 dev.2 := by
  intro hagrees
  have hdma := hagrees ("0000:01:00.0", ⟨0x7F0000000000, 0, allocSize (bootMemSize 3073)⟩) List.mem_cons_self
  rw [allocSize_eq] at hdma
  exact not_dmaAgrees_large (by decide) hdma

end CloneVmm.Vmm
