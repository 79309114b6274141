import CloneVmm.Memory.DirtyLog

/-!
`boot/template.rs`: incremental snapshots, a bitmap of dirty pages and the pages themselves, and
their application to the memory of the base snapshot.
-/

namespace CloneVmm.Boot

open CloneVmm.Lib CloneVmm.Memory

structure VcpuState where
  regs : List UInt8 := []
  sregs : List UInt8 := []
  lapic : List UInt8 := []
  fpu : List UInt8 := []
  xsave : List UInt8 := []
  xcrs : List UInt8 := []
  mpState : List UInt8 := []
  vcpuEvents : List UInt8 := []
  debugRegs : List UInt8 := []
  msrs : List UInt8 := []
  tscKhz : Nat := 0
  cpuid : List UInt8 := []
  deriving DecidableEq

def VcpuState.empty : VcpuState := {}

structure DeviceStates where
  serial : Option (List UInt8) := none
  virtioConfigs : List (String × List UInt8) := []
  transports : List (List UInt8) := []
  irqchip : List (List UInt8) := []
  pit : List UInt8 := []
  deriving DecidableEq

/-- `dirtyPages` is the content of `dirty_pages_file`. -/
structure IncrementalSnapshot where
  baseTemplate : String
  dirtyBitmap : List UInt8
  dirtyPages : List UInt8
  vcpuStates : List VcpuState
  deviceStates : DeviceStates
  memorySize : Nat
  tag : Option String
  parentTag : Option String
  chainDepth : Nat
  snapshotType : String

def saveIncremental (guestMem : ByteStore) (memSize : Nat) (kvm : DirtyLog) (vcpuStates : List VcpuState)
    (deviceStates : DeviceStates) (baseTemplate : String) (kvmSlotSize : Nat) :
    IncrementalSnapshot × DirtyLog :=
  let ((bitmap, dirtyData), kvm') :=
    (DirtyPageTracker.new kvmSlotSize).collectDirtyPages kvm guestMem memSize
  ({ baseTemplate, dirtyBitmap := bitmap, dirtyPages := dirtyData, vcpuStates, deviceStates,
     memorySize := memSize, tag := none, parentTag := none, chainDepth := 0,
     snapshotType := "incremental" }, kvm')

def copyFromSlice (mem : List UInt8) (offset : Nat) (data : List UInt8) : List UInt8 :=
  mem.take offset ++ data ++ mem.drop (offset + data.length)

def applyPages (bitmap dirtyData : List UInt8) : List Nat → List UInt8 → Nat → List UInt8
  | [], baseMem, _ => baseMem
  | page :: pages, baseMem, dirtyOffset =>
    if bitmap.length ≤ page / 8 then baseMem
    else if pageDirty bitmap page then
      let memOffset := page * pageSize
      if baseMem.length < memOffset + pageSize ∨ dirtyData.length < dirtyOffset + pageSize then baseMem
      else
        let data := (dirtyData.drop dirtyOffset).take pageSize
        applyPages bitmap dirtyData pages (copyFromSlice baseMem memOffset data) (dirtyOffset + pageSize)
    else applyPages bitmap dirtyData pages baseMem dirtyOffset

def applyDiff (baseMem : List UInt8) (diff : IncrementalSnapshot) : List UInt8 :=
  applyPages diff.dirtyBitmap diff.dirtyPages (List.range (diff.memorySize / pageSize)) baseMem 0

theorem copyFromSlice_length (mem : List UInt8) (offset : Nat) (data : List UInt8)
    (h : offset + data.length ≤ mem.length) : (copyFromSlice mem offset data).length = mem.length := by
  simp only [copyFromSlice, List.length_append, List.length_take, List.length_drop]
  omega

theorem copyFromSlice_getElem? (mem : List UInt8) (offset : Nat) (data : List UInt8) (i : Nat)
    (h : offset + data.length ≤ mem.length) :
    (copyFromSlice mem offset data)[i]? =
      if offset ≤ i ∧ i < offset + data.length then data[i - offset]? else mem[i]? := by
  have htake : (mem.take offset).length = offset := by rw [List.length_take]; omega
  simp only [copyFromSlice]
  by_cases hlo : i < offset
  · rw [if_neg (by omega), List.append_assoc, List.getElem?_append_left (by omega),
      List.getElem?_take_of_lt hlo]
  · rw [List.append_assoc, List.getElem?_append_right (by omega), htake]
    by_cases hhi : i < offset + data.length
    · rw [if_pos (by omega), List.getElem?_append_left (by omega)]
    · rw [if_neg (by omega), List.getElem?_append_right (by omega), List.getElem?_drop]
      congr 1
      omega

theorem copyFromSlice_readBytes (mem : List UInt8) (m : ByteStore) (page i : Nat)
    (hpage : page * pageSize + pageSize ≤ mem.length) :
    (copyFromSlice mem (page * pageSize) (readBytes m (page * pageSize) pageSize))[i]? =
      if i / pageSize = page then some (m i) else mem[i]? := by
  rw [copyFromSlice_getElem? _ _ _ _ (by rwa [readBytes_length]), readBytes_length]
  have hiff : page * pageSize ≤ i ∧ i < page * pageSize + pageSize ↔ i / pageSize = page := by
    simp only [pageSize]
    omega
  by_cases hi : i / pageSize = page
  · obtain ⟨hlo, hhi⟩ := hiff.mpr hi
    rw [if_pos ⟨hlo, hhi⟩, if_pos hi, readBytes_getElem? _ _ _ _ (by omega), Nat.add_sub_cancel' hlo]
  · rw [if_neg (mt hiff.mp hi), if_neg hi]

theorem applyPages_length (bitmap dirtyData : List UInt8) (pages : List Nat) (mem : List UInt8) (dirtyOffset : Nat) :
    (applyPages bitmap dirtyData pages mem dirtyOffset).length = mem.length := by
  induction pages generalizing mem dirtyOffset with
  | nil => rfl
  | cons page pages ih =>
    rw [applyPages]
    split
    · rfl
    · split
      · dsimp only
        split
        · rfl
        · rw [ih, copyFromSlice_length]
          rw [List.length_take, List.length_drop]
          omega
      · exact ih mem dirtyOffset

theorem applyDiff_length (mem : List UInt8) (diff : IncrementalSnapshot) : (applyDiff mem diff).length = mem.length :=
  applyPages_length _ _ _ _ _

theorem applyPages_exhausted {bitmap dirtyData : List UInt8} {dirtyOffset : Nat}
    (h : dirtyData.length ≤ dirtyOffset) (pages : List Nat) (baseMem : List UInt8) :
    applyPages bitmap dirtyData pages baseMem dirtyOffset = baseMem := by
  have hsize := pageSize_pos
  induction pages with
  | nil => rfl
  | cons page pages ih =>
    rw [applyPages, ih]
    split
    · rfl
    · split
      · rw [if_pos (.inr (by omega))]
      · rfl

theorem applyPages_getElem? (bitmap dirtyData : List UInt8) (m : ByteStore) (pages rest : List Nat)
    (baseMem : List UInt8) (dirtyOffset i : Nat)
    (hbase : ∀ page ∈ pages, page * pageSize + pageSize ≤ baseMem.length)
    (hbits : ∀ page ∈ pages, page / 8 < bitmap.length)
    (hdata : dirtyData.drop dirtyOffset = (pages.filter (pageDirty bitmap)).flatMap
      fun page => readBytes m (page * pageSize) pageSize) :
    (applyPages bitmap dirtyData (pages ++ rest) baseMem dirtyOffset)[i]? =
      if i / pageSize ∈ pages ∧ pageDirty bitmap (i / pageSize) then some (m i) else baseMem[i]? := by
  induction pages generalizing baseMem dirtyOffset with
  | nil =>
    rw [List.nil_append, applyPages_exhausted (List.drop_eq_nil_iff.mp hdata)]
    simp
  | cons page pages ih =>
    have hfits := hbase page List.mem_cons_self
    have hbit := hbits page List.mem_cons_self
    have hbase' : ∀ q ∈ pages, q * pageSize + pageSize ≤ baseMem.length :=
      fun q hq => hbase q (List.mem_cons_of_mem _ hq)
    have hbits' : ∀ q ∈ pages, q / 8 < bitmap.length := fun q hq => hbits q (List.mem_cons_of_mem _ hq)
    rw [List.cons_append, applyPages, if_neg (Nat.not_le.mpr hbit)]
    by_cases hdirty : pageDirty bitmap page
    · rw [List.filter_cons_of_pos hdirty, List.flatMap_cons] at hdata
      have hlen := congrArg List.length hdata
      rw [List.length_drop, List.length_append, readBytes_length] at hlen
      have htake : (dirtyData.drop dirtyOffset).take pageSize =
          readBytes m (page * pageSize) pageSize := by
        rw [hdata, List.take_left' (readBytes_length _ _ _)]
      have hrest : dirtyData.drop (dirtyOffset + pageSize) = (pages.filter (pageDirty bitmap)).flatMap
          fun page => readBytes m (page * pageSize) pageSize := by
        rw [← List.drop_drop, hdata, List.drop_left' (readBytes_length _ _ _)]
      have hsize := pageSize_pos
      simp only [if_pos hdirty, if_neg (show ¬ (baseMem.length < page * pageSize + pageSize ∨
        dirtyData.length < dirtyOffset + pageSize) by omega), htake]
      have hkeep : (copyFromSlice baseMem (page * pageSize)
          (readBytes m (page * pageSize) pageSize)).length = baseMem.length :=
        copyFromSlice_length _ _ _ (by rwa [readBytes_length])
      rw [ih _ _ (by rwa [hkeep]) hbits' hrest, copyFromSlice_readBytes _ _ _ _ hfits]
      by_cases hi : i / pageSize = page
      · simp [hi, hdirty]
      · simp [hi]
    · rw [List.filter_cons_of_neg hdirty] at hdata
      rw [if_neg hdirty, ih _ _ hbase' hbits' hdata]
      by_cases hi : i / pageSize = page
      · simp [hi, hdirty]
      · simp [hi]

theorem getDirtyBitmap_length (memSize : Nat) (kvm : DirtyLog) :
    ((DirtyPageTracker.new memSize).getDirtyBitmap kvm).1.length = (memSize / pageSize + 63) / 64 * 8 := by
  simp only [DirtyPageTracker.getDirtyBitmap, DirtyPageTracker.new, List.length_append, List.length_replicate,
    List.length_take]
  omega

theorem range_split {n k : Nat} (h : k ≤ n) : ∃ rest, List.range n = List.range k ++ rest := by
  obtain ⟨d, rfl⟩ := Nat.exists_eq_add_of_le h
  exact ⟨_, List.range_add⟩

section Saved

variable {m : ByteStore} {memSize : Nat} {kvm : DirtyLog} {vcpuStates : List VcpuState} {deviceStates : DeviceStates}
  {baseTemplate : String} {kvmSlotSize : Nat}

theorem applyDiff_getElem? {baseMem : List UInt8} (hbase : baseMem.length = memSize) (i : Nat) :
    (applyDiff baseMem
        (saveIncremental m memSize kvm vcpuStates deviceStates baseTemplate kvmSlotSize).1)[i]? =
      if i / pageSize < min (kvmSlotSize / pageSize) (memSize / pageSize) ∧
          pageDirty ((DirtyPageTracker.new kvmSlotSize).getDirtyBitmap kvm).1 (i / pageSize) then some (m i)
      else baseMem[i]? := by
  have hlow : ∀ page ∈ List.range (min (kvmSlotSize / pageSize) (memSize / pageSize)),
      page * pageSize + pageSize ≤ baseMem.length := by
    intro page hpage
    rw [List.mem_range] at hpage
    simp only [hbase, pageSize] at hpage ⊢
    omega
  have hbits : ∀ page ∈ List.range (min (kvmSlotSize / pageSize) (memSize / pageSize)),
      page / 8 < ((DirtyPageTracker.new kvmSlotSize).getDirtyBitmap kvm).1.length := by
    intro page hpage
    rw [List.mem_range] at hpage
    rw [getDirtyBitmap_length]
    omega
  -- the tracker can have fewer pages than the memory: the pages after its last have no data
  obtain ⟨rest, hrest⟩ := range_split (Nat.min_le_right (kvmSlotSize / pageSize) (memSize / pageSize))
  simp only [applyDiff, saveIncremental, DirtyPageTracker.collectDirtyPages, hrest]
  refine (applyPages_getElem? _ _ m _ rest baseMem 0 i hlow hbits List.drop_zero).trans ?_
  simp only [List.mem_range]

end Saved

/-- The diff turns every memory of which the bitmap marks the changed pages into the saved one, and
does not change the saved one. -/
theorem applyDiff_collected (m : ByteStore) (memSize : Nat) (hsize : pageSize ∣ memSize) (kvm : DirtyLog)
    (vcpuStates : List VcpuState) (deviceStates : DeviceStates) (baseTemplate : String) (kvmSlotSize : Nat)
    (baseMem : List UInt8) (hbase : baseMem.length = memSize)
    (hmarked : ∀ i < memSize, baseMem[i]? ≠ some (m i) → i / pageSize < kvmSlotSize / pageSize ∧
      pageDirty ((DirtyPageTracker.new kvmSlotSize).getDirtyBitmap kvm).1 (i / pageSize) = true) :
    applyDiff baseMem (saveIncremental m memSize kvm vcpuStates deviceStates baseTemplate kvmSlotSize).1 =
        readBytes m 0 memSize ∧
      applyDiff (applyDiff baseMem (saveIncremental m memSize kvm vcpuStates deviceStates baseTemplate kvmSlotSize).1)
          (saveIncremental m memSize kvm vcpuStates deviceStates baseTemplate kvmSlotSize).1 =
        applyDiff baseMem (saveIncremental m memSize kvm vcpuStates deviceStates baseTemplate kvmSlotSize).1 := by
  constructor
  · apply List.ext_getElem?
    intro i
    rw [applyDiff_getElem? hbase]
    by_cases hi : i < memSize
    · rw [readBytes_getElem? _ _ _ _ hi, Nat.zero_add]
      split
      · rfl
      · rename_i hclean
        by_contra hne
        obtain ⟨htracked, hdirty⟩ := hmarked i hi hne
        have hpage : i / pageSize < memSize / pageSize := by
          obtain ⟨pages, rfl⟩ := hsize
          rw [Nat.mul_div_cancel_left _ pageSize_pos]
          exact Nat.div_lt_of_lt_mul hi
        exact hclean ⟨Nat.lt_min.mpr ⟨htracked, hpage⟩, hdirty⟩
    · have hpage : ¬ i / pageSize < memSize / pageSize := by
        simp only [pageSize]
        omega
      rw [if_neg fun hlt => hpage (Nat.lt_min.mp hlt.1).2, List.getElem?_eq_none (by omega),
        List.getElem?_eq_none (by rw [readBytes_length]; omega)]
  · apply List.ext_getElem?
    intro i
    rw [applyDiff_getElem? ((applyDiff_length _ _).trans hbase), applyDiff_getElem? hbase]
    split <;> rfl

theorem applyDiff_collected_two_pages :
    applyDiff (List.replicate 8192 0)
        (saveIncremental (fun i => if i < 4096 then 1 else 0) 8192 ⟨2, fun page => page == 0⟩ [] {} "base" 8192).1 =
      readBytes (fun i => if i < 4096 then 1 else 0) 0 8192 := by
  refine (applyDiff_collected (fun i => if i < 4096 then 1 else 0) 8192 (by decide) ⟨2, fun page => page == 0⟩ [] {}
    "base" 8192 (List.replicate 8192 0) List.length_replicate ?_).1
  intro i hi hne
  have hfirst : i < 4096 := by
    by_contra hge
    rw [if_neg hge, List.getElem?_replicate_of_lt hi] at hne
    exact hne rfl
  have hpage : i / pageSize = 0 := Nat.div_eq_of_lt hfirst
  rw [hpage]
  refine ⟨by decide, ?_⟩
  rw [getDirtyBitmap_pageDirty _ _ _ (by decide)]
  rfl

end CloneVmm.Boot
