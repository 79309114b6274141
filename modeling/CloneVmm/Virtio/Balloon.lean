import CloneVmm.Vmm.MemoryMap

/-!
The inflate queue of `virtio/balloon.rs`: the guest gives page frames back, and the pages of the host that are behind
them are discarded. What a frame is checked against is the size that the boot path gives to the device.
-/

namespace CloneVmm.Virtio.Balloon

open CloneVmm.Vmm

def balloonPageSize : Nat := 4096

def guestAddr (pfn : UInt32) : Nat := pfn.toNat * balloonPageSize

def hostOffset (addr : Nat) : Nat := if mmioHoleEnd ≤ addr then mmioHoleStart + (addr - mmioHoleEnd) else addr

structure VirtioBalloon where
  actual : UInt32
  guestMemSize : Nat

namespace VirtioBalloon

def new (guestMemSize : Nat) : VirtioBalloon := ⟨0, guestMemSize⟩

def saturatingAdd (a b : UInt32) : UInt32 := .ofNat (min (a.toNat + b.toNat) (2 ^ 32 - 1))

def inflatePfn (d : VirtioBalloon) (s : UInt32 × List Nat) (pfn : UInt32) : UInt32 × List Nat :=
  if d.guestMemSize < guestAddr pfn + balloonPageSize then s
  else (s.1 + 1, s.2 ++ [hostOffset (guestAddr pfn)])

def processInflate (d : VirtioBalloon) (pfns : List UInt32) : VirtioBalloon × List Nat :=
  let s := pfns.foldl d.inflatePfn (0, [])
  ({ d with actual := saturatingAdd d.actual s.1 }, s.2)

end VirtioBalloon

def balloonMemSize : BootPath → Nat → Nat
  | .boot, memSize => allocSize memSize
  | .forkBoot, memSize | .restoreBoot, memSize =>
    if mmioHoleStart < memSize then mmioHoleEnd + (memSize - mmioHoleStart) else memSize

/-- The page of the host at `offset` is what the guest has at `pfn`: a memory slot says so, and it is mapped. -/
structure Backs (vm : VmMemory) (pfn : UInt32) (offset : Nat) : Prop where
  slot : ∃ r ∈ vm.regions, r.guestPhysAddr ≤ guestAddr pfn ∧
    guestAddr pfn + balloonPageSize ≤ r.guestPhysAddr + r.memorySize ∧ offset = r.offsetOf (guestAddr pfn)
  mapped : offset + balloonPageSize ≤ vm.guestMem.size

def InRange (size : Nat) (pfn : UInt32) : Prop := guestAddr pfn + balloonPageSize ≤ size

instance (size : Nat) (pfn : UInt32) : Decidable (InRange size pfn) := inferInstanceAs (Decidable (_ ≤ _))

structure InflatesRight (vm : VmMemory) (d : VirtioBalloon) (pfns : List UInt32) : Prop where
  discards : ∀ offset, offset ∈ (d.processInflate pfns).2 ↔ ∃ pfn ∈ pfns, Backs vm pfn offset
  skips : ∀ pfn ∈ pfns, (∀ offset, ¬ Backs vm pfn offset) → ∀ s, d.inflatePfn s pfn = s
  inside : ∀ offset ∈ (d.processInflate pfns).2, offset + balloonPageSize ≤ vm.guestMem.size
  counts : (d.processInflate pfns).1.actual.toNat = d.actual.toNat + (d.processInflate pfns).2.length

def InHole (pfn : UInt32) : Prop := mmioHoleStart ≤ guestAddr pfn ∧ guestAddr pfn < mmioHoleEnd

def Misjudged (memSize : Nat) (pfn : UInt32) : BootPath → Prop
  | .boot => mmioHoleStart < memSize ∧
      (InHole pfn ∧ InRange (allocSize memSize) pfn ∨
        mmioHoleEnd ≤ guestAddr pfn ∧ ¬ InRange (allocSize memSize) pfn ∧
          InRange (allocSize memSize + (mmioHoleEnd - mmioHoleStart)) pfn)
  | .forkBoot | .restoreBoot => mmioHoleStart < memSize ∧ InHole pfn

section Inflate

variable {d : VirtioBalloon} {pfn : UInt32} {pfns : List UInt32}

theorem inflatePfn_eq (d : VirtioBalloon) (s : UInt32 × List Nat) (pfn : UInt32) :
    d.inflatePfn s pfn =
      if InRange d.guestMemSize pfn then (s.1 + 1, s.2 ++ [hostOffset (guestAddr pfn)]) else s := by
  unfold VirtioBalloon.inflatePfn
  by_cases hin : InRange d.guestMemSize pfn
  · rw [if_neg (Nat.not_lt.mpr hin), if_pos hin]
  · rw [if_pos (Nat.lt_of_not_le hin), if_neg hin]

theorem skipped_iff : (∀ s, d.inflatePfn s pfn = s) ↔ ¬ InRange d.guestMemSize pfn := by
  constructor
  · intro h hin
    have hsame := congrArg Prod.snd (h (0, []))
    rw [inflatePfn_eq, if_pos hin] at hsame
    cases hsame
  · intro hout s
    rw [inflatePfn_eq, if_neg hout]

def taken (d : VirtioBalloon) (pfns : List UInt32) : List UInt32 :=
  pfns.filter fun pfn => decide (InRange d.guestMemSize pfn)

theorem foldl_inflatePfn (s : UInt32 × List Nat) :
    pfns.foldl d.inflatePfn s =
      (s.1 + .ofNat (taken d pfns).length, s.2 ++ (taken d pfns).map fun pfn => hostOffset (guestAddr pfn)) := by
  induction pfns generalizing s with
  | nil =>
    rw [List.foldl_nil]
    exact Prod.ext (UInt32.add_zero _).symm (List.append_nil _).symm
  | cons pfn pfns ih =>
    rw [List.foldl_cons, ih, inflatePfn_eq]
    by_cases hin : InRange d.guestMemSize pfn
    · have htaken : taken d (pfn :: pfns) = pfn :: taken d pfns := List.filter_cons_of_pos (decide_eq_true hin)
      rw [if_pos hin, htaken, List.length_cons, List.map_cons, Nat.add_comm _ 1, UInt32.ofNat_add, ← UInt32.add_assoc,
        List.append_assoc]
      rfl
    · have htaken : taken d (pfn :: pfns) = taken d pfns := List.filter_cons_of_neg (by simpa using hin)
      rw [if_neg hin, htaken]

theorem processInflate_discarded (d : VirtioBalloon) (pfns : List UInt32) :
    (d.processInflate pfns).2 = (taken d pfns).map fun pfn => hostOffset (guestAddr pfn) := by
  rw [VirtioBalloon.processInflate, foldl_inflatePfn]
  exact List.nil_append _

theorem mem_discarded {offset : Nat} :
    offset ∈ (d.processInflate pfns).2 ↔
      ∃ pfn ∈ pfns, InRange d.guestMemSize pfn ∧ offset = hostOffset (guestAddr pfn) := by
  simp [processInflate_discarded, taken, and_assoc, eq_comm]

theorem counts_iff :
    (d.processInflate pfns).1.actual.toNat = d.actual.toNat + (d.processInflate pfns).2.length ↔
      d.actual.toNat + (taken d pfns).length < 2 ^ 32 := by
  have hactual : (d.processInflate pfns).1.actual =
      VirtioBalloon.saturatingAdd d.actual (.ofNat (taken d pfns).length) := by
    rw [VirtioBalloon.processInflate, foldl_inflatePfn, UInt32.zero_add]
  rw [hactual, processInflate_discarded, List.length_map, VirtioBalloon.saturatingAdd]
  have hlt := (VirtioBalloon.saturatingAdd d.actual (.ofNat (taken d pfns).length)).toNat_lt
  rw [VirtioBalloon.saturatingAdd] at hlt
  constructor
  · intro h
    rwa [← h]
  · intro hsum
    rw [UInt32.toNat_ofNat', UInt32.toNat_ofNat']
    omega

end Inflate

section Pages

variable {path : BootPath} {memSize offset : Nat} {pfn pfn' : UInt32}

theorem memory_size_eq (path : BootPath) (memSize : Nat) :
    ∃ extra more, (path.memory memSize).guestMem.size = memSize + extra ∧ extra ≤ guardSize ∧
      (path.memory memSize).regions = regionsFor memSize (extra + more) (decide (mmioHoleStart < memSize)) := by
  have hnot : (!decide (memSize ≤ mmioHoleStart)) = decide (mmioHoleStart < memSize) := by
    rw [← decide_not]
    exact decide_eq_decide.mpr Nat.not_le
  cases path with
  | boot =>
    refine ⟨guardSize, 0, ?_, Nat.le_refl _, boot_regions memSize⟩
    rw [← allocSize_eq]
    change (bootGuestMem memSize).size = _
    unfold bootGuestMem
    split
    · rfl
    · rfl
  | forkBoot =>
    refine ⟨0, 0, ?_, Nat.zero_le _, congrArg (regionsFor memSize 0) hnot⟩
    change (forkFromTemplate memSize).size = _
    unfold forkFromTemplate
    split
    · rfl
    · rfl
  | restoreBoot =>
    refine ⟨0, guardSize, rfl, Nat.zero_le _, ?_⟩
    rw [Nat.zero_add]
    exact congrArg (regionsFor memSize guardSize) hnot

theorem backs_small (h : memSize ≤ mmioHoleStart) : Backs (path.memory memSize) pfn offset ↔
    offset = guestAddr pfn ∧ InRange (path.memory memSize).guestMem.size pfn := by
  obtain ⟨extra, more, hsize, -, hregions⟩ := memory_size_eq path memSize
  rw [decide_eq_false (by omega)] at hregions
  unfold InRange
  rw [hsize]
  constructor
  · rintro ⟨⟨r, hr, hstart, hend, hoffset⟩, hmapped⟩
    have hslot : r = ⟨0, 0, memSize + (extra + more), 0⟩ := by
      rw [hregions] at hr
      exact List.mem_singleton.mp hr
    subst hslot
    rw [hsize] at hmapped
    simp only [MemoryRegion.offsetOf] at hoffset
    omega
  · rintro ⟨rfl, hrange⟩
    refine ⟨⟨⟨0, 0, memSize + (extra + more), 0⟩, ?_, Nat.zero_le _, ?_, ?_⟩, ?_⟩
    · rw [hregions]
      exact List.mem_singleton_self _
    · dsimp only
      omega
    · simp only [MemoryRegion.offsetOf]
      omega
    · rwa [hsize]

theorem guestAddr_cases (pfn : UInt32) :
    guestAddr pfn + balloonPageSize ≤ mmioHoleStart ∨ InHole pfn ∨ mmioHoleEnd ≤ guestAddr pfn := by
  unfold InHole guestAddr balloonPageSize mmioHoleStart mmioHoleEnd
  omega

theorem InHole.end_le (h : InHole pfn) : guestAddr pfn + balloonPageSize ≤ mmioHoleEnd := by
  have hend := h.2
  unfold guestAddr balloonPageSize mmioHoleEnd at *
  omega

theorem not_inHole_of_low (h : guestAddr pfn + balloonPageSize ≤ mmioHoleStart) : ¬ InHole pfn := by
  intro hin
  have hstart := hin.1
  have hpage : 0 < balloonPageSize := by decide
  omega

theorem backs_large (h : mmioHoleStart < memSize) : Backs (path.memory memSize) pfn offset ↔
    offset = hostOffset (guestAddr pfn) ∧ ¬ InHole pfn ∧
      offset + balloonPageSize ≤ (path.memory memSize).guestMem.size := by
  obtain ⟨extra, more, hsize, -, hregions⟩ := memory_size_eq path memSize
  rw [decide_eq_true h] at hregions
  have hpage : 0 < balloonPageSize := by decide
  have horder : mmioHoleStart < mmioHoleEnd := by decide
  constructor
  · rintro ⟨⟨r, hr, hstart, hend, hoffset⟩, hmapped⟩
    rw [hregions] at hr
    rcases mem_regionsFor_hole hr with rfl | rfl
    · simp only [MemoryRegion.offsetOf] at hstart hend hoffset
      unfold hostOffset InHole
      rw [if_neg (by omega)]
      exact ⟨by omega, by omega, hmapped⟩
    · simp only [MemoryRegion.offsetOf] at hstart hend hoffset
      unfold hostOffset InHole
      rw [if_pos hstart]
      exact ⟨hoffset, by omega, hmapped⟩
  · rintro ⟨rfl, hhole, hmapped⟩
    refine ⟨?_, hmapped⟩
    rw [hsize] at hmapped
    rw [hregions]
    rcases guestAddr_cases pfn with hlow | hin | hhigh
    · refine ⟨⟨0, 0, mmioHoleStart, 0⟩, List.mem_cons_self, Nat.zero_le _, ?_, ?_⟩
      · rwa [Nat.zero_add]
      · rw [hostOffset, if_neg (by omega)]
        simp only [MemoryRegion.offsetOf]
        omega
    · exact absurd hin hhole
    · rw [hostOffset, if_pos hhigh] at hmapped
      refine ⟨_, List.mem_cons_of_mem _ List.mem_cons_self, hhigh, ?_, ?_⟩
      · dsimp only
        omega
      · rw [hostOffset, if_pos hhigh]
        rfl

theorem hostOffset_inj (h : ¬ InHole pfn) (h' : ¬ InHole pfn')
    (heq : hostOffset (guestAddr pfn) = hostOffset (guestAddr pfn')) : guestAddr pfn = guestAddr pfn' := by
  unfold InHole at h h'
  have horder : mmioHoleStart ≤ mmioHoleEnd := by decide
  unfold hostOffset at heq
  split at heq
  · split at heq
    · omega
    · omega
  · split at heq
    · omega
    · omega

theorem size_small (path : BootPath) (h : memSize ≤ mmioHoleStart) :
    balloonMemSize path memSize = (path.memory memSize).guestMem.size := by
  cases path with
  | boot =>
    change allocSize memSize = (bootGuestMem memSize).size
    rw [bootGuestMem, if_pos h]
    rfl
  | forkBoot =>
    change (if _ then _ else _) = (forkFromTemplate memSize).size
    rw [if_neg (Nat.not_lt.mpr h), forkFromTemplate, if_neg (Nat.not_lt.mpr h)]
    rfl
  | restoreBoot => exact if_neg (Nat.not_lt.mpr h)

theorem size_boot (h : mmioHoleStart < memSize) : (BootPath.boot.memory memSize).guestMem.size = allocSize memSize := by
  change (bootGuestMem memSize).size = _
  rw [bootGuestMem, if_neg (Nat.not_le.mpr h)]
  rfl

theorem size_restored (hpath : path ≠ .boot) (h : mmioHoleStart < memSize) :
    balloonMemSize path memSize = (path.memory memSize).guestMem.size + (mmioHoleEnd - mmioHoleStart) ∧
      memSize = (path.memory memSize).guestMem.size := by
  have horder : mmioHoleStart < mmioHoleEnd := by decide
  have hsize : (path.memory memSize).guestMem.size = memSize := by
    cases path with
    | boot => exact absurd rfl hpath
    | forkBoot =>
      change (forkFromTemplate memSize).size = _
      rw [forkFromTemplate, if_pos h]
      rfl
    | restoreBoot => rfl
  have hballoon : balloonMemSize path memSize = mmioHoleEnd + (memSize - mmioHoleStart) := by
    cases path with
    | boot => exact absurd rfl hpath
    | forkBoot => exact if_pos h
    | restoreBoot => exact if_pos h
  rw [hballoon, hsize]
  exact ⟨by omega, rfl⟩

theorem hostOffset_low (h : guestAddr pfn + balloonPageSize ≤ mmioHoleStart) :
    hostOffset (guestAddr pfn) = guestAddr pfn := by
  have horder : mmioHoleStart < mmioHoleEnd := by decide
  exact if_neg (by omega)

theorem hostOffset_high {size : Nat} (h : mmioHoleEnd ≤ guestAddr pfn) :
    hostOffset (guestAddr pfn) + balloonPageSize ≤ size ↔ InRange (size + (mmioHoleEnd - mmioHoleStart)) pfn := by
  have horder : mmioHoleStart < mmioHoleEnd := by decide
  rw [hostOffset, if_pos h]
  unfold InRange
  omega

theorem misjudged_restored (hpath : path ≠ .boot) :
    Misjudged memSize pfn path ↔ mmioHoleStart < memSize ∧ InHole pfn := by
  cases path with
  | boot => exact absurd rfl hpath
  | forkBoot => exact Iff.rfl
  | restoreBoot => exact Iff.rfl

theorem backs_of_not_misjudged (h : ¬ Misjudged memSize pfn path) : Backs (path.memory memSize) pfn offset ↔
    InRange (balloonMemSize path memSize) pfn ∧ offset = hostOffset (guestAddr pfn) := by
  rcases Nat.lt_or_ge mmioHoleStart memSize with hlarge | hsmall
  · rw [backs_large hlarge, and_comm (a := InRange _ _)]
    refine and_congr_right fun hoffset => ?_
    subst hoffset
    by_cases hpath : path = .boot
    · subst hpath
      have hsize : balloonMemSize .boot memSize = allocSize memSize := rfl
      rw [size_boot hlarge, hsize]
      simp only [Misjudged, hlarge, true_and, not_or, not_and] at h
      rcases guestAddr_cases pfn with hlow | hin | hhigh
      · rw [hostOffset_low hlow]
        exact and_iff_right (not_inHole_of_low hlow)
      · exact iff_of_false (fun hbacked => hbacked.1 hin) (h.1 hin)
      · rw [hostOffset_high hhigh, and_iff_right fun hin => Nat.not_le.mpr hin.2 hhigh]
        refine ⟨fun hrange => by_contra fun hout => h.2 hhigh hout hrange, fun hrange => ?_⟩
        exact hrange.trans (Nat.le_add_right _ _)
    · obtain ⟨hballoon, hsize⟩ := size_restored hpath hlarge
      have hhole : ¬ InHole pfn := fun hin => h ((misjudged_restored hpath).mpr ⟨hlarge, hin⟩)
      rw [hballoon, and_iff_right hhole]
      rcases guestAddr_cases pfn with hlow | hin | hhigh
      · rw [hostOffset_low hlow, ← hsize]
        unfold InRange
        omega
      · exact absurd hin hhole
      · exact hostOffset_high hhigh
  · rw [backs_small hsmall, size_small path hsmall, and_comm]
    refine and_congr_right fun hrange => ?_
    obtain ⟨extra, -, hsize, hextra, -⟩ := memory_size_eq path memSize
    have hguard : mmioHoleStart + guardSize ≤ mmioHoleEnd := by decide
    have hpage : 0 < balloonPageSize := by decide
    unfold InRange at hrange
    rw [hostOffset, if_neg (by omega)]

theorem Misjudged.large (h : Misjudged memSize pfn path) : mmioHoleStart < memSize := by
  cases path with
  | boot => exact h.1
  | forkBoot => exact h.1
  | restoreBoot => exact h.1

theorem Misjudged.cases (h : Misjudged memSize pfn path) :
    (InHole pfn ∧ InRange (balloonMemSize path memSize) pfn) ∨
      (Backs (path.memory memSize) pfn (hostOffset (guestAddr pfn)) ∧ ¬ InHole pfn ∧
        ¬ InRange (balloonMemSize path memSize) pfn) := by
  have hlarge := h.large
  by_cases hpath : path = .boot
  · subst hpath
    rcases h.2 with htaken | ⟨hhigh, hout, hrange⟩
    · exact .inl htaken
    · have hhole : ¬ InHole pfn := fun hin => Nat.not_le.mpr hin.2 hhigh
      refine .inr ⟨(backs_large hlarge).mpr ⟨rfl, hhole, ?_⟩, hhole, hout⟩
      rw [size_boot hlarge]
      exact (hostOffset_high hhigh).mpr hrange
  · have hin := ((misjudged_restored hpath).mp h).2
    refine .inl ⟨hin, ?_⟩
    obtain ⟨hballoon, hsize⟩ := size_restored hpath hlarge
    have hend := hin.end_le
    rw [hballoon, ← hsize]
    unfold InRange
    omega

theorem not_backs_of_inHole (hlarge : mmioHoleStart < memSize) (h : InHole pfn) :
    ¬ Backs (path.memory memSize) pfn offset :=
  fun hbacks => ((backs_large hlarge).mp hbacks).2.1 h

end Pages

/-- Every frame of the list must be one that the path judges right, and the counter must not come to its limit. -/
theorem processInflate_right_iff (path : BootPath) (memSize : Nat) (actual : UInt32) (pfns : List UInt32) :
    InflatesRight (path.memory memSize) ⟨actual, balloonMemSize path memSize⟩ pfns ↔
      (∀ pfn ∈ pfns, ¬ Misjudged memSize pfn path) ∧
        actual.toNat + (pfns.filter fun pfn => decide (InRange (balloonMemSize path memSize) pfn)).length < 2 ^ 32 := by
  constructor
  · intro h
    refine ⟨?_, counts_iff.mp h.counts⟩
    intro pfn hpfn hmisjudged
    have hlarge := hmisjudged.large
    have hnone : ∀ p ∈ pfns, InHole p → ¬ InRange (balloonMemSize path memSize) p := fun p hp hin =>
      skipped_iff.mp (h.skips p hp fun _ => not_backs_of_inHole hlarge hin)
    rcases hmisjudged.cases with ⟨hin, hrange⟩ | ⟨hbacks, hhole, hout⟩
    · exact hnone pfn hpfn hin hrange
    · -- The page can only be discarded for another frame, but that would be the same one.
      obtain ⟨p, hp, hrange, hoffset⟩ := mem_discarded.mp ((h.discards _).mpr ⟨pfn, hpfn, hbacks⟩)
      have hsame := hostOffset_inj hhole (fun hin => hnone p hp hin hrange) hoffset
      unfold InRange at hout hrange
      rw [hsame] at hout
      exact hout hrange
  · rintro ⟨hjudged, hroom⟩
    have hdiscards : ∀ offset, offset ∈ (VirtioBalloon.processInflate ⟨actual, balloonMemSize path memSize⟩ pfns).2 ↔
        ∃ pfn ∈ pfns, Backs (path.memory memSize) pfn offset := by
      intro offset
      rw [mem_discarded]
      exact exists_congr fun pfn => and_congr_right fun hpfn => (backs_of_not_misjudged (hjudged pfn hpfn)).symm
    refine ⟨hdiscards, ?_, ?_, counts_iff.mpr hroom⟩
    · intro pfn hpfn hfree
      refine skipped_iff.mpr fun hrange => hfree (hostOffset (guestAddr pfn)) ?_
      exact (backs_of_not_misjudged (hjudged pfn hpfn)).mpr ⟨hrange, rfl⟩
    · intro offset hoffset
      obtain ⟨pfn, -, hbacks⟩ := (hdiscards offset).mp hoffset
      exact hbacks.mapped

theorem processInflate_right_fails :
    ¬ InflatesRight (BootPath.forkBoot.memory 0xE0000000) (.new (balloonMemSize .forkBoot 0xE0000000)) [0xE0000] := by
  intro h
  have hmem : 0xE0000000 ∈
      (VirtioBalloon.processInflate (.new (balloonMemSize .forkBoot 0xE0000000)) [0xE0000]).2 := by decide
  exact absurd (h.inside _ hmem) (by decide)

end CloneVmm.Virtio.Balloon
