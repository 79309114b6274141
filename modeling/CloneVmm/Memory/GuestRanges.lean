import CloneVmm.Virtio.Queue
import CloneVmm.Vmm.MemoryMap

/-!
`memory/mod.rs` and `virtio/queue.rs`: ranges of guest memory, whose first address is translated and
whose length is checked against the mapping.
-/

namespace CloneVmm

open CloneVmm.Lib

namespace Vmm.GuestMem

def writeAt (m : GuestMem) (mem : ByteStore) (gpa : Nat) (data : List UInt8) : Except String ByteStore := do
  let offset ← m.gpaToOffset gpa
  if m.size < (offset + data.length) % 2 ^ 64 then .error s!"Write at GPA {hex gpa} + {data.length} exceeds memory"
  else .ok (writeBytes mem offset data)

def readAt (m : GuestMem) (mem : ByteStore) (gpa len : Nat) : Except String (List UInt8) := do
  let offset ← m.gpaToOffset gpa
  if m.size < (offset + len) % 2 ^ 64 then .error s!"Read at GPA {hex gpa} + {len} exceeds memory"
  else .ok (readBytes mem offset len)

end Vmm.GuestMem

namespace Virtio

open CloneVmm.Vmm

def Virtqueue.guestWrite (vq : Virtqueue) (mem : ByteStore) (gpa : Nat) (data : List UInt8) : Option ByteStore :=
  (vq.guestRange gpa data.length).map fun offset => writeBytes mem offset data

def GuestLayout.backing (l : GuestLayout) (gpa : Nat) : Option Nat :=
  if l.hasMem = false ∨ 2 ^ 64 ≤ gpa then none
  else if l.holeStart = 0 ∨ gpa < l.holeStart then if gpa < l.guestMemSize then some gpa else none
  else if l.holeEnd ≤ gpa then
    if l.holeStart + (gpa - l.holeEnd) < l.guestMemSize then some (l.holeStart + (gpa - l.holeEnd)) else none
  else none

structure RangeCorrect (vq : Virtqueue) (gpa len : Nat) : Prop where
  accepts : (∃ offset, vq.guestRange gpa len = some offset) ↔ ∀ i < len, ∃ host, vq.layout.backing (gpa + i) = some host
  bytes : ∀ offset, vq.guestRange gpa len = some offset → ∀ i < len, vq.layout.backing (gpa + i) = some (offset + i)

structure RangeAgrees (vq : Virtqueue) (m : GuestMem) (gpa len : Nat) : Prop where
  read : ∀ mem, (m.readAt mem gpa len).toOption = vq.guestRead mem gpa len
  write : ∀ mem data, data.length = len → (m.writeAt mem gpa data).toOption = vq.guestWrite mem gpa data

def RunsIntoHole (vq : Virtqueue) (gpa len : Nat) : Prop :=
  gpa < vq.holeStart ∧ vq.holeStart < vq.holeEnd ∧ vq.holeStart < gpa + len ∧ gpa + len ≤ vq.guestMemSize

def RangeWraps (vq : Virtqueue) (gpa len : Nat) : Prop :=
  ∃ offset, vq.gpaToOffset gpa = some offset ∧
    (2 ^ 64 ≤ offset + len ∧ offset + len - 2 ^ 64 ≤ vq.guestMemSize ∨ 2 ^ 64 < gpa + len ∧ offset + len ≤ vq.guestMemSize)

def StartsInRam (vq : Virtqueue) (gpa : Nat) : Prop :=
  vq.hasMem = true ∧ ∃ offset, vq.gpaToOffset gpa = some offset ∧ offset ≤ vq.guestMemSize

structure Sized (vq : Virtqueue) : Prop where
  memSize : vq.guestMemSize < 2 ^ 64
  holeEnd : vq.holeEnd < 2 ^ 64
  hole : vq.holeStart ≤ vq.holeEnd

section Ranges

variable {vq : Virtqueue} {gpa len offset : Nat}

theorem gpaToOffset_cases (hsized : Sized vq) (hgpa : gpa < 2 ^ 64) (h : vq.gpaToOffset gpa = some offset) :
    (vq.holeStart = 0 ∧ gpa < vq.guestMemSize ∧ offset = gpa) ∨
      (vq.holeStart ≠ 0 ∧ gpa < vq.holeStart ∧ offset = gpa) ∨
      (vq.holeStart ≠ 0 ∧ vq.holeStart ≤ gpa ∧ vq.holeEnd ≤ gpa ∧ vq.holeStart + (gpa - vq.holeEnd) < vq.guestMemSize ∧
        offset = vq.holeStart + (gpa - vq.holeEnd)) := by
  have hhole := hsized.hole
  unfold Virtqueue.gpaToOffset at h
  split at h
  · split at h
    · cases h
    · cases h
      omega
  · split at h
    · cases h
      omega
    · split at h
      · dsimp only at h
        have hmod : (vq.holeStart + (gpa - vq.holeEnd)) % 2 ^ 64 = vq.holeStart + (gpa - vq.holeEnd) :=
          Nat.mod_eq_of_lt (by omega)
        rw [hmod] at h
        split at h
        · cases h
        · cases h
          omega
      · cases h

theorem offset_lt (hsized : Sized vq) (hgpa : gpa < 2 ^ 64) (h : vq.gpaToOffset gpa = some offset) : offset < 2 ^ 64 := by
  have hsize := hsized.memSize
  rcases gpaToOffset_cases hsized hgpa h with h | h | h
  · omega
  · omega
  · omega

theorem guestRange_eq_some : vq.guestRange gpa len = some offset ↔
    vq.hasMem = true ∧ vq.gpaToOffset gpa = some offset ∧ (offset + len) % 2 ^ 64 ≤ vq.guestMemSize := by
  unfold Virtqueue.guestRange
  cases htranslated : vq.gpaToOffset gpa with
  | none => simp
  | some offset' =>
    dsimp only
    split
    · rename_i hrefused
      simp only [reduceCtorEq, Option.some.injEq, false_iff, not_and]
      rintro hmem rfl
      rcases hrefused with hlt | hnone
      · omega
      · rw [hmem] at hnone
        cases hnone
    · rename_i haccepted
      rw [not_or] at haccepted
      obtain ⟨hle, hmem⟩ := haccepted
      rw [Bool.not_eq_true', Bool.not_eq_false] at hmem
      simp only [Option.some.injEq, hmem, true_and]
      constructor
      · rintro rfl
        exact ⟨rfl, by omega⟩
      · exact fun h => h.1

theorem GuestLayout.backing_eq_some {l : GuestLayout} {host : Nat} : l.backing gpa = some host ↔
    l.hasMem = true ∧ gpa < 2 ^ 64 ∧ host < l.guestMemSize ∧
      ((l.holeStart = 0 ∨ gpa < l.holeStart) ∧ host = gpa ∨
        l.holeStart ≠ 0 ∧ l.holeStart ≤ gpa ∧ l.holeEnd ≤ gpa ∧ host = l.holeStart + (gpa - l.holeEnd)) := by
  unfold GuestLayout.backing
  by_cases hnone : l.hasMem = false ∨ 2 ^ 64 ≤ gpa
  · rw [if_pos hnone]
    simp only [reduceCtorEq, false_iff]
    rintro ⟨hmem, hlt, -⟩
    rcases hnone with hnone | hnone
    · rw [hmem] at hnone
      cases hnone
    · omega
  · rw [if_neg hnone]
    rw [not_or, Bool.not_eq_false] at hnone
    simp only [hnone.1, true_and]
    by_cases hlow : l.holeStart = 0 ∨ gpa < l.holeStart
    · rw [if_pos hlow, Option.ite_none_right_eq_some, Option.some.injEq]
      omega
    · rw [if_neg hlow, Option.ite_none_right_eq_some, Option.ite_none_right_eq_some, Option.some.injEq]
      omega

theorem backing_eq_some {host : Nat} : vq.layout.backing gpa = some host ↔
    vq.hasMem = true ∧ gpa < 2 ^ 64 ∧ host < vq.guestMemSize ∧
      ((vq.holeStart = 0 ∨ gpa < vq.holeStart) ∧ host = gpa ∨
        vq.holeStart ≠ 0 ∧ vq.holeStart ≤ gpa ∧ vq.holeEnd ≤ gpa ∧ host = vq.holeStart + (gpa - vq.holeEnd)) :=
  GuestLayout.backing_eq_some

theorem backing_of_accepted (hsized : Sized vq) (hgpa : gpa < 2 ^ 64) (hlen : len < 2 ^ 64) (hhole : ¬ RunsIntoHole vq gpa len)
    (hwraps : ¬ RangeWraps vq gpa len) (h : vq.guestRange gpa len = some offset) {i : Nat} (hi : i < len) :
    vq.layout.backing (gpa + i) = some (offset + i) := by
  obtain ⟨hmem, htranslated, hle⟩ := guestRange_eq_some.mp h
  have hsize := hsized.memSize
  have horder := hsized.hole
  have hoffset := offset_lt hsized hgpa htranslated
  have hsum : offset + len < 2 ^ 64 := by
    by_contra hge
    exact hwraps ⟨offset, htranslated, Or.inl ⟨by omega, by omega⟩⟩
  rw [Nat.mod_eq_of_lt hsum] at hle
  have haddr : gpa + len ≤ 2 ^ 64 := by
    by_contra hgt
    exact hwraps ⟨offset, htranslated, Or.inr ⟨by omega, hle⟩⟩
  rw [backing_eq_some]
  refine ⟨hmem, by omega, by omega, ?_⟩
  unfold RunsIntoHole at hhole
  rcases gpaToOffset_cases hsized hgpa htranslated with h | h | h
  · omega
  · omega
  · omega

theorem gpaToOffset_below (h : gpa < vq.holeStart) : vq.gpaToOffset gpa = some gpa := by
  unfold Virtqueue.gpaToOffset
  rw [if_neg (by omega), if_pos h]

theorem gpaToOffset_above (hsized : Sized vq) (hgpa : gpa < 2 ^ 64) (hzero : vq.holeStart ≠ 0) (hstart : vq.holeStart ≤ gpa)
    (hend : vq.holeEnd ≤ gpa) (hlt : vq.holeStart + (gpa - vq.holeEnd) < vq.guestMemSize) :
    vq.gpaToOffset gpa = some (vq.holeStart + (gpa - vq.holeEnd)) := by
  have horder := hsized.hole
  have hmod : (vq.holeStart + (gpa - vq.holeEnd)) % 2 ^ 64 = vq.holeStart + (gpa - vq.holeEnd) :=
    Nat.mod_eq_of_lt (by omega)
  unfold Virtqueue.gpaToOffset
  rw [if_neg hzero, if_neg (by omega), if_pos hend]
  dsimp only
  rw [hmod, if_neg (by omega)]

theorem gpaToOffset_without_hole (hzero : vq.holeStart = 0) (hlt : gpa < vq.guestMemSize) :
    vq.gpaToOffset gpa = some gpa := by
  unfold Virtqueue.gpaToOffset
  rw [if_pos hzero, if_neg (by omega)]

theorem accepted_of_backing (hsized : Sized vq) (hpos : 0 < len)
    (h : ∀ i < len, ∃ host, vq.layout.backing (gpa + i) = some host) : ∃ offset, vq.guestRange gpa len = some offset := by
  have hsize := hsized.memSize
  have horder := hsized.hole
  obtain ⟨first, hfirst⟩ := h 0 hpos
  obtain ⟨last, hlast⟩ := h (len - 1) (by omega)
  obtain ⟨hmem, hgpa, -, hfirst⟩ := backing_eq_some.mp hfirst
  obtain ⟨-, -, hlt, hlast⟩ := backing_eq_some.mp hlast
  rw [Nat.add_zero] at hfirst hgpa
  have hbelow : vq.holeStart ≠ 0 → gpa < vq.holeStart → gpa + len ≤ vq.holeStart ∨ vq.holeEnd = vq.holeStart := by
    intro _ hlow
    by_contra hcross
    obtain ⟨host, hhost⟩ := h (vq.holeStart - gpa) (by omega)
    obtain ⟨-, -, -, hhost⟩ := backing_eq_some.mp hhost
    omega
  by_cases hzero : vq.holeStart = 0
  · refine ⟨gpa, guestRange_eq_some.mpr ⟨hmem, gpaToOffset_without_hole hzero (by omega), ?_⟩⟩
    rw [Nat.mod_eq_of_lt (by omega)]
    omega
  · by_cases hlow : gpa < vq.holeStart
    · have := hbelow hzero hlow
      refine ⟨gpa, guestRange_eq_some.mpr ⟨hmem, gpaToOffset_below hlow, ?_⟩⟩
      rw [Nat.mod_eq_of_lt (by omega)]
      omega
    · refine ⟨_, guestRange_eq_some.mpr ⟨hmem,
        gpaToOffset_above hsized hgpa hzero (by omega) (by omega) (by omega), ?_⟩⟩
      rw [Nat.mod_eq_of_lt (by omega)]
      omega

theorem toOption_gpaToOffset (hsized : Sized vq) (hgpa : gpa < 2 ^ 64) :
    ((GuestMem.mk vq.guestMemSize vq.holeStart vq.holeEnd).gpaToOffset gpa).toOption = vq.gpaToOffset gpa := by
  have horder := hsized.hole
  unfold GuestMem.gpaToOffset Virtqueue.gpaToOffset
  dsimp only
  split
  · split
    · rfl
    · rfl
  · split
    · rfl
    · split
      · have hmod : (vq.holeStart + (gpa - vq.holeEnd)) % 2 ^ 64 = vq.holeStart + (gpa - vq.holeEnd) :=
          Nat.mod_eq_of_lt (by omega)
        rw [hmod]
        split
        · rfl
        · rfl
      · rfl

theorem rangeAgrees (hsized : Sized vq) (hgpa : gpa < 2 ^ 64) (hmem : vq.hasMem = true) :
    RangeAgrees vq ⟨vq.guestMemSize, vq.holeStart, vq.holeEnd⟩ gpa len := by
  have htranslated := toOption_gpaToOffset hsized hgpa
  constructor
  · intro mem
    unfold GuestMem.readAt Virtqueue.guestRead Virtqueue.guestRange
    rw [← htranslated]
    cases (GuestMem.mk vq.guestMemSize vq.holeStart vq.holeEnd).gpaToOffset gpa with
    | error e => rfl
    | ok offset =>
      simp only [bind, Except.bind, Except.toOption, hmem, Bool.not_true, Bool.false_eq_true, or_false]
      by_cases hlong : vq.guestMemSize < (offset + len) % 2 ^ 64
      · rw [if_pos hlong, if_pos hlong]
        rfl
      · rw [if_neg hlong, if_neg hlong]
        rfl
  · rintro mem data rfl
    unfold GuestMem.writeAt Virtqueue.guestWrite Virtqueue.guestRange
    rw [← htranslated]
    cases (GuestMem.mk vq.guestMemSize vq.holeStart vq.holeEnd).gpaToOffset gpa with
    | error e => rfl
    | ok offset =>
      simp only [bind, Except.bind, Except.toOption, hmem, Bool.not_true, Bool.false_eq_true, or_false]
      by_cases hlong : vq.guestMemSize < (offset + data.length) % 2 ^ 64
      · rw [if_pos hlong, if_pos hlong]
        rfl
      · rw [if_neg hlong, if_neg hlong]
        rfl

theorem RangeCorrect.not_runsIntoHole (h : RangeCorrect vq gpa len) (hsized : Sized vq) (hmem : vq.hasMem = true) :
    ¬ RunsIntoHole vq gpa len := by
  rintro ⟨hlow, hhole, hcross, hfits⟩
  have hsize := hsized.memSize
  have haccepted : vq.guestRange gpa len = some gpa := by
    refine guestRange_eq_some.mpr ⟨hmem, gpaToOffset_below hlow, ?_⟩
    rw [Nat.mod_eq_of_lt (by omega)]
    exact hfits
  obtain ⟨host, hhost⟩ := h.accepts.mp ⟨gpa, haccepted⟩ (vq.holeStart - gpa) (by omega)
  obtain ⟨-, -, -, hhost⟩ := backing_eq_some.mp hhost
  omega

theorem RangeCorrect.not_wraps (h : RangeCorrect vq gpa len) (hsized : Sized vq) (hgpa : gpa < 2 ^ 64) (hlen : len < 2 ^ 64)
    (hmem : vq.hasMem = true) : ¬ RangeWraps vq gpa len := by
  rintro ⟨offset, htranslated, hwraps⟩
  have hsize := hsized.memSize
  have hoffset := offset_lt hsized hgpa htranslated
  rcases hwraps with ⟨hge, hle⟩ | ⟨hgt, hle⟩
  · have haccepted : vq.guestRange gpa len = some offset :=
      guestRange_eq_some.mpr ⟨hmem, htranslated, by omega⟩
    obtain ⟨-, -, hlt, -⟩ := backing_eq_some.mp (h.bytes offset haccepted (len - 1) (by omega))
    omega
  · have haccepted : vq.guestRange gpa len = some offset :=
      guestRange_eq_some.mpr ⟨hmem, htranslated, by omega⟩
    obtain ⟨-, hlt, -, -⟩ := backing_eq_some.mp (h.bytes offset haccepted (2 ^ 64 - gpa) (by omega))
    omega

end Ranges

theorem guestRange_correct_iff (vq : Virtqueue) (hsized : Sized vq) (gpa len : Nat) (hgpa : gpa < 2 ^ 64)
    (hlen : len < 2 ^ 64) :
    (RangeCorrect vq gpa len ∧
        (vq.hasMem = true → RangeAgrees vq ⟨vq.guestMemSize, vq.holeStart, vq.holeEnd⟩ gpa len)) ↔
      (len = 0 → StartsInRam vq gpa) ∧ (vq.hasMem = true → ¬ RunsIntoHole vq gpa len ∧ ¬ RangeWraps vq gpa len) := by
  constructor
  · rintro ⟨hcorrect, -⟩
    refine ⟨?_, fun hmem => ⟨hcorrect.not_runsIntoHole hsized hmem, hcorrect.not_wraps hsized hgpa hlen hmem⟩⟩
    rintro rfl
    obtain ⟨offset, haccepted⟩ := hcorrect.accepts.mpr fun i hi => absurd hi (Nat.not_lt_zero i)
    obtain ⟨hmem, htranslated, hle⟩ := guestRange_eq_some.mp haccepted
    have hoffset := offset_lt hsized hgpa htranslated
    exact ⟨hmem, offset, htranslated, by omega⟩
  · rintro ⟨hempty, hok⟩
    have hbytes : ∀ offset, vq.guestRange gpa len = some offset → ∀ i < len,
        vq.layout.backing (gpa + i) = some (offset + i) := by
      intro offset haccepted i hi
      obtain ⟨hhole, hwraps⟩ := hok (guestRange_eq_some.mp haccepted).1
      exact backing_of_accepted hsized hgpa hlen hhole hwraps haccepted hi
    refine ⟨⟨⟨?_, ?_⟩, hbytes⟩, rangeAgrees hsized hgpa⟩
    · rintro ⟨offset, haccepted⟩ i hi
      exact ⟨_, hbytes offset haccepted i hi⟩
    · intro hbacked
      rcases Nat.eq_zero_or_pos len with hzero | hpos
      · obtain ⟨hmem, offset, htranslated, hle⟩ := hempty hzero
        have hsize := hsized.memSize
        refine ⟨offset, guestRange_eq_some.mpr ⟨hmem, htranslated, ?_⟩⟩
        rw [Nat.mod_eq_of_lt (by omega)]
        omega
      · exact accepted_of_backing hsized hpos hbacked

def splitQueue : Virtqueue := (Virtqueue.new 256 true (allocSize 0x100000000)).setHole mmioHoleStart mmioHoleEnd

theorem splitQueue_sized : Sized splitQueue := ⟨by decide, by decide, by decide⟩

theorem guestRange_correct_page :
    RangeCorrect splitQueue 0xBFFFF000 4096 ∧
      (splitQueue.hasMem = true →
        RangeAgrees splitQueue ⟨splitQueue.guestMemSize, splitQueue.holeStart, splitQueue.holeEnd⟩ 0xBFFFF000 4096) := by
  apply (guestRange_correct_iff splitQueue splitQueue_sized 0xBFFFF000 4096 (by decide) (by decide)).mpr
  refine ⟨fun hzero => absurd hzero (by decide), fun _ => ⟨?_, ?_⟩⟩
  · rintro ⟨-, -, hcross, -⟩
    exact absurd hcross (by decide)
  · rintro ⟨offset, htranslated, hwraps⟩
    have hbelow : splitQueue.gpaToOffset 0xBFFFF000 = some 0xBFFFF000 := gpaToOffset_below (by decide)
    cases hbelow.symm.trans htranslated
    rcases hwraps with ⟨hge, -⟩ | ⟨hgt, -⟩
    · omega
    · omega

theorem guestRange_correct_fails : ¬ RangeCorrect splitQueue 0xBFFFFFFF 2 := by
  intro hcorrect
  apply hcorrect.not_runsIntoHole splitQueue_sized rfl
  unfold RunsIntoHole
  decide

end Virtio

end CloneVmm
