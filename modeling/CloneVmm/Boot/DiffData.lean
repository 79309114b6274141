import CloneVmm.Boot.Snapshot

namespace CloneVmm.Boot

open CloneVmm.Memory

def applyDiffFile (baseMem : List UInt8) (diff : IncrementalSnapshot) (read : Except String (List UInt8)) :
    Except String (List UInt8) := do
  let dirtyData ← read
  return applyDiff baseMem { diff with dirtyPages := dirtyData }

def pageAt (bytes : List UInt8) (page : Nat) : List UInt8 := (bytes.drop (page * pageSize)).take pageSize

def LiesIn (mem : List UInt8) (page : Nat) : Prop := page * pageSize + pageSize ≤ mem.length

instance (mem : List UInt8) (page : Nat) : Decidable (LiesIn mem page) := inferInstanceAs (Decidable (_ ≤ _))

def requiredLength (mem bitmap : List UInt8) : Nat := markedBefore bitmap (mem.length / pageSize) * pageSize

structure ReportsIncomplete (mem bitmap data : List UInt8) (result : Except String (List UInt8)) : Prop where
  marked : ∀ out, result = .ok out → ∀ page, LiesIn mem page → pageDirty bitmap page = true →
    (markedBefore bitmap page + 1) * pageSize ≤ data.length ∧
      pageAt out page = pageAt data (markedBefore bitmap page)
  unmarked : ∀ out, result = .ok out → ∀ page, pageDirty bitmap page = false → pageAt out page = pageAt mem page
  short : data.length < requiredLength mem bitmap → ∃ e, result = .error e

theorem liesIn_iff (mem : List UInt8) (page : Nat) : LiesIn mem page ↔ page < mem.length / pageSize := by
  simp only [LiesIn, pageSize]
  omega

theorem LiesIn.of_length_eq {mem mem' : List UInt8} (h : mem'.length = mem.length) (page : Nat) :
    LiesIn mem' page ↔ LiesIn mem page := by
  rw [LiesIn, LiesIn, h]

theorem data_of_marked {mem bitmap data : List UInt8} {page : Nat} (hdata : requiredLength mem bitmap ≤ data.length)
    (hin : LiesIn mem page) (hmarked : pageDirty bitmap page = true) :
    (markedBefore bitmap page + 1) * pageSize ≤ data.length := by
  have hrank := markedBefore_mono bitmap (Nat.succ_le_of_lt ((liesIn_iff mem page).mp hin))
  rw [Nat.succ_eq_add_one, markedBefore_succ, if_pos hmarked] at hrank
  exact (Nat.mul_le_mul_right pageSize hrank).trans hdata

theorem pageAt_length {bytes : List UInt8} {page : Nat} (h : (page + 1) * pageSize ≤ bytes.length) :
    (pageAt bytes page).length = pageSize := by
  rw [pageAt, List.length_take, List.length_drop]
  rw [Nat.succ_mul] at h
  omega

theorem pageAt_getElem? (bytes : List UInt8) (page i : Nat) :
    (pageAt bytes page)[i]? = if i < pageSize then bytes[page * pageSize + i]? else none := by
  rw [pageAt, List.getElem?_take, List.getElem?_drop]

theorem pageAt_copyFromSlice {mem : List UInt8} {q : Nat} {bytes : List UInt8} (hin : LiesIn mem q)
    (hbytes : bytes.length = pageSize) (page : Nat) :
    pageAt (copyFromSlice mem (q * pageSize) bytes) page = if page = q then bytes else pageAt mem page := by
  apply List.ext_getElem?
  intro i
  rw [pageAt_getElem?]
  by_cases hi : i < pageSize
  · rw [if_pos hi, copyFromSlice_getElem? _ _ _ _ (by rw [hbytes]; exact hin), hbytes]
    by_cases hpage : page = q
    · subst hpage
      rw [if_pos (by omega), if_pos rfl, Nat.add_sub_cancel_left]
    · have hapart : ¬ (q * pageSize ≤ page * pageSize + i ∧ page * pageSize + i < q * pageSize + pageSize) := by
        simp only [pageSize] at hi ⊢
        omega
      rw [if_neg hapart, if_neg hpage, pageAt_getElem?, if_pos hi]
  · rw [if_neg hi]
    by_cases hpage : page = q
    · rw [if_pos hpage, List.getElem?_eq_none (by omega)]
    · rw [if_neg hpage, pageAt_getElem?, if_neg hi]

theorem applyPages_pageAt (bitmap data : List UInt8) (n k : Nat) (mem : List UInt8)
    (hdata : requiredLength mem bitmap ≤ data.length) (page : Nat) :
    pageAt (applyPages bitmap data (List.range' k n) mem (markedBefore bitmap k * pageSize)) page =
      if (k ≤ page ∧ page < k + n) ∧ LiesIn mem page ∧ pageDirty bitmap page = true then
        pageAt data (markedBefore bitmap page)
      else pageAt mem page := by
  -- at page `k` the loop has used the data of the marked pages before `k`
  induction n generalizing k mem with
  | zero =>
    rw [if_neg fun h => by omega]
    rfl
  | succ n ih =>
    rw [List.range'_succ, applyPages]
    by_cases hbitmap : bitmap.length ≤ k / 8
    · rw [if_pos hbitmap, if_neg]
      rintro ⟨⟨hk, -⟩, -, hmarked⟩
      rw [not_pageDirty_of_length_le (hbitmap.trans (Nat.div_le_div_right hk))] at hmarked
      cases hmarked
    · rw [if_neg hbitmap]
      have hrank := markedBefore_succ bitmap k
      by_cases hmarked : pageDirty bitmap k = true
      · rw [if_pos hmarked] at hrank
        simp only [if_pos hmarked]
        by_cases hin : LiesIn mem k
        · have hfits := data_of_marked hdata hin hmarked
          have hlen := pageAt_length hfits
          rw [Nat.succ_mul] at hfits
          rw [if_neg (by rw [LiesIn] at hin; omega), ← Nat.succ_mul, Nat.succ_eq_add_one, ← hrank, ← pageAt]
          have hkeep : (copyFromSlice mem (k * pageSize) (pageAt data (markedBefore bitmap k))).length = mem.length :=
            copyFromSlice_length _ _ _ (by rw [hlen]; exact hin)
          have hneeds : requiredLength (copyFromSlice mem (k * pageSize) (pageAt data (markedBefore bitmap k)))
              bitmap = requiredLength mem bitmap := by simp only [requiredLength, hkeep]
          rw [ih (k + 1) _ (hneeds.trans_le hdata), pageAt_copyFromSlice hin hlen]
          simp only [LiesIn.of_length_eq hkeep]
          by_cases hpage : page = k
          · subst hpage
            rw [if_neg (by omega), if_pos rfl, if_pos ⟨⟨Nat.le_refl _, by omega⟩, hin, hmarked⟩]
          · rw [if_neg hpage]
            exact if_congr (and_congr_left fun _ => by omega) rfl rfl
        · -- the pages after one that the memory does not hold lie outside it too
          rw [if_pos (.inl (Nat.lt_of_not_le hin)), if_neg]
          rintro ⟨⟨hk, -⟩, hpage, -⟩
          rw [liesIn_iff] at hin hpage
          omega
      · rw [if_neg hmarked] at hrank
        rw [if_neg hmarked, ← Nat.add_zero (markedBefore bitmap k), ← hrank, ih (k + 1) mem hdata]
        refine if_congr ?_ rfl rfl
        constructor
        · rintro ⟨hrange, h⟩
          exact ⟨by omega, h⟩
        · rintro ⟨hrange, hin, h⟩
          have hne : page ≠ k := fun heq => hmarked (heq ▸ h)
          exact ⟨by omega, hin, h⟩

theorem applyDiff_pageAt (mem : List UInt8) (diff : IncrementalSnapshot)
    (hdata : requiredLength mem diff.dirtyBitmap ≤ diff.dirtyPages.length) (page : Nat) :
    pageAt (applyDiff mem diff) page =
      if page < diff.memorySize / pageSize ∧ LiesIn mem page ∧ pageDirty diff.dirtyBitmap page = true then
        pageAt diff.dirtyPages (markedBefore diff.dirtyBitmap page)
      else pageAt mem page := by
  have h := applyPages_pageAt diff.dirtyBitmap diff.dirtyPages (diff.memorySize / pageSize) 0 mem hdata page
  rw [← List.range_eq_range', Nat.zero_add] at h
  rw [show markedBefore diff.dirtyBitmap 0 = 0 from rfl, Nat.zero_mul] at h
  rw [applyDiff, h]
  exact if_congr (and_congr_left fun _ => and_iff_right (Nat.zero_le page)) rfl rfl

/-- The diff is applied whole, or refused, if and only if the data holds every marked page of the memory
and the pages behind the size that the diff states hold theirs already. -/
theorem applyDiff_reports_iff (mem data : List UInt8) (diff : IncrementalSnapshot) :
    ReportsIncomplete mem diff.dirtyBitmap data (applyDiffFile mem diff (.ok data)) ↔
      requiredLength mem diff.dirtyBitmap ≤ data.length ∧
        ∀ page, diff.memorySize / pageSize ≤ page → LiesIn mem page → pageDirty diff.dirtyBitmap page = true →
          pageAt mem page = pageAt data (markedBefore diff.dirtyBitmap page) := by
  have hok : applyDiffFile mem diff (.ok data) = .ok (applyDiff mem { diff with dirtyPages := data }) := rfl
  rw [hok]
  constructor
  · intro h
    have hdata : requiredLength mem diff.dirtyBitmap ≤ data.length := by
      by_contra hshort
      obtain ⟨e, he⟩ := h.short (Nat.lt_of_not_le hshort)
      cases he
    refine ⟨hdata, fun page hsize hin hmarked => ?_⟩
    have hpage := applyDiff_pageAt mem { diff with dirtyPages := data } hdata page
    rw [if_neg fun hlt => absurd hlt.1 (Nat.not_lt.mpr hsize)] at hpage
    exact hpage.symm.trans (h.marked _ rfl page hin hmarked).2
  · rintro ⟨hdata, hrest⟩
    refine ⟨?_, ?_, fun hshort => absurd hdata (Nat.not_le.mpr hshort)⟩
    · rintro out ⟨⟩ page hin hmarked
      refine ⟨data_of_marked hdata hin hmarked, ?_⟩
      rw [applyDiff_pageAt mem { diff with dirtyPages := data } hdata]
      by_cases hsize : page < diff.memorySize / pageSize
      · exact if_pos ⟨hsize, hin, hmarked⟩
      · rw [if_neg fun h => hsize h.1]
        exact hrest page (Nat.le_of_not_lt hsize) hin hmarked
    · rintro out ⟨⟩ page hclean
      rw [applyDiff_pageAt mem { diff with dirtyPages := data } hdata]
      exact if_neg fun h => Bool.noConfusion (hclean.symm.trans h.2.2)

def cutDiff : IncrementalSnapshot :=
  { baseTemplate := "base", dirtyBitmap := [1], dirtyPages := [], vcpuStates := [], deviceStates := {},
    memorySize := 4096, tag := none, parentTag := none, chainDepth := 1, snapshotType := "incremental" }

theorem applyDiff_reports_fails :
    ¬ ReportsIncomplete (List.replicate 4096 0) [1] [] (applyDiffFile (List.replicate 4096 0) cutDiff (.ok [])) := by
  intro h
  have hin : LiesIn (List.replicate 4096 (0 : UInt8)) 0 := by
    rw [liesIn_iff, List.length_replicate]
    decide
  obtain ⟨hdata, -⟩ := h.marked _ rfl 0 hin (by decide)
  exact absurd hdata (by decide)

end CloneVmm.Boot
