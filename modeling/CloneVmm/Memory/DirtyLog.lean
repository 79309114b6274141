import Mathlib.Data.Nat.Bitwise
import CloneVmm.Lib.Bytes

/-!
`memory/overcommit.rs`: the dirty page bitmap fetched from KVM. KVM keeps one log for each
memory slot; the guest RAM above 3 GB lies in slot 1, and the tracker only ever reads slot 0.
-/

namespace CloneVmm.Memory

open CloneVmm.Lib

def pageSize : Nat := 4096

theorem pageSize_pos : 0 < pageSize := by decide

structure DirtyLog where
  slot0Pages : Nat
  written : Nat → Bool

namespace DirtyLog

def mark (k : DirtyLog) (page : Nat) : DirtyLog :=
  { k with written := fun p => p == page || k.written p }

def reported (k : DirtyLog) (page : Nat) : Bool :=
  decide (page < k.slot0Pages) && k.written page

def getDirtyLog (k : DirtyLog) (memorySize : Nat) : List Nat × DirtyLog :=
  ((List.range ((memorySize + (pageSize * 64 - 1)) / (pageSize * 64))).map fun w =>
      Nat.ofBits fun b : Fin 64 => k.reported (64 * w + b),
    { k with written := fun p => k.written p && !decide (p < k.slot0Pages) })

theorem mark_written (k : DirtyLog) (page p : Nat) :
    (k.mark page).written p = (p == page || k.written p) := rfl

@[simp] theorem mark_slot0Pages (k : DirtyLog) (page : Nat) :
    (k.mark page).slot0Pages = k.slot0Pages := rfl

end DirtyLog

structure DirtyPageTracker where
  totalPages : Nat
  memSize : Nat

namespace DirtyPageTracker

def new (memSize : Nat) : DirtyPageTracker := ⟨memSize / pageSize, memSize⟩

def getDirtyBitmap (t : DirtyPageTracker) (k : DirtyLog) : List UInt8 × DirtyLog :=
  let (bitmap, k') := k.getDirtyLog t.memSize
  let bitmapSize := (t.totalPages + 63) / 64 * 8
  let result := (bitmap.flatMap (leBytes 8)).take bitmapSize
  (result ++ List.replicate (bitmapSize - result.length) 0, k')

end DirtyPageTracker

def pageDirty (bitmap : List UInt8) (page : Nat) : Bool :=
  match bitmap[page / 8]? with
  | some b => b.toNat.testBit (page % 8)
  | none => false

def DirtyPageTracker.collectDirtyPages (t : DirtyPageTracker) (k : DirtyLog) (guestMem : ByteStore)
    (usableMemSize : Nat) : (List UInt8 × List UInt8) × DirtyLog :=
  let (bitmap, k') := t.getDirtyBitmap k
  let collectPages := min t.totalPages (usableMemSize / pageSize)
  let dirty := (List.range collectPages).filter (pageDirty bitmap)
  ((bitmap, dirty.flatMap fun page => readBytes guestMem (page * pageSize) pageSize), k')

theorem leBytes_testBit (v j : Nat) (hj : j < 64) :
    ((leBytes 8 v)[j / 8]?).map (fun b => b.toNat.testBit (j % 8)) = some (v.testBit j) := by
  rw [leBytes_getElem? 8 v (j / 8) (by omega), Option.map_some, UInt8.toNat_ofNat']
  rw [show (256 : Nat) = 2 ^ 8 from rfl, ← Nat.pow_mul]
  rw [Nat.testBit_mod_two_pow, Nat.testBit_div_two_pow]
  have hlt : j % 8 < 8 := Nat.mod_lt _ (by omega)
  have hsum : j % 8 + 8 * (j / 8) = j := by omega
  simp [hlt, hsum]

def markedBefore (bitmap : List UInt8) (page : Nat) : Nat := (List.range page).countP (pageDirty bitmap)

theorem markedBefore_succ (bitmap : List UInt8) (page : Nat) :
    markedBefore bitmap (page + 1) = markedBefore bitmap page + if pageDirty bitmap page then 1 else 0 := by
  simp only [markedBefore, List.range_succ, List.countP_append, List.countP_singleton]

theorem markedBefore_mono (bitmap : List UInt8) {p q : Nat} (h : p ≤ q) :
    markedBefore bitmap p ≤ markedBefore bitmap q :=
  List.Sublist.countP_le (List.range_sublist.mpr h)

theorem not_pageDirty_of_length_le {bitmap : List UInt8} {page : Nat} (h : bitmap.length ≤ page / 8) :
    pageDirty bitmap page = false := by
  rw [pageDirty, List.getElem?_eq_none h]

theorem pageDirty_words (words : List Nat) (p : Nat) (hp : p < 64 * words.length) :
    pageDirty (words.flatMap (leBytes 8)) p = (words[p / 64]?.getD 0).testBit (p % 64) := by
  have hw : p / 64 < words.length := by omega
  have hbit := leBytes_testBit (words[p / 64]) (p % 64) (by omega)
  rw [pageDirty, getElem?_flatMap_uniform (leBytes 8) 8 (by omega) (leBytes_length 8),
    Nat.div_div_eq_div_mul, List.getElem?_eq_getElem hw]
  have hdiv : p / 8 % 8 = p % 64 / 8 := by omega
  have hmod : p % 8 = p % 64 % 8 := by omega
  simp only [Option.bind_some, Option.getD_some, hdiv, hmod]
  cases hb : (leBytes 8 words[p / 64])[p % 64 / 8]? with
  | none => rw [hb] at hbit; cases hbit
  | some b => rw [hb] at hbit; exact Option.some.inj hbit

theorem pageDirty_append (xs ys : List UInt8) (p : Nat) (hp : p / 8 < xs.length) :
    pageDirty (xs ++ ys) p = pageDirty xs p := by
  simp only [pageDirty, List.getElem?_append_left hp]

theorem getDirtyLog_length (k : DirtyLog) (memorySize : Nat) :
    (k.getDirtyLog memorySize).1.length =
      (memorySize + (pageSize * 64 - 1)) / (pageSize * 64) := by
  simp [DirtyLog.getDirtyLog]

theorem getDirtyBitmap_fst (memSize : Nat) (k : DirtyLog) :
    ∃ padding, ((DirtyPageTracker.new memSize).getDirtyBitmap k).1 =
      ((k.getDirtyLog memSize).1.flatMap (leBytes 8)).take ((memSize / pageSize + 63) / 64 * 8) ++
        padding := by
  simp only [DirtyPageTracker.getDirtyBitmap, DirtyPageTracker.new]
  exact ⟨_, rfl⟩

theorem getDirtyLog_word (k : DirtyLog) (memorySize w : Nat)
    (hw : w < (memorySize + (pageSize * 64 - 1)) / (pageSize * 64)) :
    (k.getDirtyLog memorySize).1[w]? =
      some (Nat.ofBits fun b : Fin 64 => k.reported (64 * w + b)) := by
  simp [DirtyLog.getDirtyLog, hw]

theorem word_lt (memSize p : Nat) (hp : p < memSize / pageSize) :
    p / 64 < (memSize + (pageSize * 64 - 1)) / (pageSize * 64) := by
  simp only [pageSize] at *
  omega

theorem pageDirty_truncated (words : List Nat) (totalPages p : Nat) (padding : List UInt8)
    (hp : p < totalPages) (hw : p / 64 < words.length) :
    pageDirty ((words.flatMap (leBytes 8)).take ((totalPages + 63) / 64 * 8) ++ padding) p =
      pageDirty (words.flatMap (leBytes 8)) p := by
  have hbytes : (words.flatMap (leBytes 8)).length = words.length * 8 := by
    simp [List.length_flatMap]
  have htake : p / 8 < (totalPages + 63) / 64 * 8 := by omega
  rw [pageDirty_append _ _ p (by rw [List.length_take, hbytes]; omega)]
  simp only [pageDirty, List.getElem?_take_of_lt htake]

theorem getDirtyBitmap_pageDirty (memSize : Nat) (k : DirtyLog) (p : Nat)
    (hp : p < memSize / pageSize) :
    pageDirty ((DirtyPageTracker.new memSize).getDirtyBitmap k).1 p = k.reported p := by
  have hw := word_lt memSize p hp
  have hlen : p / 64 < (k.getDirtyLog memSize).1.length := by rwa [getDirtyLog_length]
  obtain ⟨padding, hfst⟩ := getDirtyBitmap_fst memSize k
  rw [hfst, pageDirty_truncated _ _ _ _ hp hlen, pageDirty_words _ _ (by omega),
    getDirtyLog_word k memSize (p / 64) hw, Option.getD_some, Nat.testBit_ofBits_lt _ _ (by omega)]
  simp only [Nat.div_add_mod]

theorem getDirtyBitmap_written (t : DirtyPageTracker) (k : DirtyLog) (p : Nat) :
    (t.getDirtyBitmap k).2.written p = (k.written p && !decide (p < k.slot0Pages)) := rfl

@[simp] theorem getDirtyBitmap_slot0Pages (t : DirtyPageTracker) (k : DirtyLog) :
    (t.getDirtyBitmap k).2.slot0Pages = k.slot0Pages := rfl

end CloneVmm.Memory
