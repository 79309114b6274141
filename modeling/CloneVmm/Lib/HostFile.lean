import CloneVmm.Lib.Bytes

namespace CloneVmm.Lib

structure HostFile where
  len : Nat
  data : ByteStore
  zero_beyond : ∀ i, len ≤ i → data i = 0

namespace HostFile

variable (f : HostFile)

theorem zero_beyond_empty : ∀ i, 0 ≤ i → (fun _ => 0 : ByteStore) i = 0 := fun _ _ => rfl

theorem zero_beyond_setLen (n : Nat) : ∀ i, n ≤ i → (if i < n then f.data i else 0) = 0 :=
  fun _ hi => if_neg (Nat.not_lt.mpr hi)

def writtenLen (off : Nat) (bs : List UInt8) : Nat := if bs = [] then f.len else max f.len (off + bs.length)

theorem zero_beyond_write (off : Nat) (bs : List UInt8) :
    ∀ i, f.writtenLen off bs ≤ i → writeBytes f.data off bs i = 0 := by
  intro i hi
  unfold writtenLen at hi
  split at hi
  · subst bs
    rw [writeBytes_nil]
    exact f.zero_beyond i hi
  · rw [writeBytes_above (by omega)]
    exact f.zero_beyond i (by omega)

def empty : HostFile := ⟨0, fun _ => 0, zero_beyond_empty⟩

def setLen (n : Nat) : HostFile := ⟨n, fun i => if i < n then f.data i else 0, f.zero_beyond_setLen n⟩

def write (off : Nat) (bs : List UInt8) : HostFile :=
  ⟨f.writtenLen off bs, writeBytes f.data off bs, f.zero_beyond_write off bs⟩

def readExact (off n : Nat) : Option (List UInt8) :=
  if n = 0 ∨ off + n ≤ f.len then some (readBytes f.data off n) else none

@[simp] theorem write_data (off : Nat) (bs : List UInt8) : (f.write off bs).data = writeBytes f.data off bs := rfl

theorem setLen_data {n : Nat} (h : f.len ≤ n) : (f.setLen n).data = f.data := by
  funext i
  by_cases hi : i < n
  · simp [setLen, hi]
  · simp [setLen, hi, f.zero_beyond i (by omega)]

theorem write_len {off : Nat} {bs : List UInt8} (h : off + bs.length ≤ f.len) : (f.write off bs).len = f.len := by
  simp only [write, writtenLen]
  split
  · rfl
  · omega

theorem len_le_write_len (off : Nat) (bs : List UInt8) : f.len ≤ (f.write off bs).len := by
  simp only [write, writtenLen]
  split
  · exact Nat.le_refl _
  · exact Nat.le_max_left _ _

theorem readExact_eq {off n : Nat} (h : off + n ≤ f.len) : f.readExact off n = some (readBytes f.data off n) :=
  if_pos (Or.inr h)

theorem readExact_congr {f f' : HostFile} {off n : Nat} {bs : List UInt8} (hlen : f.len ≤ f'.len)
    (hdata : ∀ i, off ≤ i → i < off + n → f'.data i = f.data i) (h : f.readExact off n = some bs) :
    f'.readExact off n = some bs := by
  unfold readExact at h ⊢
  split at h
  · rw [if_pos (by omega), readBytes_congr hdata]
    exact h
  · cases h

theorem write_of_readExact {off n : Nat} {bs : List UInt8} (h : f.readExact off n = some bs) : f.write off bs = f := by
  unfold readExact at h
  split at h
  · rename_i hin
    cases h
    have hlen : f.writtenLen off (readBytes f.data off n) = f.len := by
      unfold writtenLen
      split
      · rfl
      · rename_i hne
        have hpos : n ≠ 0 := by
          rintro rfl
          exact hne rfl
        rw [readBytes_length]
        omega
    obtain ⟨len, data, hzero⟩ := f
    simp only [write, mk.injEq]
    exact ⟨hlen, writeBytes_readBytes data off n⟩
  · cases h

end HostFile

end CloneVmm.Lib
