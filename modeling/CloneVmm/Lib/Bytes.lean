import Mathlib.Data.List.Basic
import Mathlib.Tactic.Ring

namespace CloneVmm.Lib

abbrev ByteStore := Nat → UInt8

def readBytes (m : ByteStore) (off n : Nat) : List UInt8 :=
  (List.range n).map fun i => m (off + i)

def writeBytes (m : ByteStore) (off : Nat) (bs : List UInt8) : ByteStore :=
  fun i => if off ≤ i then (bs[i - off]?).getD (m i) else m i

@[simp] theorem readBytes_length (m : ByteStore) (off n : Nat) : (readBytes m off n).length = n := by
  simp [readBytes]

theorem readBytes_getElem? (m : ByteStore) (off n i : Nat) (hi : i < n) :
    (readBytes m off n)[i]? = some (m (off + i)) := by
  simp [readBytes, hi]

theorem readBytes_eq_of_getElem? {m : ByteStore} {off : Nat} {bs : List UInt8}
    (h : ∀ k < bs.length, bs[k]? = some (m (off + k))) : readBytes m off bs.length = bs := by
  apply List.ext_getElem?
  intro k
  rcases Nat.lt_or_ge k bs.length with hk | hk
  · rw [readBytes_getElem? _ _ _ _ hk, h k hk]
  · rw [List.getElem?_eq_none (by rwa [readBytes_length]), List.getElem?_eq_none hk]

theorem readBytes_congr {m m' : ByteStore} {off n : Nat}
    (h : ∀ i, off ≤ i → i < off + n → m i = m' i) : readBytes m off n = readBytes m' off n := by
  apply List.map_congr_left
  intro i hi
  rw [List.mem_range] at hi
  exact h _ (by omega) (by omega)

@[simp] theorem writeBytes_nil (m : ByteStore) (off : Nat) : writeBytes m off [] = m := by
  funext i
  simp [writeBytes]

theorem writeBytes_below {m : ByteStore} {off i : Nat} (bs : List UInt8) (h : i < off) :
    writeBytes m off bs i = m i := by
  simp [writeBytes, Nat.not_le.mpr h]

theorem writeBytes_above {m : ByteStore} {off i : Nat} {bs : List UInt8} (h : off + bs.length ≤ i) :
    writeBytes m off bs i = m i := by
  have hn : bs[i - off]? = none := List.getElem?_eq_none (by omega)
  simp [writeBytes, hn]

theorem writeBytes_outside {m : ByteStore} {off i : Nat} {bs : List UInt8}
    (h : i < off ∨ off + bs.length ≤ i) : writeBytes m off bs i = m i :=
  h.elim (writeBytes_below bs) writeBytes_above

theorem writeBytes_inside {m : ByteStore} {off i : Nat} {bs : List UInt8}
    (hi : i < bs.length) : writeBytes m off bs (off + i) = bs[i] := by
  simp [writeBytes, hi]

theorem writeBytes_congr {m m' : ByteStore} {off : Nat} {bs : List UInt8}
    (h : ∀ i, i < off ∨ off + bs.length ≤ i → m i = m' i) : writeBytes m off bs = writeBytes m' off bs := by
  funext i
  by_cases hi : i < off ∨ off + bs.length ≤ i
  · rw [writeBytes_outside hi, writeBytes_outside hi, h i hi]
  · obtain ⟨k, rfl⟩ := Nat.exists_eq_add_of_le (show off ≤ i by omega)
    rw [writeBytes_inside (by omega), writeBytes_inside (by omega)]

theorem readBytes_writeBytes (m : ByteStore) (off : Nat) (bs : List UInt8) :
    readBytes (writeBytes m off bs) off bs.length = bs := by
  apply List.ext_getElem (by simp)
  intro i _ hi
  simp only [readBytes, List.getElem_map, List.getElem_range]
  exact writeBytes_inside hi

theorem writeBytes_readBytes (m : ByteStore) (off n : Nat) : writeBytes m off (readBytes m off n) = m := by
  funext i
  by_cases hi : off ≤ i ∧ i < off + n
  · rw [writeBytes, if_pos hi.1, readBytes_getElem? _ _ _ _ (by omega), Nat.add_sub_cancel' hi.1]
    rfl
  · exact writeBytes_outside (by rw [readBytes_length]; omega)

theorem readBytes_writeBytes_disjoint (m : ByteStore) (off n off' : Nat) (bs : List UInt8)
    (h : off + n ≤ off' ∨ off' + bs.length ≤ off) :
    readBytes (writeBytes m off' bs) off n = readBytes m off n :=
  readBytes_congr fun i _ _ => writeBytes_outside (by omega)

theorem readBytes_take (m : ByteStore) (off n k : Nat) (h : k ≤ n) :
    (readBytes m off n).take k = readBytes m off k := by
  simp [readBytes, ← List.map_take, List.take_range, Nat.min_eq_left h]

theorem readBytes_append (m : ByteStore) (off n k : Nat) :
    readBytes m off (n + k) = readBytes m off n ++ readBytes m (off + n) k := by
  simp only [readBytes, List.range_add, List.map_append, List.map_map]
  congr 1
  apply List.map_congr_left
  intro i _
  simp [Nat.add_assoc]

theorem writeBytes_append (m : ByteStore) (off : Nat) (bs bs' : List UInt8) :
    writeBytes m off (bs ++ bs') = writeBytes (writeBytes m off bs) (off + bs.length) bs' := by
  funext i
  by_cases hlo : off ≤ i
  · obtain ⟨k, rfl⟩ := Nat.exists_eq_add_of_le hlo
    by_cases hk : k < bs.length
    · rw [writeBytes_below bs' (by omega), writeBytes_inside hk,
        writeBytes_inside (by rw [List.length_append]; omega), List.getElem_append_left hk]
    · simp only [writeBytes, if_pos hlo, if_pos (show off + bs.length ≤ off + k by omega),
        List.getElem?_append_right (show bs.length ≤ off + k - off by omega),
        List.getElem?_eq_none (show bs.length ≤ off + k - off by omega), Nat.sub_sub, Option.getD_none]
  · rw [writeBytes_below _ (by omega), writeBytes_below _ (by omega), writeBytes_below _ (by omega)]

theorem writeBytes_snoc (m : ByteStore) (off : Nat) (bs : List UInt8) (b : UInt8) (a : Nat) :
    writeBytes m off (bs ++ [b]) a = if a = off + bs.length then b else writeBytes m off bs a := by
  rcases Nat.lt_trichotomy a (off + bs.length) with h | h | h
  · rw [if_neg (by omega)]
    rcases Nat.lt_or_ge a off with hlo | hlo
    · rw [writeBytes_below _ hlo, writeBytes_below _ hlo]
    · obtain ⟨i, rfl⟩ := Nat.exists_eq_add_of_le hlo
      have hi : i < bs.length := by omega
      rw [writeBytes_inside (by simp; omega), writeBytes_inside hi, List.getElem_append_left hi]
  · subst h
    rw [if_pos rfl, writeBytes_inside (by simp)]
    simp
  · rw [if_neg (by omega), writeBytes_above (by simp; omega), writeBytes_above (by omega)]

theorem writeBytes_single (m : ByteStore) (addr : Nat) (v : UInt8) (a : Nat) :
    writeBytes m addr [v] a = if a = addr then v else m a := by
  simpa using writeBytes_snoc m addr [] v a

def leBytes : Nat → Nat → List UInt8
  | 0, _ => []
  | w + 1, v => UInt8.ofNat v :: leBytes w (v / 256)

def leNat : List UInt8 → Nat
  | [] => 0
  | b :: bs => b.toNat + 256 * leNat bs

def beBytes (w v : Nat) : List UInt8 := (leBytes w v).reverse

def beNat (bs : List UInt8) : Nat := leNat bs.reverse

@[simp] theorem leBytes_length (w v : Nat) : (leBytes w v).length = w := by
  induction w generalizing v with
  | zero => rfl
  | succ w ih => simp [leBytes, ih]

@[simp] theorem beBytes_length (w v : Nat) : (beBytes w v).length = w := by
  simp [beBytes]

theorem leNat_leBytes (w v : Nat) : leNat (leBytes w v) = v % 256 ^ w := by
  induction w generalizing v with
  | zero => simp [leBytes, leNat, Nat.mod_one]
  | succ w ih =>
    simp only [leBytes, leNat, ih, UInt8.toNat_ofNat']
    rw [show 256 ^ (w + 1) = 256 * 256 ^ w from Nat.pow_succ', Nat.mod_mul]

theorem leNat_lt (bs : List UInt8) : leNat bs < 256 ^ bs.length := by
  induction bs with
  | nil => simp [leNat]
  | cons b bs ih =>
    have hb := b.toNat_lt
    simp only [leNat, List.length_cons, Nat.pow_succ']
    omega

theorem leBytes_leNat (bs : List UInt8) : leBytes bs.length (leNat bs) = bs := by
  induction bs with
  | nil => rfl
  | cons b bs ih =>
    have hb := b.toNat_lt
    have hd : (b.toNat + 256 * leNat bs) / 256 = leNat bs := by omega
    have hm : UInt8.ofNat (b.toNat + 256 * leNat bs) = b := by
      apply UInt8.toNat_inj.mp
      rw [UInt8.toNat_ofNat']
      omega
    simp only [List.length_cons, leBytes, leNat, hd, hm, ih]

theorem beNat_beBytes (w v : Nat) : beNat (beBytes w v) = v % 256 ^ w := by
  simp [beNat, beBytes, leNat_leBytes]

theorem beNat_lt (bs : List UInt8) : beNat bs < 256 ^ bs.length := by
  simpa [beNat] using leNat_lt bs.reverse

theorem beBytes_beNat (bs : List UInt8) : beBytes bs.length (beNat bs) = bs := by
  have h := leBytes_leNat bs.reverse
  rw [List.length_reverse] at h
  rw [beBytes, beNat, h, List.reverse_reverse]

theorem leBytes_getElem? (w v j : Nat) (hj : j < w) :
    (leBytes w v)[j]? = some (UInt8.ofNat (v / 256 ^ j)) := by
  induction w generalizing v j with
  | zero => omega
  | succ w ih =>
    cases j with
    | zero => simp [leBytes]
    | succ j =>
      simp only [leBytes, List.getElem?_cons_succ]
      rw [ih (v / 256) j (by omega), Nat.div_div_eq_div_mul, ← Nat.pow_succ']

theorem leBytes_add (w w' v : Nat) : leBytes (w + w') v = leBytes w v ++ leBytes w' (v / 256 ^ w) := by
  induction w generalizing v with
  | zero => simp [leBytes]
  | succ w ih =>
    rw [Nat.succ_add, leBytes, leBytes, ih, Nat.div_div_eq_div_mul, ← Nat.pow_succ', List.cons_append]

theorem beBytes_add (w w' v : Nat) : beBytes (w + w') v = beBytes w' (v / 256 ^ w) ++ beBytes w v := by
  rw [beBytes, leBytes_add, List.reverse_append, beBytes, beBytes]

theorem leBytes_mod (w v : Nat) : leBytes w (v % 256 ^ w) = leBytes w v := by
  rw [← leNat_leBytes]
  nth_rewrite 1 [← leBytes_length w v]
  exact leBytes_leNat _

theorem beBytes_mod (w v : Nat) : beBytes w (v % 256 ^ w) = beBytes w v := by
  rw [beBytes, leBytes_mod, beBytes]

theorem getElem?_flatMap_uniform {α β : Type*} (f : α → List β) (n : Nat) (hn : 0 < n)
    (hf : ∀ a, (f a).length = n) (xs : List α) (i : Nat) :
    (xs.flatMap f)[i]? = (xs[i / n]?).bind fun a => (f a)[i % n]? := by
  induction xs generalizing i with
  | nil => simp
  | cons x xs ih =>
    rw [List.flatMap_cons]
    by_cases hi : i < n
    · rw [List.getElem?_append_left (by rw [hf]; exact hi), Nat.div_eq_of_lt hi, Nat.mod_eq_of_lt hi]
      simp
    · have hsplit : i / n = (i - n) / n + 1 := by
        rw [Nat.div_eq_sub_div hn (by omega)]
      have hmod : i % n = (i - n) % n := Nat.mod_eq_sub_mod (by omega)
      rw [List.getElem?_append_right (by rw [hf]; omega), hf, ih, hsplit, hmod]
      simp

end CloneVmm.Lib
