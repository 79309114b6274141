import Mathlib.Tactic.Common
import Mathlib.Order.Basic
import Mathlib.Logic.Equiv.Basic
import CloneVmm.Lib.Bytes

namespace CloneVmm.Lib

variable {ι κ : Type*} {size len : Nat} {place : ι → Option Nat}

structure Placed (size len : Nat) (place : ι → Option Nat) : Prop where
  aligned : ∀ {o off}, place o = some off → size ∣ off
  inside : ∀ {o off}, place o = some off → off + size ≤ len
  unique : ∀ {o o' off}, place o = some off → place o' = some off → o = o'

theorem apart_of_dvd {size off off' : Nat} (h : size ∣ off) (h' : size ∣ off') (hne : off ≠ off') :
    off + size ≤ off' ∨ off' + size ≤ off := by
  obtain ⟨k, rfl⟩ := h
  obtain ⟨k', rfl⟩ := h'
  rcases Nat.lt_trichotomy k k' with hlt | rfl | hlt
  · left
    calc size * k + size = size * (k + 1) := by ring
      _ ≤ size * k' := Nat.mul_le_mul_left size hlt
  · exact absurd rfl hne
  · right
    calc size * k' + size = size * (k' + 1) := by ring
      _ ≤ size * k := Nat.mul_le_mul_left size hlt

theorem div_mod_add (size pos k : Nat) (h : pos % size + k < size) :
    (pos + k) / size = pos / size ∧ (pos + k) % size = pos % size + k := by
  have hsplit : pos + k = pos % size + k + size * (pos / size) := by
    have := Nat.div_add_mod pos size
    omega
  rw [hsplit, Nat.add_mul_div_left _ _ (by omega), Nat.add_mul_mod_self_left, Nat.div_eq_of_lt h, Nat.mod_eq_of_lt h,
    Nat.zero_add]
  exact ⟨rfl, rfl⟩

theorem exists_row_index {size off p n : Nat} (hsize : 0 < size) (hlo : off ≤ p) (hhi : p < off + n * size) :
    ∃ i < n, ∃ k < size, p = off + i * size + k := by
  have hlt : (p - off) / size < n := Nat.div_lt_of_lt_mul (by rw [Nat.mul_comm]; omega)
  refine ⟨(p - off) / size, hlt, (p - off) % size, Nat.mod_lt _ hsize, ?_⟩
  have := Nat.div_add_mod' (p - off) size
  omega

namespace Placed

theorem apart (h : Placed size len place) {o o' : ι} {off off' : Nat} (ho : place o = some off)
    (ho' : place o' = some off') (hne : o ≠ o') : off + size ≤ off' ∨ off' + size ≤ off := by
  apply apart_of_dvd (h.aligned ho) (h.aligned ho')
  rintro rfl
  exact hne (h.unique ho ho')

theorem mono (h : Placed size len place) {len' : Nat} (hlen : len ≤ len') : Placed size len' place :=
  ⟨h.aligned, fun ho => (h.inside ho).trans hlen, h.unique⟩

theorem of_embedding (h : Placed size len place) {place' : κ → Option Nat} (φ : κ → ι)
    (hφ : Function.Injective φ) (hplace : ∀ o off, place' o = some off → place (φ o) = some off) :
    Placed size len place' where
  aligned ho := h.aligned (hplace _ _ ho)
  inside ho := h.inside (hplace _ _ ho)
  unique ho ho' := hφ (h.unique (hplace _ _ ho) (hplace _ _ ho'))

theorem of_slot {slot : ι → Option Nat} {n : Nat} (hsize : 0 < size) (hlen : n * size ≤ len)
    (hlt : ∀ o k, slot o = some k → k < n) (hinj : ∀ o o' k, slot o = some k → slot o' = some k → o = o')
    (hplace : ∀ o off, place o = some off → ∃ k, slot o = some k ∧ off = k * size) : Placed size len place where
  aligned {o off} ho := by
    obtain ⟨k, -, rfl⟩ := hplace o off ho
    exact Nat.dvd_mul_left _ _
  inside {o off} ho := by
    obtain ⟨k, hk, rfl⟩ := hplace o off ho
    calc k * size + size = (k + 1) * size := by ring
      _ ≤ n * size := Nat.mul_le_mul_right size (hlt o k hk)
      _ ≤ len := hlen
  unique {o o' off} ho ho' := by
    obtain ⟨k, hk, rfl⟩ := hplace o off ho
    obtain ⟨k', hk', heq⟩ := hplace o' _ ho'
    obtain rfl := Nat.eq_of_mul_eq_mul_right hsize heq
    exact hinj o o' k hk hk'

theorem hand [DecidableEq ι] (h : Placed size len place) {place' : ι → Option Nat} {o r : ι}
    (ho : place' o = place r) (hr : place' r = none) (hother : ∀ o', o' ≠ o → o' ≠ r → place' o' = place o') :
    Placed size len place' := by
  apply h.of_embedding (Equiv.swap o r) (Equiv.swap o r).injective
  intro o' off hoff
  by_cases ho' : o' = o
  · subst ho'
    rw [Equiv.swap_apply_left, ← ho]
    exact hoff
  · have hr' : o' ≠ r := by
      rintro rfl
      rw [hr] at hoff
      cases hoff
    rw [Equiv.swap_apply_of_ne_of_ne ho' hr', ← hother o' ho' hr']
    exact hoff

theorem append (h : Placed size len place) {place' : ι → Option Nat} {N : ι → Prop} {len' : Nat} (hsize : 0 < size)
    (hlen : len ≤ len') (hold : ∀ o, ¬ N o → place' o = place o)
    (hnew : ∀ o off, N o → place' o = some off → size ∣ off ∧ len ≤ off ∧ off + size ≤ len')
    (hunique : ∀ o o' off, N o → N o' → place' o = some off → place' o' = some off → o = o') :
    Placed size len' place' where
  aligned {o off} ho := by
    by_cases hn : N o
    · exact (hnew o off hn ho).1
    · rw [hold o hn] at ho
      exact h.aligned ho
  inside {o off} ho := by
    by_cases hn : N o
    · exact (hnew o off hn ho).2.2
    · rw [hold o hn] at ho
      exact (h.inside ho).trans hlen
  unique {o o' off} ho ho' := by
    have hbehind : ∀ o o', N o → ¬ N o' → place' o = some off → place' o' ≠ some off := by
      intro o o' hn hn' ho ho'
      rw [hold o' hn'] at ho'
      have := h.inside ho'
      have := (hnew o off hn ho).2.1
      omega
    by_cases hn : N o
    · by_cases hn' : N o'
      · exact hunique o o' off hn hn' ho ho'
      · exact absurd ho' (hbehind o o' hn hn' ho)
    · by_cases hn' : N o'
      · exact absurd ho (hbehind o' o hn' hn ho')
      · rw [hold o hn] at ho
        rw [hold o' hn'] at ho'
        exact h.unique ho ho'

theorem writeBytes_frame (h : Placed size len place) {P : ι → Prop} {m : ByteStore} {pos : Nat} {bs : List UInt8}
    (hregion : ∀ p, pos ≤ p → p < pos + bs.length → ∃ o off, P o ∧ place o = some off ∧ off ≤ p ∧ p < off + size)
    {o : ι} {off k : Nat} (ho : place o = some off) (hP : ¬ P o) (hk : k < size) :
    writeBytes m pos bs (off + k) = m (off + k) := by
  apply writeBytes_outside
  by_contra hin
  obtain ⟨o', off', hPo, ho', hlo, hhi⟩ := hregion (off + k) (by omega) (by omega)
  have hne : o ≠ o' := by
    rintro rfl
    exact hP hPo
  rcases h.apart ho ho' hne with hle | hle
  · omega
  · omega

end Placed

end CloneVmm.Lib
