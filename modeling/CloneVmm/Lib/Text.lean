import Mathlib.Data.List.Infix
import Mathlib.Tactic.Common

namespace CloneVmm.Lib.Text

def isWhitespace (c : Char) : Bool :=
  let n := c.toNat
  (9 ≤ n && n ≤ 13) || n == 32 || n == 0x85 || n == 0xA0 || n == 0x1680 || (0x2000 ≤ n && n ≤ 0x200A)
    || n == 0x2028 || n == 0x2029 || n == 0x202F || n == 0x205F || n == 0x3000

def splitWhitespace (text : List Char) : List (List Char) := (text.splitOnP isWhitespace).filter (· != [])

section Overlap

variable {α : Type*} {pre pat rep : List α}

/-- No end of `rep` and no end of `pre` can begin the other. -/
structure Apart (pre rep : List α) : Prop where
  left : ∀ r ∈ pre.tails, r ≠ [] → ¬ r <+: rep ∧ ¬ rep <+: r
  right : ∀ r ∈ rep.tails, r ≠ [] → ¬ r <+: pre ∧ ¬ pre <+: r

theorem prefix_append_cons_iff {x : α} (hx : x ∉ pat) (u v : List α) : pat <+: u ++ x :: v ↔ pat <+: u := by
  refine ⟨fun h => ?_, fun h => h.trans (List.prefix_append u _)⟩
  induction u generalizing pat with
  | nil =>
    rcases List.prefix_cons_iff.mp h with rfl | ⟨t, rfl, -⟩
    · exact List.nil_prefix
    · exact absurd List.mem_cons_self hx
  | cons c u ih =>
    rcases List.prefix_cons_iff.mp h with rfl | ⟨t, rfl, ht⟩
    · exact List.nil_prefix
    · exact (List.prefix_cons_inj c).mpr (ih (fun hmem => hx (List.mem_cons_of_mem c hmem)) ht)

theorem append_cons_inj {x : α} {u u' v v' : List α} (hu : x ∉ u) (hu' : x ∉ u') (h : u ++ x :: v = u' ++ x :: v') :
    u = u' ∧ v = v' := by
  induction u generalizing u' with
  | nil =>
    cases u' with
    | nil => exact ⟨rfl, (List.cons.inj h).2⟩
    | cons c u' => exact absurd ((List.cons.inj h).1 ▸ List.mem_cons_self) hu'
  | cons c u ih =>
    cases u' with
    | nil => exact absurd ((List.cons.inj h).1.symm ▸ List.mem_cons_self) hu
    | cons c' u' =>
      obtain ⟨rfl, htail⟩ := List.cons.inj h
      rw [List.mem_cons, not_or] at hu hu'
      obtain ⟨rfl, hv⟩ := ih hu.2 hu'.2 htail
      exact ⟨rfl, hv⟩

theorem infix_append_cons_iff {x : α} (hx : x ∉ pat) (u v : List α) :
    pat <:+: u ++ x :: v ↔ pat <:+: u ∨ pat <:+: v := by
  induction u with
  | nil =>
    rw [List.nil_append, List.infix_cons_iff, List.infix_nil]
    refine or_congr_left ⟨fun h => ?_, fun h => by rw [h]; exact List.nil_prefix⟩
    rcases List.prefix_cons_iff.mp h with h | ⟨t, rfl, -⟩
    · exact h
    · exact absurd List.mem_cons_self hx
  | cons c u ih =>
    rw [List.cons_append, List.infix_cons_iff, ih, ← List.cons_append, prefix_append_cons_iff hx,
      List.infix_cons_iff, or_assoc]

theorem not_prefix_append {r rest : List α} (h : ¬ r <+: rep ∧ ¬ rep <+: r) : ¬ r <+: rep ++ rest := by
  intro hprefix
  rcases List.prefix_or_prefix_of_prefix hprefix (List.prefix_append rep rest) with hr | hr
  · exact h.1 hr
  · exact h.2 hr

theorem infix_of_append {pre rest : List α} (hright : ∀ r ∈ rep.tails, r ≠ [] → ¬ r <+: pre ∧ ¬ pre <+: r)
    (h : pre <:+: rep ++ rest) : pre <:+: rest := by
  induction rep with
  | nil => exact h
  | cons c rep ih =>
    rcases List.infix_cons_iff.mp h with h | h
    · have hself := hright _ ((List.mem_tails _ _).mpr List.suffix_rfl) (List.cons_ne_nil c rep)
      exact absurd h (not_prefix_append hself.symm)
    · refine ih (fun r hr => hright r ?_) h
      exact (List.mem_tails _ _).mpr (((List.mem_tails _ _).mp hr).trans (List.suffix_cons c rep))

end Overlap

variable {α : Type*} [DecidableEq α]

def stripPrefix (pre text : List α) : Option (List α) := if pre <+: text then some (text.drop pre.length) else none

def replaceFrom (pat rep : List α) : Nat → List α → List α
  | _, [] => []
  | k + 1, _ :: cs => replaceFrom pat rep k cs
  | 0, c :: cs =>
    if pat <+: c :: cs then rep ++ replaceFrom pat rep (pat.length - 1) cs else c :: replaceFrom pat rep 0 cs

def replace (pat rep text : List α) : List α := replaceFrom pat rep 0 text

theorem splitWhitespace_append (u v : List Char) :
    splitWhitespace (u ++ ' ' :: v) = splitWhitespace u ++ splitWhitespace v := by
  unfold splitWhitespace
  rw [List.splitOnP_append_cons u v (show isWhitespace ' ' = true by decide), List.filter_append]

theorem splitWhitespace_word {w : List Char} (hne : w ≠ []) (h : ∀ c ∈ w, isWhitespace c = false) :
    splitWhitespace w = [w] := by
  rw [splitWhitespace, List.splitOnP_eq_singleton h]
  simp [hne]

theorem infix_of_mem_splitOnP {p : Char → Bool} {text w : List Char} (h : w ∈ text.splitOnP p) :
    w <:+: text ∧ ((text.splitOnP p).head? = some w → w <+: text) := by
  induction text generalizing w with
  | nil =>
    rw [List.splitOnP_nil] at h
    rw [List.mem_singleton.mp h]
    exact ⟨List.infix_rfl, fun _ => List.prefix_rfl⟩
  | cons c cs ih =>
    rw [List.splitOnP_cons_eq_if_modifyHead] at h ⊢
    split at h
    · next hc =>
      rw [if_pos hc]
      rcases List.mem_cons.mp h with rfl | h
      · exact ⟨List.nil_infix, fun _ => List.nil_prefix⟩
      · refine ⟨List.infix_cons (ih h).1, fun hhead => ?_⟩
        rw [← Option.some.inj hhead]
        exact List.nil_prefix
    · next hc =>
      rw [if_neg hc]
      obtain ⟨first, rest, hsplit⟩ := List.exists_cons_of_ne_nil (List.splitOnP_ne_nil p cs)
      rw [hsplit] at ih h ⊢
      rw [List.modifyHead_cons] at h ⊢
      have hfirst : c :: first <+: c :: cs := (List.prefix_cons_inj c).mpr ((ih List.mem_cons_self).2 rfl)
      rcases List.mem_cons.mp h with rfl | h
      · exact ⟨hfirst.isInfix, fun _ => hfirst⟩
      · refine ⟨List.infix_cons (ih (List.mem_cons_of_mem _ h)).1, fun hhead => ?_⟩
        rw [← Option.some.inj hhead]
        exact hfirst

theorem infix_of_mem_splitWhitespace {text w : List Char} (h : w ∈ splitWhitespace text) : w <:+: text :=
  (infix_of_mem_splitOnP (List.mem_of_mem_filter h)).1

theorem stripPrefix_append (pre text : List α) : stripPrefix pre (pre ++ text) = some text := by
  rw [stripPrefix, if_pos (List.prefix_append pre text), List.drop_left]

theorem stripPrefix_eq_none {pre text : List α} (h : ¬ pre <+: text) : stripPrefix pre text = none := if_neg h

section Replace

variable {pat rep : List α}

theorem replaceFrom_of_notMem {x : α} {text : List α} (hx : x ∈ pat) (htext : x ∉ text) :
    replaceFrom pat rep 0 text = text := by
  induction text with
  | nil => rfl
  | cons c cs ih =>
    have hpat : ¬ pat <+: c :: cs := fun h => htext (h.subset hx)
    rw [replaceFrom, if_neg hpat, ih fun h => htext (List.mem_cons_of_mem c h)]

theorem replaceFrom_append {x : α} (hx : x ∉ pat) (hne : pat ≠ []) (u v : List α) {k : Nat} (hk : k ≤ u.length) :
    replaceFrom pat rep k (u ++ x :: v) = replaceFrom pat rep k u ++ x :: replaceFrom pat rep 0 v := by
  induction u generalizing k with
  | nil =>
    have hk0 : k = 0 := Nat.le_zero.mp hk
    subst hk0
    have hpat : ¬ pat <+: x :: v := by
      intro h
      rcases List.prefix_cons_iff.mp h with rfl | ⟨t, rfl, -⟩
      · exact hne rfl
      · exact hx List.mem_cons_self
    rw [List.nil_append, replaceFrom, replaceFrom, if_neg hpat, List.nil_append]
  | cons c u ih =>
    cases k with
    | succ k => exact ih (Nat.le_of_succ_le_succ hk)
    | zero =>
      have hiff := prefix_append_cons_iff hx (c :: u) v
      rw [List.cons_append] at hiff ⊢
      rw [replaceFrom, replaceFrom]
      by_cases hpat : pat <+: c :: u
      · have hlength := hpat.length_le
        rw [List.length_cons] at hlength
        rw [if_pos hpat, if_pos (hiff.mpr hpat), ih (by omega), List.append_assoc]
      · rw [if_neg hpat, if_neg fun h => hpat (hiff.mp h), ih (Nat.zero_le _), List.cons_append]

theorem prefix_of_replaceFrom {r text : List α} (hleft : ∀ t ∈ r.tails, t ≠ [] → ¬ t <+: rep ∧ ¬ rep <+: t)
    (h : r <+: replaceFrom pat rep 0 text) : r <+: text := by
  induction r generalizing text with
  | nil => exact List.nil_prefix
  | cons c r ih =>
    cases text with
    | nil => exact h
    | cons c' text =>
      rw [replaceFrom] at h
      split at h
      · exact absurd h (not_prefix_append (hleft _ ((List.mem_tails _ _).mpr List.suffix_rfl) (List.cons_ne_nil _ _)))
      · obtain ⟨rfl, htail⟩ := List.cons_prefix_cons.mp h
        refine (List.prefix_cons_inj c).mpr (ih (fun t ht => hleft t ?_) htail)
        exact (List.mem_tails _ _).mpr (((List.mem_tails _ _).mp ht).trans (List.suffix_cons c r))

theorem infix_of_replaceFrom {pre : List α} (hapart : Apart pre rep) {k : Nat} {text : List α}
    (h : pre <:+: replaceFrom pat rep k text) : pre <:+: text := by
  induction text generalizing k with
  | nil =>
    cases k <;> exact h
  | cons c text ih =>
    cases k with
    | succ k => exact List.infix_cons (ih h)
    | zero =>
      rw [replaceFrom] at h
      split at h
      · exact List.infix_cons (ih (infix_of_append hapart.right h))
      · next hpat =>
        rcases List.infix_cons_iff.mp h with hstart | h
        · have htext : pre <+: replaceFrom pat rep 0 (c :: text) := by
            rwa [replaceFrom, if_neg hpat]
          exact (prefix_of_replaceFrom hapart.left htext).isInfix
        · exact List.infix_cons (ih h)

end Replace

section Digits

variable {b n : Nat}

theorem mem_toDigits (hb : 1 < b) : ∀ c ∈ Nat.toDigits b n, ∃ d < b, c = Nat.digitChar d := by
  induction n using Nat.strong_induction_on with
  | h n ih =>
    intro c hc
    by_cases hn : n < b
    · rw [Nat.toDigits_of_lt_base hn, List.mem_singleton] at hc
      exact ⟨n, hn, hc⟩
    · rw [Nat.toDigits_of_base_le hb (by omega), List.mem_append, List.mem_singleton] at hc
      rcases hc with hc | hc
      · exact ih (n / b) (Nat.div_lt_self (by omega) hb) c hc
      · exact ⟨n % b, Nat.mod_lt _ (by omega), hc⟩

theorem mem_padded (hb : 1 < b) (k : Nat) :
    ∀ c ∈ List.replicate k '0' ++ Nat.toDigits b n, ∃ d < b, c = Nat.digitChar d := by
  intro c hc
  rcases List.mem_append.mp hc with hc | hc
  · exact ⟨0, by omega, List.eq_of_mem_replicate hc⟩
  · exact mem_toDigits hb c hc

theorem foldlM_toDigits {push : Nat → Char → Option Nat} (hb : 1 < b)
    (hpush : ∀ m d, d < b → b * m + d ≤ n → push m (Nat.digitChar d) = some (b * m + d)) :
    (Nat.toDigits b n).foldlM push 0 = some n := by
  induction n using Nat.strong_induction_on with
  | h n ih =>
    by_cases hn : n < b
    · have hdigit := hpush 0 n hn (by omega)
      rw [Nat.mul_zero, Nat.zero_add] at hdigit
      rw [Nat.toDigits_of_lt_base hn, List.foldlM_cons, hdigit]
      rfl
    · have hvalue : b * (n / b) + n % b = n := Nat.div_add_mod n b
      have hlt : n / b < n := Nat.div_lt_self (by omega) hb
      have hdigit := hpush (n / b) (n % b) (Nat.mod_lt _ (by omega)) hvalue.le
      have hfront := ih (n / b) hlt fun m d hd hle => hpush m d hd (by omega)
      rw [hvalue] at hdigit
      rw [Nat.toDigits_of_base_le hb (by omega), List.foldlM_append, hfront]
      simp [hdigit]

theorem foldlM_padded {push : Nat → Char → Option Nat} (hb : 1 < b) (k : Nat)
    (hpush : ∀ m d, d < b → b * m + d ≤ n → push m (Nat.digitChar d) = some (b * m + d)) :
    (List.replicate k '0' ++ Nat.toDigits b n).foldlM push 0 = some n := by
  have hzero : push 0 '0' = some 0 := hpush 0 0 (by omega) (Nat.zero_le n)
  have hzeros : (List.replicate k '0').foldlM push 0 = some 0 := by
    induction k with
    | zero => rfl
    | succ k ih =>
      rw [List.replicate_succ, List.foldlM_cons, hzero]
      exact ih
  rw [List.foldlM_append, hzeros]
  exact foldlM_toDigits hb hpush

end Digits

end CloneVmm.Lib.Text
