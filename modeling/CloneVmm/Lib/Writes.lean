import CloneVmm.Lib.Bytes

namespace CloneVmm.Lib

structure Span where
  base : Nat
  size : Nat
  deriving DecidableEq

namespace Span

def Covers (s : Span) (p : Nat) : Prop := s.base ≤ p ∧ p < s.base + s.size

def Apart (s t : Span) : Prop := ∀ p, s.Covers p → ¬ t.Covers p

def Within (s t : Span) : Prop := t.base ≤ s.base ∧ s.base + s.size ≤ t.base + t.size

instance (s : Span) (p : Nat) : Decidable (s.Covers p) := inferInstanceAs (Decidable (_ ∧ _))

instance (s t : Span) : Decidable (s.Within t) := inferInstanceAs (Decidable (_ ∧ _))

theorem Apart.symm {s t : Span} (h : s.Apart t) : t.Apart s := fun p ht hs => h p hs ht

theorem Apart.of_within {s s' t : Span} (h : s.Apart t) (hs : s'.Within s) : s'.Apart t := by
  intro p hp
  exact h p ⟨hs.1.trans hp.1, hp.2.trans_le hs.2⟩

theorem apart_of_le {s t : Span} (h : s.base + s.size ≤ t.base) : s.Apart t := by
  intro p hs ht
  have hlt := hs.2
  have hle := ht.1
  omega

theorem apart_of_or {s t : Span} (h : s.base + s.size ≤ t.base ∨ t.base + t.size ≤ s.base) : s.Apart t := by
  rcases h with hle | hle
  · exact apart_of_le hle
  · exact (apart_of_le hle).symm

theorem apart_iff {s t : Span} (hs : 0 < s.size) (ht : 0 < t.size) :
    s.Apart t ↔ s.base + s.size ≤ t.base ∨ t.base + t.size ≤ s.base := by
  refine ⟨fun h => ?_, apart_of_or⟩
  by_contra hmeet
  exact h (max s.base t.base) ⟨Nat.le_max_left _ _, by omega⟩ ⟨Nat.le_max_right _ _, by omega⟩

end Span

structure Write where
  offset : Nat
  data : List UInt8

namespace Write

def span (w : Write) : Span := ⟨w.offset, w.data.length⟩

def Covers (w : Write) (p : Nat) : Prop := w.span.Covers p

def apply (m : ByteStore) (w : Write) : ByteStore := writeBytes m w.offset w.data

theorem apply_outside {w : Write} {p : Nat} (m : ByteStore) (h : ¬ w.Covers p) : w.apply m p = m p := by
  apply writeBytes_outside
  simp only [Covers, span, Span.Covers] at h
  omega

theorem apply_inside {w : Write} {p : Nat} (m m' : ByteStore) (h : w.Covers p) : w.apply m p = w.apply m' p := by
  obtain ⟨i, rfl⟩ := Nat.exists_eq_add_of_le (show w.offset ≤ p from h.1)
  have hi : i < w.data.length := Nat.lt_of_add_lt_add_left h.2
  rw [apply, apply, writeBytes_inside hi, writeBytes_inside hi]

end Write

variable {ι : Type*}

def applyAll (m : ByteStore) (ws : List (ι × Write)) : ByteStore := ws.foldl (fun m w => w.2.apply m) m

def Writes (ws : List (ι × Write)) (o : ι) (p : Nat) : Prop := ∃ w, (o, w) ∈ ws ∧ w.Covers p

theorem applyAll_cons (m : ByteStore) (w : ι × Write) (ws : List (ι × Write)) :
    applyAll m (w :: ws) = applyAll (w.2.apply m) ws := rfl

theorem applyAll_append (m : ByteStore) (ws ws' : List (ι × Write)) :
    applyAll m (ws ++ ws') = applyAll (applyAll m ws) ws' :=
  List.foldl_append

theorem applyAll_own [DecidableEq ι] {ws : List (ι × Write)} {o : ι} {p : Nat} (h : ∀ o', o' ≠ o → ¬ Writes ws o' p) :
    ∀ m m' : ByteStore, m p = m' p ∨ Writes ws o p →
      applyAll m ws p = applyAll m' (ws.filter fun w => decide (w.1 = o)) p := by
  induction ws with
  | nil =>
    rintro m m' (heq | ⟨w, hmem, -⟩)
    · exact heq
    · cases hmem
  | cons w ws ih =>
    have htail : ∀ o', o' ≠ o → ¬ Writes ws o' p := by
      rintro o' hne ⟨w', hmem, hw⟩
      exact h o' hne ⟨w', List.mem_cons_of_mem _ hmem, hw⟩
    intro m m' hp
    by_cases hown : w.1 = o
    · rw [List.filter_cons_of_pos (by simpa using hown), applyAll_cons, applyAll_cons]
      apply ih htail
      by_cases hw : w.2.Covers p
      · exact .inl (Write.apply_inside m m' hw)
      · rw [Write.apply_outside m hw, Write.apply_outside m' hw]
        rcases hp with heq | ⟨w', hmem, hw'⟩
        · exact .inl heq
        · rcases List.mem_cons.mp hmem with rfl | hmem
          · exact absurd hw' hw
          · exact .inr ⟨w', hmem, hw'⟩
    · have hw : ¬ w.2.Covers p := fun hw => h w.1 hown ⟨w.2, List.mem_cons_self, hw⟩
      rw [List.filter_cons_of_neg (by simpa using hown), applyAll_cons]
      apply ih htail
      rw [Write.apply_outside m hw]
      rcases hp with heq | ⟨w', hmem, hw'⟩
      · exact .inl heq
      · rcases List.mem_cons.mp hmem with heq | hmem
        · exact absurd (congrArg Prod.fst heq).symm hown
        · exact .inr ⟨w', hmem, hw'⟩

theorem applyAll_value {ws : List (ι × Write)} {p : Nat} {v : UInt8}
    (h : ∀ w ∈ ws, w.2.Covers p → ∀ m, w.2.apply m p = v) :
    ∀ m : ByteStore, m p = v ∨ (∃ o, Writes ws o p) → applyAll m ws p = v := by
  induction ws with
  | nil =>
    rintro m (heq | ⟨o, w, hmem, -⟩)
    · exact heq
    · cases hmem
  | cons w ws ih =>
    obtain ⟨hhead, htail⟩ := List.forall_mem_cons.mp h
    intro m hp
    rw [applyAll_cons]
    apply ih htail
    by_cases hw : w.2.Covers p
    · exact .inl (hhead hw m)
    · rw [Write.apply_outside m hw]
      rcases hp with heq | ⟨o, w', hmem, hw'⟩
      · exact .inl heq
      · rcases List.mem_cons.mp hmem with rfl | hmem
        · exact absurd hw' hw
        · exact .inr ⟨o, w', hmem, hw'⟩

end CloneVmm.Lib
