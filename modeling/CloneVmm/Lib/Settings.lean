import Mathlib.Logic.Function.Basic

namespace CloneVmm.Lib

structure Settings (σ κ : Type) (ν : κ → Type) where
  read : (k : κ) → σ → Option (ν k)
  write : (k : κ) → ν k → σ → Option σ

namespace Settings

variable {σ κ : Type} {ν : κ → Type} (S : Settings σ κ ν)

structure Lawful (disturbs : κ → κ → Prop) : Prop where
  written : ∀ {k : κ} {v : ν k} {r s t : σ}, S.read k r = some v → S.write k v s = some t → S.read k t = some v
  others : ∀ {k k' : κ} {v : ν k} {s t : σ}, S.write k v s = some t → k' ≠ k → ¬disturbs k k' → S.read k' t = S.read k' s

def comap {κ' : Type} (f : κ' → κ) : Settings σ κ' fun k => ν (f k) := ⟨fun k => S.read (f k), fun k => S.write (f k)⟩

def readFirst (s : σ) : List κ → List (Σ k, ν k)
  | [] => []
  | k :: ks =>
    match S.read k s with
    | none => []
    | some v => ⟨k, v⟩ :: readFirst s ks

def writeFirst : List (Σ k, ν k) → σ → σ × Nat
  | [], s => (s, 0)
  | a :: as, s =>
    match S.write a.1 a.2 s with
    | none => (s, 0)
    | some t => ((writeFirst as t).1, (writeFirst as t).2 + 1)

def store [DecidableEq κ] (accepts : (k : κ) → ν k → Bool) (resets : κ → κ → Bool) (fresh : (k : κ) → ν k) :
    Settings ((k : κ) → ν k) κ ν where
  read k s := if accepts k (s k) then some (s k) else none
  write k v s :=
    if accepts k v then some (Function.update (fun k' => if resets k k' then fresh k' else s k') k v) else none

/-- The settings of `r` that have these keys are written one after another. -/
inductive Copies (r : σ) : σ → List κ → σ → Prop
  | nil (s : σ) : Copies r s [] s
  | cons {k : κ} {v : ν k} {s t u : σ} {ks : List κ} :
      S.read k r = some v → S.write k v s = some t → Copies r t ks u → Copies r s (k :: ks) u

variable {S} {r s t u : σ} {k : κ} {ks ks' : List κ} {disturbs : κ → κ → Prop}

theorem store_lawful [DecidableEq κ] {accepts : (k : κ) → ν k → Bool} {resets : κ → κ → Bool}
    {fresh : (k : κ) → ν k} : (store accepts resets fresh).Lawful fun k k' => resets k k' = true where
  written := by
    intro k v r s t hread hwrite
    obtain ⟨haccepts, hvalue⟩ := Option.ite_none_right_eq_some.mp hread
    rw [Option.some.inj hvalue] at haccepts
    obtain ⟨-, ht⟩ := Option.ite_none_right_eq_some.mp hwrite
    rw [← Option.some.inj ht]
    simp only [store]
    rw [Function.update_self, if_pos haccepts]
  others := by
    intro k k' v s t hwrite hne hresets
    obtain ⟨-, ht⟩ := Option.ite_none_right_eq_some.mp hwrite
    rw [← Option.some.inj ht]
    simp only [store]
    rw [Function.update_of_ne hne, if_neg hresets]

theorem mem_readFirst {v : ν k} :
    ⟨k, v⟩ ∈ S.readFirst s ks ↔ ∃ p : Nat, ks[p]? = some k ∧ S.read k s = some v ∧
      ∀ q ≤ p, ∀ k' ∈ ks[q]?, (S.read k' s).isSome = true := by
  induction ks with
  | nil => simp [readFirst]
  | cons k₀ ks ih =>
    rw [readFirst]
    cases hread : S.read k₀ s with
    | none =>
      refine iff_of_false List.not_mem_nil ?_
      rintro ⟨p, -, -, hall⟩
      have hfirst := hall 0 (Nat.zero_le p) k₀ rfl
      rw [hread] at hfirst
      cases hfirst
    | some v₀ =>
      rw [List.mem_cons, ih]
      constructor
      · rintro (heq | ⟨p, hkey, hvalue, hall⟩)
        · cases heq
          refine ⟨0, rfl, hread, fun q hq k' hk' => ?_⟩
          obtain rfl := Nat.le_zero.mp hq
          cases hk'
          rw [hread]
          rfl
        · refine ⟨p + 1, hkey, hvalue, fun q hq k' hk' => ?_⟩
          cases q with
          | zero =>
            cases hk'
            rw [hread]
            rfl
          | succ q => exact hall q (Nat.le_of_succ_le_succ hq) k' hk'
      · rintro ⟨p, hkey, hvalue, hall⟩
        cases p with
        | zero =>
          cases hkey
          rw [hread] at hvalue
          cases hvalue
          exact .inl rfl
        | succ p => exact .inr ⟨p, hkey, hvalue, fun q hq => hall (q + 1) (Nat.succ_le_succ hq)⟩

namespace Copies

theorem append (h : S.Copies r s ks t) (h' : S.Copies r t ks' u) : S.Copies r s (ks ++ ks') u := by
  induction h with
  | nil => exact h'
  | cons hread hwrite _ ih => exact .cons hread hwrite (ih h')

theorem of_comap {κ' : Type} {f : κ' → κ} {js : List κ'} (h : (S.comap f).Copies r s js t) : S.Copies r s (js.map f) t := by
  induction h with
  | nil s => exact .nil s
  | cons hread hwrite _ ih => exact .cons hread hwrite ih

theorem single {v : ν k} (hread : S.read k r = some v) (hwrite : S.write k v s = some t) : S.Copies r s [k] t :=
  .cons hread hwrite (.nil t)

theorem read_of_undisturbed (hlawful : S.Lawful disturbs) (h : S.Copies r s ks t)
    (hsame : S.read k s = S.read k r) (hdisturbs : ∀ k' ∈ ks, k' ≠ k → ¬disturbs k' k) : S.read k t = S.read k r := by
  induction h with
  | nil => exact hsame
  | @cons k₀ v s s' t ks hread hwrite _ ih =>
    apply ih
    · by_cases hkey : k = k₀
      · subst hkey
        rw [hlawful.written hread hwrite, hread]
      · rw [hlawful.others hwrite hkey (hdisturbs k₀ List.mem_cons_self (Ne.symm hkey)), hsame]
    · exact fun k' hk' => hdisturbs k' (List.mem_cons_of_mem _ hk')

theorem of_append (h : S.Copies r s (ks ++ ks') u) : ∃ t, S.Copies r s ks t ∧ S.Copies r t ks' u := by
  induction ks generalizing s with
  | nil => exact ⟨s, .nil s, h⟩
  | cons k ks ih =>
    cases h with
    | cons hread hwrite h =>
      obtain ⟨t, hfirst, hrest⟩ := ih h
      exact ⟨t, .cons hread hwrite hfirst, hrest⟩

theorem read_of_split (hlawful : S.Lawful disturbs) (h : S.Copies r s (ks ++ k :: ks') t)
    (hdisturbs : ∀ k' ∈ ks', k' ≠ k → ¬disturbs k' k) : S.read k t = S.read k r := by
  obtain ⟨s', -, h⟩ := h.of_append
  cases h with
  | cons hread hwrite h =>
    exact h.read_of_undisturbed hlawful ((hlawful.written hread hwrite).trans hread.symm) hdisturbs

theorem read_of_not_mem (hlawful : S.Lawful disturbs) (h : S.Copies r s ks t) (hkey : k ∉ ks)
    (hdisturbs : ∀ k' ∈ ks, ¬disturbs k' k) : S.read k t = S.read k s := by
  induction h with
  | nil => rfl
  | @cons k₀ v s s' t ks hread hwrite _ ih =>
    rw [List.mem_cons, not_or] at hkey
    rw [ih hkey.2 fun k' hk' => hdisturbs k' (List.mem_cons_of_mem _ hk')]
    exact hlawful.others hwrite hkey.1 (hdisturbs k₀ List.mem_cons_self)

end Copies

theorem writeFirst_refused {as : List (Σ k, ν k)} {a : Σ k, ν k} (h : as[(S.writeFirst as s).2]? = some a) :
    S.write a.1 a.2 (S.writeFirst as s).1 = none := by
  induction as generalizing s with
  | nil => cases h
  | cons a₀ as ih =>
    cases hwrite : S.write a₀.1 a₀.2 s with
    | none =>
      simp only [writeFirst, hwrite] at h ⊢
      cases h
      exact hwrite
    | some t =>
      simp only [writeFirst, hwrite] at h ⊢
      exact ih h

theorem copies_writeFirst {as : List (Σ k, ν k)} (hread : ∀ a ∈ as, S.read a.1 r = some a.2) :
    S.Copies r s ((as.take (S.writeFirst as s).2).map Sigma.fst) (S.writeFirst as s).1 := by
  induction as generalizing s with
  | nil => exact .nil s
  | cons a as ih =>
    rw [writeFirst]
    split
    · exact .nil s
    · rename_i t hwrite
      rw [List.take_succ_cons, List.map_cons]
      exact .cons (hread a List.mem_cons_self) hwrite (ih fun b hb => hread b (List.mem_cons_of_mem _ hb))

end Settings

end CloneVmm.Lib
