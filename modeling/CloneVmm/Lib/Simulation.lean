import Mathlib.Data.List.Forall2
import Mathlib.Data.List.ReduceOption
import CloneVmm.Lib.Run

namespace CloneVmm.Lib

variable {α β γ ε : Type*} {R : α → β → Prop} {S : γ → ε → Prop}

theorem rel_map {x : Option α} {y : Option β} {f : α → γ} {g : β → ε} (h : Option.Rel R x y)
    (hfg : ∀ a b, R a b → S (f a) (g b)) : Option.Rel S (x.map f) (y.map g) := by
  cases h with
  | some hab => exact .some (hfg _ _ hab)
  | none => exact .none

theorem eq_of_rel {x y : Option α} (h : Option.Rel Eq x y) : x = y := by
  cases h with
  | some hab => rw [hab]
  | none => rfl

theorem exists_of_rel {x : Option α} {y : Option β} (h : Option.Rel R x y) {a : α} (ha : x = some a) :
    ∃ b, y = some b ∧ R a b := by
  cases h with
  | some hab =>
    cases ha
    exact ⟨_, rfl, hab⟩
  | none => cases ha

theorem rel_getElem? {xs : List α} {ys : List β} (h : List.Forall₂ R xs ys) (i : Nat) : Option.Rel R xs[i]? ys[i]? := by
  induction h generalizing i with
  | nil => exact .none
  | cons hab _ ih =>
    cases i with
    | zero => exact .some hab
    | succ i => exact ih i

theorem forall₂_set {xs : List α} {ys : List β} {a : α} {b : β} (h : List.Forall₂ R xs ys) (hab : R a b) (i : Nat) :
    List.Forall₂ R (xs.set i a) (ys.set i b) := by
  induction h generalizing i with
  | nil => exact .nil
  | cons hhead htail ih =>
    cases i with
    | zero => exact .cons hab htail
    | succ i => exact .cons hhead (ih i)

theorem Steps.simulate {σ σ' : Type*} {step : σ → α → σ → Prop} {step' : σ' → β → σ' → Prop} {I : σ → σ' → Prop}
    (hstep : ∀ s a t s', step s a t → I s s' → ∃ b t', step' s' b t' ∧ R a b ∧ I t t') {s t : σ} {s' : σ'} {as : List α}
    (h : Steps step s as t) (hs : I s s') : ∃ bs t', Steps step' s' bs t' ∧ List.Forall₂ R as bs ∧ I t t' := by
  induction h generalizing s' with
  | nil s => exact ⟨[], s', .nil s', .nil, hs⟩
  | @cons s t u a as ha _ ih =>
    obtain ⟨b, t', hb, hab, ht⟩ := hstep s a t s' ha hs
    obtain ⟨bs, u', hbs, habs, hu⟩ := ih ht
    exact ⟨b :: bs, u', .cons hb hbs, .cons hab habs, hu⟩

theorem exists_of_mem_left {xs : List α} {ys : List β} (h : List.Forall₂ R xs ys) {a : α} (ha : a ∈ xs) :
    ∃ b, R a b := by
  induction h with
  | nil => cases ha
  | cons hab _ ih =>
    rcases List.mem_cons.mp ha with rfl | ha
    · exact ⟨_, hab⟩
    · exact ih ha

theorem Steps.follow {σ τ μ : Type*} {step : σ → Option μ → σ → Prop} {spec : τ → μ → τ → Prop} {R : σ → τ → Prop}
    (hstep : ∀ s a t x, step s a t → R s x → ∃ y, Steps spec x a.toList y ∧ R t y) {s t : σ} {as : List (Option μ)}
    (h : Steps step s as t) {x : τ} (hR : R s x) : ∃ y, Steps spec x as.reduceOption y ∧ R t y := by
  induction h generalizing x with
  | nil s => exact ⟨x, .nil x, hR⟩
  | @cons s t u a as hfirst _ ih =>
    obtain ⟨y, hspec, hy⟩ := hstep s a t x hfirst hR
    obtain ⟨z, hrest, hz⟩ := ih hy
    have hactions : (a :: as).reduceOption = a.toList ++ as.reduceOption := by
      cases a with
      | none => rfl
      | some a => rfl
    rw [hactions]
    exact ⟨z, hspec.append hrest, hz⟩

end CloneVmm.Lib
