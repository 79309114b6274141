import Mathlib.Tactic.Common

namespace CloneVmm.Lib

variable {σ α : Type*} {step : σ → α → σ → Prop}

inductive Steps (step : σ → α → σ → Prop) : σ → List α → σ → Prop
  | nil (s : σ) : Steps step s [] s
  | cons {s t u : σ} {a : α} {as : List α} :
      step s a t → Steps step t as u → Steps step s (a :: as) u

namespace Steps

theorem invariant {P : σ → Prop} (hstep : ∀ s a t, step s a t → P s → P t)
    {s t : σ} {as : List α} (h : Steps step s as t) (hs : P s) : P t := by
  induction h with
  | nil s => exact hs
  | cons ha _ ih => exact ih (hstep _ _ _ ha hs)

theorem append {s t u : σ} {as bs : List α} (h : Steps step s as t) (h' : Steps step t bs u) :
    Steps step s (as ++ bs) u := by
  induction h with
  | nil s => exact h'
  | cons ha _ ih => exact .cons ha (ih h')

theorem of_cons {s u : σ} {a : α} {as : List α} (h : Steps step s (a :: as) u) :
    ∃ t, step s a t ∧ Steps step t as u := by
  cases h with
  | cons ha has => exact ⟨_, ha, has⟩

theorem invariant_history {P : List α → σ → Prop} (hstep : ∀ as s a t, step s a t → P as s → P (as ++ [a]) t)
    {s t : σ} {as : List α} (h : Steps step s as t) (hs : P [] s) : P as t := by
  have hrest : ∀ earlier, P earlier s → P (earlier ++ as) t := by
    clear hs
    induction h with
    | nil s =>
      intro earlier hs
      rwa [List.append_nil]
    | @cons s t u a as ha _ ih =>
      intro earlier hs
      have happend : earlier ++ a :: as = (earlier ++ [a]) ++ as := by rw [List.append_assoc, List.singleton_append]
      rw [happend]
      exact ih _ (hstep _ _ _ _ ha hs)
  exact hrest [] hs

theorem mono {step' : σ → α → σ → Prop} (hstep : ∀ s a t, step s a t → step' s a t)
    {s t : σ} {as : List α} (h : Steps step s as t) : Steps step' s as t := by
  induction h with
  | nil s => exact .nil s
  | cons ha _ ih => exact .cons (hstep _ _ _ ha) ih

theorem iff_of_step_and {I P : σ → Prop} {Q : σ → α → σ → Prop} {C : σ → α → Prop}
    (hI : ∀ s a t, step s a t → I s → I t) (hstep : ∀ s a t, step s a t → I s → P s → (P t ∧ Q s a t ↔ C s a))
    {s t : σ} {as : List α} (hs : I s) (hP : P s) :
    Steps (fun s a t => step s a t ∧ P t ∧ Q s a t) s as t ↔ Steps (fun s a t => step s a t ∧ C s a) s as t := by
  constructor
  · intro h
    induction h with
    | nil s => exact .nil s
    | cons ha _ ih =>
      have hC := (hstep _ _ _ ha.1 hs hP).mp ha.2
      exact .cons ⟨ha.1, hC⟩ (ih (hI _ _ _ ha.1 hs) ha.2.1)
  · intro h
    induction h with
    | nil s => exact .nil s
    | cons ha _ ih =>
      have hPQ := (hstep _ _ _ ha.1 hs hP).mpr ha.2
      exact .cons ⟨ha.1, hPQ⟩ (ih (hI _ _ _ ha.1 hs) hPQ.1)

theorem iff_of_step {I P : σ → Prop} {C : σ → α → Prop} (hI : ∀ s a t, step s a t → I s → I t)
    (hstep : ∀ s a t, step s a t → I s → P s → (P t ↔ C s a)) {s t : σ} {as : List α} (hs : I s)
    (hP : P s) :
    Steps (fun s a t => step s a t ∧ P t) s as t ↔ Steps (fun s a t => step s a t ∧ C s a) s as t := by
  have hstep' : ∀ s a t, step s a t → I s → P s → (P t ∧ True ↔ C s a) := by
    intro s a t ha hs hP
    rw [and_true]
    exact hstep s a t ha hs hP
  have h : Steps (fun s a t => step s a t ∧ P t ∧ True) s as t ↔ _ := iff_of_step_and hI hstep' hs hP
  simp only [and_true] at h
  exact h

section Trace

variable {σ α : Type*} (next : σ → α → Option σ) (C : σ → α → Prop) [∀ s a, Decidable (C s a)]

def trace : σ → List α → Option σ
  | s, [] => some s
  | s, a :: as => if C s a then (next s a).bind fun t => trace t as else none

variable {next C}

theorem of_trace {s t : σ} {as : List α} (h : trace next C s as = some t) :
    Steps (fun s a t => next s a = some t ∧ C s a) s as t := by
  induction as generalizing s with
  | nil =>
    cases h
    exact .nil _
  | cons a as ih =>
    simp only [trace, Option.ite_none_right_eq_some, Option.bind_eq_some_iff] at h
    obtain ⟨hC, u, hu, hrest⟩ := h
    exact .cons ⟨hu, hC⟩ (ih hrest)

end Trace

end Steps

end CloneVmm.Lib
