import Mathlib.Logic.Relation
import Mathlib.Tactic.Common

namespace CloneVmm.Lib.Loop

open Relation

variable {ε σ α : Type}

def run (more : σ → Bool) (body : Nat → σ → Option (Except ε σ)) : Nat → σ → Option (Except ε σ)
  | 0, _ => none
  | fuel + 1, s =>
    if more s then
      match body fuel s with
      | none => none
      | some (.error e) => some (.error e)
      | some (.ok t) => run more body fuel t
    else some (.ok s)

/-- A result does not change with more fuel. -/
def Steady (body : Nat → σ → Option α) : Prop := ∀ s r fuel k, body fuel s = some r → fuel ≤ k → body k s = some r

def Turn (more : σ → Bool) (body : Nat → σ → Option (Except ε σ)) (s t : σ) : Prop :=
  more s = true ∧ ∃ fuel, body fuel s = some (.ok t)

def Completes (body : Nat → σ → Option (Except ε α)) (s : σ) : Prop := ∃ fuel a, body fuel s = some (.ok a)

section Run

variable {more : σ → Bool} {body : Nat → σ → Option (Except ε σ)} {s t u : σ} {fuel : Nat}

theorem run_eq_some_ok (h : run more body (fuel + 1) s = some (.ok t)) (hmore : more s = true) :
    ∃ u, body fuel s = some (.ok u) ∧ run more body fuel u = some (.ok t) := by
  rw [run, if_pos hmore] at h
  cases hturn : body fuel s with
  | none =>
    rw [hturn] at h
    cases h
  | some result =>
    rw [hturn] at h
    cases result with
    | error e => cases h
    | ok u => exact ⟨u, rfl, h⟩

theorem run_steady (hbody : Steady body) : Steady (run more body) := by
  intro s r fuel k h hle
  induction fuel generalizing s k with
  | zero => cases h
  | succ fuel ih =>
    obtain ⟨k, rfl⟩ := Nat.exists_eq_add_of_lt hle
    rw [run] at h ⊢
    split
    · rename_i hmore
      rw [if_pos hmore] at h
      cases hturn : body fuel s with
      | none =>
        rw [hturn] at h
        cases h
      | some result =>
        rw [hturn] at h
        rw [hbody s result fuel (fuel + k) hturn (Nat.le_add_right _ _)]
        cases result with
        | error e => exact h
        | ok t => exact ih t (fuel + k) h (Nat.le_add_right _ _)
    · rename_i hdone
      rwa [if_neg hdone] at h

theorem turns_of_run (h : run more body fuel s = some (.ok t)) : ReflTransGen (Turn more body) s t ∧ more t = false := by
  induction fuel generalizing s with
  | zero => cases h
  | succ fuel ih =>
    by_cases hmore : more s = true
    · obtain ⟨u, hturn, hrest⟩ := run_eq_some_ok h hmore
      obtain ⟨hturns, hdone⟩ := ih hrest
      exact ⟨.head ⟨hmore, fuel, hturn⟩ hturns, hdone⟩
    · rw [run, if_neg hmore] at h
      cases h
      exact ⟨.refl, Bool.eq_false_iff.mpr hmore⟩

theorem turn_unique (hbody : Steady body) (ht : Turn more body s t) (hu : Turn more body s u) : t = u := by
  obtain ⟨-, m, hm⟩ := ht
  obtain ⟨-, n, hn⟩ := hu
  have hmax := hbody s (.ok t) m (max m n) hm (Nat.le_max_left _ _)
  cases hmax.symm.trans (hbody s (.ok u) n (max m n) hn (Nat.le_max_right _ _))
  rfl

theorem completes_of_turn (hbody : Steady body) (hturn : Turn more body s t) (h : Completes (run more body) s) :
    Completes (run more body) t := by
  obtain ⟨fuel, last, hrun⟩ := h
  cases fuel with
  | zero => cases hrun
  | succ fuel =>
    obtain ⟨u, hu, hrest⟩ := run_eq_some_ok hrun hturn.1
    rw [turn_unique hbody hturn ⟨hturn.1, fuel, hu⟩]
    exact ⟨fuel, last, hrest⟩

theorem completes_body (hmore : more s = true) (h : Completes (run more body) s) : Completes body s := by
  obtain ⟨fuel, last, hrun⟩ := h
  cases fuel with
  | zero => cases hrun
  | succ fuel =>
    obtain ⟨u, hu, -⟩ := run_eq_some_ok hrun hmore
    exact ⟨fuel, u, hu⟩

theorem completes_iff (hbody : Steady body) (measure : σ → Nat)
    (hmeasure : ∀ s t, Turn more body s t → measure t < measure s) :
    Completes (run more body) s ↔
      ∀ t, ReflTransGen (Turn more body) s t → more t = true → Completes body t := by
  constructor
  · intro h t hturns hmore
    induction hturns using ReflTransGen.head_induction_on with
    | refl => exact completes_body hmore h
    | head hturn _ ih => exact ih (completes_of_turn hbody hturn h)
  · intro h
    induction hleft : measure s using Nat.strongRecOn generalizing s with
    | _ left ih =>
      by_cases hmore : more s = true
      · obtain ⟨m, t, hm⟩ := h s .refl hmore
        have hturn : Turn more body s t := ⟨hmore, m, hm⟩
        obtain ⟨n, last, hn⟩ := ih (measure t) (hleft ▸ hmeasure s t hturn) (fun u hu => h u (.head hturn hu)) rfl
        refine ⟨max m n + 1, last, ?_⟩
        rw [run, if_pos hmore, hbody s _ m _ hm (Nat.le_max_left _ _)]
        exact run_steady hbody t _ n _ hn (Nat.le_max_right _ _)
      · exact ⟨1, s, by rw [run, if_neg hmore]⟩

end Run

end CloneVmm.Lib.Loop
