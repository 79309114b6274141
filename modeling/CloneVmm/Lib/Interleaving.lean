import CloneVmm.Lib.Run

namespace CloneVmm.Lib.Steps

variable {σ α τ β : Type*} {step : σ → α → σ → Prop} {s t : σ} {as : List α}

def Moves (part : τ → β → τ → Prop) (x : τ) : Option β → τ → Prop
  | none, y => y = x
  | some b, y => part x b y

theorem project {part : τ → β → τ → Prop} (view : σ → τ) (label : α → Option β)
    (hmove : ∀ s a t, step s a t → Moves part (view s) (label a) (view t)) (h : Steps step s as t) :
    Steps part (view s) (as.filterMap label) (view t) := by
  induction h with
  | nil s => exact .nil (view s)
  | @cons s t u a as ha _ ih =>
    have hstep := hmove s a t ha
    cases hlabel : label a with
    | none =>
      rw [hlabel, Moves] at hstep
      rw [List.filterMap_cons_none hlabel, ← hstep]
      exact ih
    | some b =>
      rw [hlabel] at hstep
      rw [List.filterMap_cons_some hlabel]
      exact .cons hstep ih

theorem paid_or_owed {Owes : σ → Prop} {Pays : α → Prop} (hkeep : ∀ s a t, step s a t → Owes s → Pays a ∨ Owes t)
    (h : Steps step s as t) (hs : Owes s) : (∃ a ∈ as, Pays a) ∨ Owes t := by
  induction h with
  | nil s => exact .inr hs
  | @cons s t u a as ha _ ih =>
    rcases hkeep s a t ha hs with hpays | howes
    · exact .inl ⟨a, List.mem_cons_self, hpays⟩
    · rcases ih howes with ⟨b, hb, hpays⟩ | howes'
      · exact .inl ⟨b, List.mem_cons_of_mem a hb, hpays⟩
      · exact .inr howes'

theorem split {bs : List α} {a : α} (h : Steps step s (as ++ a :: bs) t) :
    ∃ u v, Steps step s as u ∧ step u a v ∧ Steps step v bs t := by
  induction as generalizing s with
  | nil =>
    cases h with
    | cons ha hrest => exact ⟨s, _, .nil s, ha, hrest⟩
  | cons b as ih =>
    cases h with
    | cons hb hrest =>
      obtain ⟨u, v, hbefore, ha, hafter⟩ := ih hrest
      exact ⟨u, v, .cons hb hbefore, ha, hafter⟩

end CloneVmm.Lib.Steps
