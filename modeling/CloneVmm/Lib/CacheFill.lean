import Mathlib.Data.Finset.Card

namespace CloneVmm.Lib

variable {α : Type*} {max : Nat} {touched keys keys' : Finset α} {a : α}

structure Remembers (max : Nat) (touched keys : Finset α) : Prop where
  subset : keys ⊆ touched
  full_or_all : max ≤ keys.card ∨ touched ⊆ keys

namespace Remembers

theorem refl (max : Nat) (keys : Finset α) : Remembers max keys keys :=
  ⟨Finset.Subset.refl _, .inr (Finset.Subset.refl _)⟩

theorem card_lt_iff (h : Remembers max touched keys) : keys.card < max ↔ touched.card < max := by
  constructor
  · intro hroom
    have hall := h.full_or_all.resolve_left hroom.not_ge
    exact (Finset.card_le_card hall).trans_lt hroom
  · exact (Finset.card_le_card h.subset).trans_lt

end Remembers

variable [DecidableEq α]

inductive Access (max : Nat) (keys : Finset α) (a : α) : Finset α → Prop
  | hit (h : a ∈ keys) : Access max keys a keys
  | load (h : a ∉ keys) (hroom : keys.card < max) : Access max keys a (insert a keys)
  | replace {victim : α} (h : a ∉ keys) (hfull : max ≤ keys.card) (hvictim : victim ∈ keys) :
      Access max keys a (insert a (keys.erase victim))

namespace Access

theorem mem (h : Access max keys a keys') : a ∈ keys' := by
  cases h with
  | hit h => exact h
  | load => exact Finset.mem_insert_self _ _
  | replace => exact Finset.mem_insert_self _ _

theorem eq_of_mem (h : Access max keys a keys') (ha : a ∈ keys) : keys' = keys := by
  cases h with
  | hit => rfl
  | load hnew => exact absurd ha hnew
  | replace hnew => exact absurd ha hnew

theorem card_replace {victim : α} (h : a ∉ keys) (hvictim : victim ∈ keys) :
    (insert a (keys.erase victim)).card = keys.card := by
  have hnew : a ∉ keys.erase victim := fun hmem => h (Finset.mem_of_mem_erase hmem)
  rw [Finset.card_insert_of_notMem hnew, Finset.card_erase_add_one hvictim]

theorem card_le_iff (h : Access max keys a keys') : keys'.card ≤ max ↔ keys.card ≤ max := by
  cases h with
  | hit => rfl
  | load h hroom =>
    rw [Finset.card_insert_of_notMem h]
    omega
  | replace h _ hvictim => rw [card_replace h hvictim]

end Access

namespace Remembers

theorem insert (h : Remembers max touched keys) (a : α) : Remembers max (insert a touched) (insert a keys) where
  subset := Finset.insert_subset_insert a h.subset
  full_or_all := by
    rcases h.full_or_all with hfull | hall
    · exact .inl (hfull.trans (Finset.card_le_card (Finset.subset_insert a keys)))
    · exact .inr (Finset.insert_subset_insert a hall)

theorem access (h : Remembers max touched keys) (ha : Access max keys a keys') :
    Remembers max (Insert.insert a touched) keys' := by
  cases ha with
  | hit hmem =>
    refine ⟨h.subset.trans (Finset.subset_insert a touched), h.full_or_all.imp_right fun hall => ?_⟩
    exact Finset.insert_subset hmem hall
  | load => exact h.insert a
  | replace hnew hfull hvictim =>
    refine ⟨?_, .inl (by rwa [Access.card_replace hnew hvictim])⟩
    exact Finset.insert_subset_insert a ((Finset.erase_subset _ _).trans h.subset)

end Remembers

end CloneVmm.Lib
