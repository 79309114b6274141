import CloneVmm.Lib.JsonText

namespace CloneVmm.Lib.JsonText

variable {F : Type}

def textSize (cs : List Char) : Nat := (cs.map Char.utf8Size).sum

@[simp] theorem textSize_cons (c : Char) (cs : List Char) : textSize (c :: cs) = c.utf8Size + textSize cs := rfl

@[simp] theorem textSize_append (cs cs' : List Char) : textSize (cs ++ cs') = textSize cs + textSize cs' := by
  rw [textSize, List.map_append, List.sum_append]
  rfl

theorem textSize_le {cs : List Char} {k : Nat} (h : ∀ c ∈ cs, c.utf8Size ≤ k) : textSize cs ≤ k * cs.length := by
  induction cs with
  | nil => exact Nat.zero_le _
  | cons c cs ih =>
    obtain ⟨hc, hcs⟩ := List.forall_mem_cons.mp h
    have hrest := ih hcs
    rw [textSize_cons, List.length_cons, Nat.mul_succ]
    omega

theorem length_toBytes (ft : FloatText F) (j : Json F) : (toBytes ft j).length = textSize (print ft j) := by
  have hencode : ∀ cs : List Char, (cs.flatMap String.utf8EncodeChar).length = textSize cs := by
    intro cs
    rw [List.length_flatMap, textSize]
    simp only [String.length_utf8EncodeChar]
  rw [toBytes, String.toByteArray_ofList, List.utf8Encode, ← hencode]
  simp

theorem utf8Size_shortEscapes : ∀ p ∈ shortEscapes, p.2.utf8Size = 1 := by decide

theorem utf8Size_digitChar : ∀ n < 16, (Nat.digitChar n).utf8Size = 1 := by decide

theorem textSize_escape_le (c : Char) : textSize (escape c) ≤ 6 := by
  unfold escape
  split
  · rename_i p hfind
    have hsize := utf8Size_shortEscapes p (List.mem_of_find?_eq_some hfind)
    change 1 + (p.2.utf8Size + 0) ≤ 6
    omega
  · split
    · rename_i hcontrol
      have hhigh := utf8Size_digitChar (c.toNat / 16) (by omega)
      have hlow := utf8Size_digitChar (c.toNat % 16) (by omega)
      change 1 + (1 + (1 + (1 + ((Nat.digitChar (c.toNat / 16)).utf8Size +
        ((Nat.digitChar (c.toNat % 16)).utf8Size + 0))))) ≤ 6
      omega
    · have hsize := c.utf8Size_le_four
      change c.utf8Size + 0 ≤ 6
      omega

theorem textSize_flatMap_escape_le (cs : List Char) : textSize (cs.flatMap escape) ≤ 6 * cs.length := by
  induction cs with
  | nil => exact Nat.zero_le _
  | cons c cs ih =>
    have hc := textSize_escape_le c
    rw [List.flatMap_cons, textSize_append, List.length_cons]
    omega

theorem textSize_quote (s : String) : textSize (quote s) = textSize (s.toList.flatMap escape) + 2 := by
  rw [quote, textSize_cons, textSize_append]
  change 1 + (_ + 1) = _
  omega

theorem textSize_quote_le (s : String) : textSize (quote s) ≤ 6 * s.toList.length + 2 := by
  have hle := textSize_flatMap_escape_le s.toList
  rw [textSize_quote]
  omega

theorem textSize_intText_le {z : Int} {k : Nat} (hk : 0 < k) (h : z.natAbs < 10 ^ k) :
    textSize (intText z) ≤ k + 1 := by
  have hdigits : textSize (Nat.toDigits 10 z.natAbs) ≤ k := by
    have hone : ∀ c ∈ Nat.toDigits 10 z.natAbs, c.utf8Size ≤ 1 := by
      intro c hc
      have hdigit := Nat.isDigit_of_mem_toDigits (by decide) (by decide) hc
      rw [Char.isDigit, Bool.and_eq_true, decide_eq_true_eq, decide_eq_true_eq] at hdigit
      exact Nat.le_of_eq (Char.utf8Size_eq_one_iff.mpr (UInt32.le_trans hdigit.2 (by decide)))
    have hlen := (Nat.length_toDigits_le_iff (by decide) hk).mpr h
    exact (textSize_le hone).trans (by omega)
  unfold intText
  split
  · rw [textSize_cons]
    change 1 + _ ≤ _
    omega
  · omega

theorem textSize_separated (item : List Char) (items : List (List Char)) :
    textSize (separated (item :: items)) = textSize item + ((items.map textSize).sum + items.length) := by
  induction items generalizing item with
  | nil => rfl
  | cons item' items ih =>
    rw [separated_cons_cons, textSize_append, textSize_cons, ih, List.map_cons, List.sum_cons, List.length_cons]
    change _ + (1 + _) = _
    omega

def fieldSize (ft : FloatText F) (f : String × Json F) : Nat := textSize (quote f.1) + 1 + textSize (print ft f.2)

theorem textSize_object (ft : FloatText F) (f : String × Json F) (fields : List (String × Json F)) :
    textSize (print ft (.object (f :: fields))) =
      fieldSize ft f + ((fields.map (fieldSize ft)).sum + fields.length) + 2 := by
  have hfield : ∀ f : String × Json F, textSize (quote f.1 ++ ':' :: print ft f.2) = fieldSize ft f := by
    intro f
    rw [textSize_append, textSize_cons, fieldSize]
    change _ + (1 + _) = _
    omega
  have hfields : (printFields ft fields).map textSize = fields.map (fieldSize ft) := by
    rw [printFields_eq, List.map_map]
    exact List.map_congr_left fun f _ => hfield f
  have hlength : (printFields ft fields).length = fields.length := by
    rw [printFields_eq, List.length_map]
  rw [print, textSize_cons, textSize_append, printFields, textSize_separated, hfield, hfields, hlength]
  change 1 + (_ + 1) = _
  omega

end CloneVmm.Lib.JsonText
