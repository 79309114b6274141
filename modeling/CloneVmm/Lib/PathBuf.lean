import CloneVmm.Lib.Utf8Lossy
import Mathlib.Data.List.Basic
import Mathlib.Tactic.Common

namespace CloneVmm.Lib

inductive OsName
  | text (s : String)
  | raw (bytes : List UInt8)
  deriving DecidableEq

namespace OsName

def isText : OsName → Bool
  | text _ => true
  | raw _ => false

def hasNul : OsName → Bool
  | text s => s.toList.contains '\x00'
  | raw bytes => bytes.contains 0

def toStringLossy : OsName → String
  | text s => s
  | raw bytes => Utf8Lossy.fromUtf8Lossy bytes

def bytes : OsName → List UInt8
  | text s => s.toUTF8.data.toList
  | raw bytes => bytes

end OsName

structure PathBuf where
  absolute : Bool
  comps : List OsName
  deriving DecidableEq

namespace PathBuf

def dotDot : OsName := .text ".."

def empty : PathBuf := ⟨false, []⟩

def pieces (s : String) : List String :=
  match (s.toList.splitOn '/').map String.ofList with
  | [] => []
  | first :: rest => ([first].filter (· != "")) ++ rest.filter fun c => c != "" && c != "."

def ofStr (s : String) : PathBuf where
  absolute := s.toList.head? == some '/'
  comps := (pieces s).map .text

def join (p q : PathBuf) : PathBuf :=
  if q.absolute then q
  else if p = empty then q
  else ⟨p.absolute, p.comps ++ (if q.comps.head? = some (.text ".") then q.comps.tail else q.comps)⟩

def parent (p : PathBuf) : Option PathBuf := if p.comps = [] then none else some ⟨p.absolute, p.comps.dropLast⟩

def isText (p : PathBuf) : Bool := p.comps.all OsName.isText

def hasNul (p : PathBuf) : Bool := p.comps.any OsName.hasNul

def extend (p : PathBuf) (rest : List OsName) : PathBuf := ⟨p.absolute, p.comps ++ rest⟩

def Inside (root p : PathBuf) : Prop :=
  p.absolute = root.absolute ∧ ∃ rest, p.comps = root.comps ++ rest ∧ dotDot ∉ rest

def Clean (p : PathBuf) : Prop := p.isText = true ∧ p.hasNul = false

variable {root p q : PathBuf}

@[simp] theorem extend_nil (p : PathBuf) : p.extend [] = p := by
  simp [extend]

theorem extend_left_inj {rest : List OsName} : p.extend rest = q.extend rest ↔ p = q := by
  cases p
  cases q
  simp [extend]

theorem extend_eq_self {rest : List OsName} : p.extend rest = p ↔ rest = [] := by
  cases p
  simp [extend]

theorem Inside.refl (root : PathBuf) : root.Inside root := ⟨rfl, [], by simp⟩

theorem Inside.eq_empty (h : root.Inside empty) : root = empty := by
  obtain ⟨habs, rest, hcomps, -⟩ := h
  cases root
  simp_all [empty]

theorem join_of_relative (hp : p ≠ empty) (hq : q.absolute = false) :
    ∃ kept, kept ⊆ q.comps ∧ p.join q = ⟨p.absolute, p.comps ++ kept⟩ := by
  refine ⟨if q.comps.head? = some (.text ".") then q.comps.tail else q.comps, ?_, ?_⟩
  · split
    · exact (List.tail_sublist q.comps).subset
    · exact List.Subset.refl q.comps
  · simp [join, hp, hq]

theorem Inside.join (h : root.Inside p) (hq : q.absolute = false) (hdots : dotDot ∉ q.comps) :
    root.Inside (p.join q) := by
  by_cases hp : p = empty
  · subst hp
    obtain rfl := h.eq_empty
    refine ⟨by simp [PathBuf.join, hq, empty], q.comps, by simp [PathBuf.join, hq, empty], hdots⟩
  · obtain ⟨habs, rest, hcomps, hrest⟩ := h
    obtain ⟨kept, hsub, hjoin⟩ := join_of_relative hp hq
    rw [hjoin]
    refine ⟨habs, rest ++ kept, by simp [hcomps], ?_⟩
    rw [List.mem_append]
    rintro (hmem | hmem)
    · exact hrest hmem
    · exact hdots (hsub hmem)

theorem join_of_absolute (hq : q.absolute = true) : p.join q = q := by
  simp [join, hq]

theorem Inside.parent (h : root.Inside p) (hp : p ≠ root) (hq : p.parent = some q) : root.Inside q := by
  obtain ⟨habs, rest, hcomps, hrest⟩ := h
  have hne : rest ≠ [] := by
    rintro rfl
    apply hp
    cases p
    cases root
    simp_all
  unfold PathBuf.parent at hq
  split at hq
  · cases hq
  · cases hq
    refine ⟨habs, rest.dropLast, ?_, fun hmem => hrest (List.dropLast_subset rest hmem)⟩
    simp only
    rw [hcomps, List.dropLast_append_of_ne_nil hne]

theorem clean_iff : p.Clean ↔ ∀ c ∈ p.comps, c.isText = true ∧ c.hasNul = false := by
  simp only [Clean, isText, hasNul, List.all_eq_true, List.any_eq_false, Bool.not_eq_true]
  constructor
  · rintro ⟨htext, hnul⟩ c hc
    exact ⟨htext c hc, hnul c hc⟩
  · intro h
    exact ⟨fun c hc => (h c hc).1, fun c hc => (h c hc).2⟩

theorem Clean.of_subset (h : p.Clean) (hsub : q.comps ⊆ p.comps) : q.Clean := by
  rw [clean_iff] at h ⊢
  exact fun c hc => h c (hsub hc)

theorem Clean.join (hp : p.Clean) (hq : q.Clean) : (p.join q).Clean := by
  rw [clean_iff] at hp hq ⊢
  by_cases habs : q.absolute = true
  · rw [join_of_absolute habs]
    exact hq
  · by_cases hempty : p = empty
    · rw [PathBuf.join, if_neg habs, if_pos hempty]
      exact hq
    · obtain ⟨kept, hsub, hjoin⟩ := join_of_relative hempty (Bool.eq_false_iff.mpr habs)
      rw [hjoin]
      intro c hc
      rcases List.mem_append.mp hc with hmem | hmem
      · exact hp c hmem
      · exact hq c (hsub hmem)

theorem Clean.parent (h : p.Clean) (hq : p.parent = some q) : q.Clean := by
  unfold PathBuf.parent at hq
  split at hq
  · cases hq
  · cases hq
    exact h.of_subset (List.dropLast_subset p.comps)

theorem subset_of_mem_splitOn {a : Char} {cs piece : List Char} (h : piece ∈ cs.splitOn a) : piece ⊆ cs := by
  induction cs generalizing piece with
  | nil => simp_all
  | cons c cs ih =>
    rw [List.splitOn_cons_eq_if_modifyHead] at h
    split at h
    · rcases List.mem_cons.mp h with rfl | hmem
      · exact List.nil_subset _
      · exact List.subset_cons_of_subset c (ih hmem)
    · obtain ⟨first, rest, hsplit⟩ := List.exists_cons_of_ne_nil (List.splitOn_ne_nil a cs)
      rw [hsplit] at h ih
      rw [List.modifyHead_cons] at h
      rcases List.mem_cons.mp h with rfl | hmem
      · exact List.cons_subset_cons c (ih List.mem_cons_self)
      · exact List.subset_cons_of_subset c (ih (List.mem_cons_of_mem first hmem))

theorem mem_pieces {s piece : String} (h : piece ∈ pieces s) : piece.toList ∈ s.toList.splitOn '/' := by
  obtain ⟨first, rest, hsplit⟩ := List.exists_cons_of_ne_nil (List.splitOn_ne_nil '/' s.toList)
  rw [pieces, hsplit, List.map_cons] at h
  rw [hsplit]
  rcases List.mem_append.mp h with hmem | hmem
  · obtain rfl := List.mem_singleton.mp (List.mem_of_mem_filter hmem)
    simp
  · obtain ⟨cs, hcs, rfl⟩ := List.mem_map.mp (List.mem_of_mem_filter hmem)
    simp [hcs]

theorem clean_ofStr {s : String} (h : '\x00' ∉ s.toList) : (ofStr s).Clean := by
  rw [clean_iff]
  intro c hc
  obtain ⟨piece, hpiece, rfl⟩ := List.mem_map.mp hc
  refine ⟨rfl, ?_⟩
  have hsub := subset_of_mem_splitOn (mem_pieces hpiece)
  simp only [OsName.hasNul, List.contains_eq_mem, decide_eq_false_iff_not]
  exact fun hmem => h (hsub hmem)

theorem ofStr_of_plain {s : String} (hsep : '/' ∉ s.toList) (hs : s ≠ "") : ofStr s = ⟨false, [.text s]⟩ := by
  have hsplit : s.toList.splitOn '/' = [s.toList] := List.splitOn_eq_singleton hsep
  have hhead : (s.toList.head? == some '/') = false := by
    apply beq_eq_false_iff_ne.mpr
    intro h
    exact hsep (List.mem_of_mem_head? h)
  simp [ofStr, pieces, hsplit, hhead, hs]

theorem join_ofStr_plain {s : String} (p : PathBuf) (hsep : '/' ∉ s.toList) (hs : s ≠ "") (hdot : s ≠ ".") :
    p.join (ofStr s) = p.extend [.text s] := by
  rw [ofStr_of_plain hsep hs]
  by_cases hp : p = empty
  · subst hp
    rfl
  · simp [join, hp, extend, hdot]

end PathBuf

end CloneVmm.Lib
