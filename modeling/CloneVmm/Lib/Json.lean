import Mathlib.Data.List.Basic
import Mathlib.Tactic.Ring

namespace CloneVmm.Lib

/-- What an integer of a JSON value can be: that of an `i64` or of a `u64`. -/
structure JsonInt where
  val : Int
  lower : -2 ^ 63 ≤ val
  upper : val < 2 ^ 64
  deriving DecidableEq

inductive Json (F : Type)
  | null
  | bool (b : Bool)
  | int (n : JsonInt)
  | float (x : F)
  | string (s : String)
  | array (xs : List (Json F))
  | object (fields : List (String × Json F))

namespace Json

variable {F α : Type}

mutual

def depth : Json F → Nat
  | array xs => depthList xs + 1
  | object fields => depthFields fields + 1
  | _ => 0

def depthList : List (Json F) → Nat
  | [] => 0
  | x :: xs => max (depth x) (depthList xs)

def depthFields : List (String × Json F) → Nat
  | [] => 0
  | (_, x) :: fields => max (depth x) (depthFields fields)

end

mutual

def floats : Json F → List F
  | float x => [x]
  | array xs => floatsList xs
  | object fields => floatsFields fields
  | _ => []

def floatsList : List (Json F) → List F
  | [] => []
  | x :: xs => floats x ++ floatsList xs

def floatsFields : List (String × Json F) → List F
  | [] => []
  | (_, x) :: fields => floats x ++ floatsFields fields

end

theorem depthList_le {xs : List (Json F)} {d : Nat} : depthList xs ≤ d ↔ ∀ x ∈ xs, x.depth ≤ d := by
  induction xs with
  | nil => exact iff_of_true (Nat.zero_le d) fun _ h => absurd h List.not_mem_nil
  | cons x xs ih => rw [depthList, Nat.max_le, ih, List.forall_mem_cons]

theorem depthFields_le {fields : List (String × Json F)} {d : Nat} :
    depthFields fields ≤ d ↔ ∀ f ∈ fields, f.2.depth ≤ d := by
  induction fields with
  | nil => exact iff_of_true (Nat.zero_le d) fun _ h => absurd h List.not_mem_nil
  | cons f fields ih =>
    obtain ⟨name, x⟩ := f
    rw [depthFields, Nat.max_le, ih, List.forall_mem_cons]

theorem floats_of_mem {xs : List (Json F)} {x : Json F} (hx : x ∈ xs) : ∀ y ∈ x.floats, y ∈ floatsList xs := by
  induction xs with
  | nil => exact absurd hx List.not_mem_nil
  | cons x' xs ih =>
    intro y hy
    rw [floatsList, List.mem_append]
    rcases List.mem_cons.mp hx with rfl | hx
    · exact .inl hy
    · exact .inr (ih hx y hy)

theorem floats_of_mem_fields {fields : List (String × Json F)} {f : String × Json F} (hf : f ∈ fields) :
    ∀ y ∈ f.2.floats, y ∈ floatsFields fields := by
  induction fields with
  | nil => exact absurd hf List.not_mem_nil
  | cons f' fields ih =>
    obtain ⟨name, x⟩ := f'
    intro y hy
    rw [floatsFields, List.mem_append]
    rcases List.mem_cons.mp hf with rfl | hf
    · exact .inl hy
    · exact .inr (ih hf y hy)

def field (fields : List (String × Json F)) (name : String) : Option (Option (Json F)) :=
  match fields.filter fun f => f.1 = name with
  | [] => some none
  | [f] => some (some f.2)
  | _ => none

def required (read : Json F → Option α) (fields : List (String × Json F)) (name : String) : Option α :=
  (field fields name).bind fun value => value.bind read

def optional (read : Json F → Option α) (fields : List (String × Json F)) (name : String) : Option (Option α) :=
  (field fields name).bind fun value =>
    match value with
    | none | some null => some none
    | some value => (read value).map some

def defaulted (read : Json F → Option α) (default : α) (fields : List (String × Json F)) (name : String) : Option α :=
  (field fields name).bind fun value =>
    match value with
    | none => some default
    | some value => read value

def tagged (key : String) : Json F → Option (String × List (String × Json F))
  | object fields =>
    match fields.filter fun f => f.1 = key with
    | [(_, string tag)] => some (tag, fields.filter fun f => f.1 ≠ key)
    | _ => none
  | _ => none

def string? : Json F → Option String
  | string s => some s
  | _ => none

def bool? : Json F → Option Bool
  | bool b => some b
  | _ => none

def int? : Json F → Option Int
  | int n => some n.val
  | _ => none

def array? (read : Json F → Option α) : Json F → Option (List α)
  | array xs => xs.mapM read
  | _ => none

def ofOption (write : α → Json F) : Option α → Json F
  | none => null
  | some a => write a

section Fields

variable {fields : List (String × Json F)} {name : String} {value : Json F} {read : Json F → Option α}
  {write : α → Json F}

theorem required_eq (h : field fields name = some (some value)) : required read fields name = read value := by
  rw [required, h]
  rfl

theorem defaulted_eq {default : α} (h : field fields name = some (some value)) :
    defaulted read default fields name = read value := by
  rw [defaulted, h]
  rfl

theorem optional_eq {a : Option α} (hread : ∀ a, read (write a) = some a) (hnull : read null = none)
    (h : field fields name = some (some (ofOption write a))) : optional read fields name = some a := by
  rw [optional, h]
  cases a with
  | none => rfl
  | some a =>
    have hne : write a ≠ null := by
      intro heq
      have hsome := hread a
      rw [heq, hnull] at hsome
      cases hsome
    dsimp only [Option.bind_some, ofOption]
    split
    · rename_i heq
      cases heq
    · rename_i heq
      exact absurd (Option.some.inj heq) hne
    · rename_i value _ heq
      rw [← Option.some.inj heq, hread]
      rfl

theorem array?_map {as : List α} (h : ∀ a ∈ as, read (write a) = some a) :
    array? read (array (as.map write)) = some as := by
  rw [array?, List.mapM_map]
  induction as with
  | nil => rfl
  | cons a as ih =>
    obtain ⟨ha, has⟩ := List.forall_mem_cons.mp h
    rw [List.mapM_cons, Function.comp_apply, ha, ih has]
    rfl

end Fields

end Json

end CloneVmm.Lib
