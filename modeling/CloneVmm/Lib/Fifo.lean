import CloneVmm.Lib.Run
import Mathlib.Data.List.Basic

namespace CloneVmm.Lib

inductive FifoAction (α : Type)
  | put (x : α)
  | get (x : α)

inductive FifoStep {α : Type} : List α → FifoAction α → List α → Prop
  | put (q : List α) (x : α) : FifoStep q (.put x) (q ++ [x])
  | get (x : α) (q : List α) : FifoStep (x :: q) (.get x) q

namespace FifoAction

variable {α : Type} {q q' : List α} {as : List (FifoAction α)}

def put? : FifoAction α → Option α
  | put x => some x
  | get _ => none

def get? : FifoAction α → Option α
  | put _ => none
  | get x => some x

def puts (as : List (FifoAction α)) : List α := as.filterMap put?

def gets (as : List (FifoAction α)) : List α := as.filterMap get?

theorem gets_append (as bs : List (FifoAction α)) : gets (as ++ bs) = gets as ++ gets bs := List.filterMap_append

theorem balance (h : Steps FifoStep q as q') : q ++ puts as = gets as ++ q' := by
  induction h with
  | nil q => exact List.append_nil q
  | @cons q t q' a as hstep _ ih =>
    cases hstep with
    | put x =>
      rw [List.append_assoc] at ih
      exact ih
    | get x => exact congrArg (x :: ·) ih

end FifoAction

end CloneVmm.Lib
