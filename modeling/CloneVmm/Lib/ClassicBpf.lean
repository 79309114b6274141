import Mathlib.Tactic.Common

namespace CloneVmm.Lib

structure SockFilter where
  code : UInt16
  jt : UInt8
  jf : UInt8
  k : UInt32
  deriving DecidableEq

namespace ClassicBpf

inductive Outcome
  | returned (value : UInt32)
  | left
  | illegal
  deriving DecidableEq

def test (code : UInt16) (a k : UInt32) : Option Bool :=
  if code = 0x15 then some (a == k)
  else if code = 0x25 then some (decide (k < a))
  else if code = 0x35 then some (decide (k ≤ a))
  else if code = 0x45 then some (a &&& k != 0)
  else none

def run (load : UInt32 → Option UInt32) (prog : List SockFilter) (a : UInt32) : Outcome :=
  match prog with
  | [] => .left
  | insn :: rest =>
    match test insn.code a insn.k with
    | some true => run load (rest.drop insn.jt.toNat) a
    | some false => run load (rest.drop insn.jf.toNat) a
    | none =>
      if insn.code = 0x20 then
        match load insn.k with
        | some word => run load rest word
        | none => .illegal
      else if insn.code = 0x05 then run load (rest.drop insn.k.toNat) a
      else if insn.code = 0x06 then .returned insn.k
      else if insn.code = 0x16 then .returned a
      else .illegal
termination_by prog.length
decreasing_by
  all_goals simp only [List.length_drop, List.length_cons]
  all_goals omega

variable {load : UInt32 → Option UInt32} {insn : SockFilter} (rest : List SockFilter) (a : UInt32)

theorem run_jump {taken : Bool} (h : test insn.code a insn.k = some taken) :
    run load (insn :: rest) a = run load (rest.drop (if taken then insn.jt.toNat else insn.jf.toNat)) a := by
  rw [run, h]
  cases taken <;> rfl

theorem run_load (hcode : insn.code = 0x20) {word : UInt32} (h : load insn.k = some word) :
    run load (insn :: rest) a = run load rest word := by
  have htest : test insn.code a insn.k = none := by
    rw [hcode]
    rfl
  rw [run, htest]
  simp only [if_pos hcode, h]

theorem run_return (hcode : insn.code = 0x06) : run load (insn :: rest) a = .returned insn.k := by
  have htest : test insn.code a insn.k = none := by
    rw [hcode]
    rfl
  rw [run, htest]
  simp only [hcode, if_true]
  rfl

end ClassicBpf

end CloneVmm.Lib
