import Mathlib.Tactic.Common

namespace CloneVmm.Lib.Utf8Lossy

def charWidth (first : UInt8) : Nat :=
  if first < 0x80 then 1
  else if first < 0xC2 then 0
  else if first < 0xE0 then 2
  else if first < 0xF0 then 3
  else if first < 0xF5 then 4
  else 0

def isTail (b : UInt8) : Bool := 0x80 ≤ b && b ≤ 0xBF

def isSecond (first b : UInt8) : Bool :=
  if first = 0xE0 then 0xA0 ≤ b && b ≤ 0xBF
  else if first = 0xED then 0x80 ≤ b && b ≤ 0x9F
  else if first = 0xF0 then 0x90 ≤ b && b ≤ 0xBF
  else if first = 0xF4 then 0x80 ≤ b && b ≤ 0x8F
  else isTail b

def tail (first : UInt8) (rest : List UInt8) : List UInt8 :=
  match rest.take (charWidth first - 1) with
  | [] => []
  | b :: bs => if isSecond first b then b :: bs.takeWhile isTail else []

def leadBits (first : UInt8) : Nat :=
  match charWidth first with
  | 2 => first.toNat % 32
  | 3 => first.toNat % 16
  | 4 => first.toNat % 8
  | _ => first.toNat

def codePoint (first : UInt8) (tail : List UInt8) : Nat :=
  tail.foldl (fun n b => 64 * n + b.toNat % 64) (leadBits first)

def decode (first : UInt8) (rest : List UInt8) : Char :=
  if (tail first rest).length + 1 = charWidth first then Char.ofNat (codePoint first (tail first rest))
  else Char.ofNat 0xFFFD

def chars : Nat → List UInt8 → List Char
  | 0, _ => []
  | _ + 1, [] => []
  | left + 1, first :: rest => decode first rest :: chars left (rest.drop (tail first rest).length)

def fromUtf8Lossy (bytes : List UInt8) : String := String.ofList (chars bytes.length bytes)

theorem length_chars_le (left : Nat) (bytes : List UInt8) : (chars left bytes).length ≤ left := by
  induction left generalizing bytes with
  | zero => exact Nat.le_refl 0
  | succ left ih =>
    cases bytes with
    | nil => exact Nat.zero_le _
    | cons first rest => exact Nat.succ_le_succ (ih _)

theorem length_fromUtf8Lossy_le (bytes : List UInt8) : (fromUtf8Lossy bytes).toList.length ≤ bytes.length := by
  rw [fromUtf8Lossy, String.toList_ofList]
  exact length_chars_le _ _

example : chars 6 [0xE2, 0x82, 0xAC, 0xE2, 0x82, 0x41] = [Char.ofNat 0x20AC, Char.ofNat 0xFFFD, 'A'] := by
  decide

end CloneVmm.Lib.Utf8Lossy
