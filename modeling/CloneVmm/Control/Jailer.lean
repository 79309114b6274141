import CloneVmm.Lib.ClassicBpf

/-!
`control/jailer.rs`: the seccomp program that `build_filter` makes of an allowlist.
-/

namespace CloneVmm.Control

open CloneVmm.Lib ClassicBpf

def bpfLd : UInt16 := 0x00
def bpfW : UInt16 := 0x00
def bpfAbs : UInt16 := 0x20
def bpfJmp : UInt16 := 0x05
def bpfJeq : UInt16 := 0x10
def bpfRet : UInt16 := 0x06
def bpfK : UInt16 := 0x00

def seccompRetAllow : UInt32 := 0x7fff0000
def seccompRetKillThread : UInt32 := 0

def seccompDataNrOffset : UInt32 := 0

def bpfStmt (code : UInt16) (k : UInt32) : SockFilter := ⟨code, 0, 0, k⟩

def bpfJump (code : UInt16) (k : UInt32) (jt jf : UInt8) : SockFilter := ⟨code, jt, jf, k⟩

def buildFilter (allowed : List Int32) : List SockFilter :=
  let n := allowed.length
  [bpfStmt (bpfLd ||| bpfW ||| bpfAbs) seccompDataNrOffset]
    ++ allowed.zipIdx.map (fun (syscallNr, i) =>
      bpfJump (bpfJmp ||| bpfJeq ||| bpfK) syscallNr.toUInt32 (UInt8.ofNat (n - i)) 0)
    ++ [bpfStmt (bpfRet ||| bpfK) seccompRetKillThread, bpfStmt (bpfRet ||| bpfK) seccompRetAllow]

/-- `struct seccomp_data`: the syscall number at offset 0, and the words behind it. -/
structure SeccompData where
  nr : Int32
  word : UInt32 → Option UInt32

def SeccompData.load (data : SeccompData) (offset : UInt32) : Option UInt32 :=
  if offset = 0 then some data.nr.toUInt32 else data.word offset

def runFilter (allowed : List Int32) (data : SeccompData) : Outcome := run data.load (buildFilter allowed) 0

def checks : List Int32 → List SockFilter
  | [] => []
  | nr :: rest => bpfJump 0x15 nr.toUInt32 (UInt8.ofNat (rest.length + 1)) 0 :: checks rest

def verdicts : List SockFilter := [bpfStmt 0x06 seccompRetKillThread, bpfStmt 0x06 seccompRetAllow]

theorem checks_length (nrs : List Int32) : (checks nrs).length = nrs.length := by
  induction nrs with
  | nil => rfl
  | cons nr nrs ih => rw [checks, List.length_cons, List.length_cons, ih]

theorem drop_checks (nrs : List Int32) (d : Nat) : (checks nrs).drop d = checks (nrs.drop d) := by
  induction nrs generalizing d with
  | nil => simp [checks]
  | cons nr nrs ih =>
    cases d with
    | zero => rfl
    | succ d => exact ih d

theorem map_zipIdx_checks (nrs : List Int32) (i : Nat) :
    (nrs.zipIdx i).map (fun p =>
        bpfJump (bpfJmp ||| bpfJeq ||| bpfK) p.1.toUInt32 (UInt8.ofNat (nrs.length + i - p.2)) 0) =
      checks nrs := by
  induction nrs generalizing i with
  | nil => rfl
  | cons nr nrs ih =>
    rw [List.zipIdx_cons, List.map_cons, checks, ← ih (i + 1), List.length_cons]
    congr 1
    · rw [Nat.add_sub_cancel]
      rfl
    · have hlen : nrs.length + 1 + i = nrs.length + (i + 1) := by omega
      rw [hlen]

theorem buildFilter_eq (allowed : List Int32) :
    buildFilter allowed = bpfStmt 0x20 0 :: (checks allowed ++ verdicts) := by
  rw [← map_zipIdx_checks allowed 0]
  rfl

theorem toUInt32_inj {x y : Int32} (h : x.toUInt32 = y.toUInt32) : x = y := by
  cases x
  cases y
  exact congrArg Int32.ofUInt32 h

section Run

variable {load : UInt32 → Option UInt32}

theorem run_verdicts (a : UInt32) : run load verdicts a = .returned seccompRetKillThread := run_return _ a rfl

theorem run_allow (nrs : List Int32) (a : UInt32) :
    run load ((checks nrs ++ verdicts).drop (nrs.length + 1)) a = .returned seccompRetAllow := by
  have hlast : (checks nrs ++ verdicts).drop (nrs.length + 1) = [bpfStmt 0x06 seccompRetAllow] := by
    rw [← List.drop_drop, List.drop_left' (checks_length nrs)]
    rfl
  rw [hlast]
  exact run_return [] a rfl

theorem run_checks (nr : Int32) (nrs : List Int32) :
    run load (checks nrs ++ verdicts) nr.toUInt32 =
      .returned (if nr ∈ nrs.drop (nrs.length - 255) then seccompRetAllow else seccompRetKillThread) := by
  match nrs with
  | [] => exact run_verdicts nr.toUInt32
  | x :: rest =>
    rw [checks, List.cons_append]
    by_cases hx : nr = x
    · subst hx
      have htaken : test 0x15 nr.toUInt32 nr.toUInt32 = some true := congrArg some (beq_self_eq_true nr.toUInt32)
      rw [run_jump _ _ htaken]
      by_cases hshort : rest.length < 255
      · have hdistance : (UInt8.ofNat (rest.length + 1)).toNat = rest.length + 1 :=
          UInt8.toNat_ofNat_of_lt' (by simp only [UInt8.size]; omega)
        have hall : (nr :: rest).length - 255 = 0 := by rw [List.length_cons]; omega
        simp only [if_true, bpfJump, hdistance, hall, List.drop_zero, List.mem_cons_self]
        exact run_allow rest nr.toUInt32
      · -- `as u8` keeps the distance modulo 256: the jump ends at a later comparison, before the last 255
        have hdistance : (UInt8.ofNat (rest.length + 1)).toNat = (rest.length + 1) % 256 := UInt8.toNat_ofNat'
        have hlater : (checks rest ++ verdicts).drop ((rest.length + 1) % 256) =
            checks (rest.drop ((rest.length + 1) % 256)) ++ verdicts := by
          rw [List.drop_append_of_le_length (by rw [checks_length]; omega), drop_checks]
        have hkept : (nr :: rest).drop ((nr :: rest).length - 255) =
            (rest.drop ((rest.length + 1) % 256)).drop ((rest.drop ((rest.length + 1) % 256)).length - 255) := by
          have hskip : (nr :: rest).length - 255 = rest.length - 255 + 1 := by rw [List.length_cons]; omega
          have hsum : (rest.length + 1) % 256 + (rest.length - (rest.length + 1) % 256 - 255) = rest.length - 255 := by
            omega
          rw [hskip, List.drop_succ_cons, List.drop_drop, List.length_drop, hsum]
        simp only [if_true, bpfJump, hdistance]
        rw [hlater, run_checks nr, ← hkept]
    · have hnot : test 0x15 nr.toUInt32 x.toUInt32 = some false :=
        congrArg some (beq_eq_false_iff_ne.mpr fun h => hx (toUInt32_inj h))
      rw [run_jump _ _ hnot, if_neg Bool.false_ne_true]
      have hnext : (checks rest ++ verdicts).drop (0 : UInt8).toNat = checks rest ++ verdicts := rfl
      have hmem : nr ∈ (x :: rest).drop ((x :: rest).length - 255) ↔ nr ∈ rest.drop (rest.length - 255) := by
        by_cases hshort : rest.length < 255
        · have hall : (x :: rest).length - 255 = 0 := by rw [List.length_cons]; omega
          have hall' : rest.length - 255 = 0 := Nat.sub_eq_zero_of_le (Nat.le_of_lt hshort)
          rw [hall, hall', List.drop_zero, List.drop_zero, List.mem_cons, or_iff_right hx]
        · have hskip : (x :: rest).length - 255 = rest.length - 255 + 1 := by rw [List.length_cons]; omega
          rw [hskip, List.drop_succ_cons]
      simp only [bpfJump, hnext, hmem]
      exact run_checks nr rest
termination_by nrs.length
decreasing_by
  all_goals simp only [List.length_drop, List.length_cons]
  all_goals omega

end Run

theorem runFilter_eq (allowed : List Int32) (data : SeccompData) :
    runFilter allowed data = .returned
      (if data.nr ∈ allowed.drop (allowed.length - 255) then seccompRetAllow else seccompRetKillThread) := by
  rw [runFilter, buildFilter_eq, run_load _ _ rfl (if_pos rfl), run_checks]

structure FilterExact (allowed : List Int32) (data : SeccompData) : Prop where
  returns : ∃ value, runFilter allowed data = .returned value
  allows : runFilter allowed data = .returned seccompRetAllow ↔ data.nr ∈ allowed

theorem runFilter_allow_iff (allowed : List Int32) (data : SeccompData) :
    runFilter allowed data = .returned seccompRetAllow ↔ data.nr ∈ allowed.drop (allowed.length - 255) := by
  rw [runFilter_eq, Outcome.returned.injEq]
  constructor
  · intro h
    by_contra hnot
    rw [if_neg hnot] at h
    exact absurd h (by decide)
  · exact fun h => if_pos h

/-- The filter decides a syscall as the allowlist does if and only if an allowed number is one of the
last 255 entries. -/
theorem buildFilter_exact_iff (allowed : List Int32) (data : SeccompData) :
    FilterExact allowed data ↔ (data.nr ∈ allowed → data.nr ∈ allowed.drop (allowed.length - 255)) := by
  constructor
  · exact fun h hmem => (runFilter_allow_iff allowed data).mp (h.allows.mpr hmem)
  · intro h
    refine ⟨⟨_, runFilter_eq allowed data⟩, (runFilter_allow_iff allowed data).trans ⟨List.mem_of_mem_drop, h⟩⟩

theorem buildFilter_exact_fails :
    ¬ FilterExact ((List.range 256).map Int32.ofNat) ⟨0, fun _ => none⟩ := by
  intro h
  have hallow := h.allows.mpr (by decide)
  rw [runFilter_allow_iff] at hallow
  exact absurd hallow (by decide +kernel)

end CloneVmm.Control
