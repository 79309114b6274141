import Mathlib.Data.Fintype.Card
import Mathlib.Data.Finset.Card
import CloneVmm.Boot.Snapshot
import CloneVmm.Lib.Run

/-!
`pause_vcpus` and `resume_vcpus` of `control/sync_server.rs` and `check_pause` of `vmm/vcpu.rs`: the
thread of the control socket and the threads of the vCPUs take their steps in any order. A step is one
access to what they share.
-/

namespace CloneVmm.Control

open CloneVmm.Lib CloneVmm.Boot

/-- Where a vCPU is. After `capturing` come the parts of `check_pause`; `announcing` is reached by one
that was counted last. In `parked` it waits as long as the pause is requested. -/
inductive VcpuPc
  | guest | capturing | counting | announcing | parked
  deriving DecidableEq

/-- What the control socket does next: the parts of `pause_vcpus`, and `resuming` for the rest of
`resume_vcpus`. -/
inductive ControlPc
  | idle | resetStates | resetLock | request | waiting | resuming
  deriving DecidableEq

/-- `held` records that a pause has returned `Ok` and `resume_vcpus` was not called since. -/
structure PauseSystem (n : Nat) where
  pauseRequested : Bool
  pausedCount : Nat
  allPaused : Bool
  capturedStates : Fin n → Option VcpuState
  vcpu : Fin n → VcpuPc
  control : ControlPc
  held : Bool

inductive PauseAction (n : Nat)
  | runGuest (v : Fin n)
  | seeRequest (v : Fin n)
  | capture (v : Fin n) (state : Option VcpuState)
  | count (v : Fin n)
  | announce (v : Fin n)
  | leave (v : Fin n)
  | resetCount | resetStates | resetLock | request
  | paused
  | timeout
  | release | resumeCount

namespace PauseSystem

variable {n : Nat}

def start (n : Nat) : PauseSystem n where
  pauseRequested := false
  pausedCount := 0
  allPaused := false
  capturedStates _ := none
  vcpu _ := .guest
  control := .idle
  held := false

def moveVcpu (s : PauseSystem n) (v : Fin n) (pc : VcpuPc) : PauseSystem n :=
  { s with vcpu := Function.update s.vcpu v pc }

def setCaptured (s : PauseSystem n) (v : Fin n) (state : Option VcpuState) : PauseSystem n :=
  { s with capturedStates := Function.update s.capturedStates v (state.or (s.capturedStates v)) }

def next (s : PauseSystem n) : PauseAction n → Option (PauseSystem n)
  | .runGuest v => if s.vcpu v = .guest then some s else none
  | .seeRequest v => if s.vcpu v = .guest ∧ s.pauseRequested = true then some (s.moveVcpu v .capturing) else none
  | .capture v state =>
    if s.vcpu v = .capturing then some ((s.setCaptured v state).moveVcpu v .counting) else none
  | .count v =>
    if s.vcpu v = .counting then
      some { s.moveVcpu v (if s.pausedCount + 1 ≥ n then .announcing else .parked) with pausedCount := s.pausedCount + 1 }
    else none
  | .announce v => if s.vcpu v = .announcing then some { s.moveVcpu v .parked with allPaused := true } else none
  | .leave v => if s.vcpu v = .parked ∧ s.pauseRequested = false then some (s.moveVcpu v .guest) else none
  | .resetCount => if s.control = .idle then some { s with pausedCount := 0, control := .resetStates } else none
  | .resetStates =>
    if s.control = .resetStates then some { s with capturedStates := fun _ => none, control := .resetLock } else none
  | .resetLock => if s.control = .resetLock then some { s with allPaused := false, control := .request } else none
  | .request => if s.control = .request then some { s with pauseRequested := true, control := .waiting } else none
  | .paused => if s.control = .waiting ∧ s.allPaused = true then some { s with control := .idle, held := true } else none
  | .timeout =>
    if s.control = .waiting ∧ s.allPaused = false then some { s with pauseRequested := false, control := .idle } else none
  | .release =>
    if s.control = .idle then some { s with pauseRequested := false, control := .resuming, held := false } else none
  | .resumeCount => if s.control = .resuming then some { s with pausedCount := 0, control := .idle } else none

def Step (s : PauseSystem n) (a : PauseAction n) (t : PauseSystem n) : Prop := s.next a = some t

/-- A pause begins with the request clear and no vCPU on the way to being counted, and none is about to
announce an earlier pause when the lock is reset. -/
def Clean (s : PauseSystem n) : PauseAction n → Prop
  | .resetCount => s.pauseRequested = false ∧ ∀ v, s.vcpu v ≠ .capturing ∧ s.vcpu v ≠ .counting
  | .resetLock => ∀ v, s.vcpu v ≠ .announcing
  | _ => True

def settled (s : PauseSystem n) : Finset (Fin n) :=
  Finset.univ.filter fun v => s.vcpu v = .announcing ∨ s.vcpu v = .parked

structure Counted (s : PauseSystem n) : Prop where
  le : s.pausedCount ≤ s.settled.card
  last : ∀ v, s.vcpu v = .announcing → n ≤ s.pausedCount ∧ s.allPaused = false ∧ ∀ u, s.vcpu u = .announcing → u = v
  full : s.allPaused = true → n ≤ s.pausedCount

structure Inv (s : PauseSystem n) : Prop where
  requested : s.pauseRequested = true → s.control = .waiting ∨ s.held = true
  held : s.held = true → s.control = .idle ∧ s.pauseRequested = true ∧ ∀ v, s.vcpu v = .parked
  quiet : s.control = .resetStates ∨ s.control = .resetLock ∨ s.control = .request →
    s.pausedCount = 0 ∧ ∀ v, s.vcpu v ≠ .capturing ∧ s.vcpu v ≠ .counting
  unlocked : s.control = .request → s.allPaused = false ∧ ∀ v, s.vcpu v ≠ .announcing
  waiting : s.control = .waiting → s.pauseRequested = true ∧ s.Counted

section Moves

variable {s t : PauseSystem n} {v : Fin n} {pc : VcpuPc}

@[simp] theorem moveVcpu_self (s : PauseSystem n) (v : Fin n) (pc : VcpuPc) : (s.moveVcpu v pc).vcpu v = pc := by
  simp [moveVcpu]

theorem moveVcpu_of_ne {u : Fin n} (h : u ≠ v) : (s.moveVcpu v pc).vcpu u = s.vcpu u := by
  simp [moveVcpu, h]

theorem mem_settled : v ∈ s.settled ↔ s.vcpu v = .announcing ∨ s.vcpu v = .parked := by simp [settled]

theorem forall_moveVcpu {P : VcpuPc → Prop} (hpc : P pc) (h : ∀ u, P (s.vcpu u)) (u : Fin n) :
    P ((s.moveVcpu v pc).vcpu u) := by
  by_cases hu : u = v
  · subst hu
    rwa [moveVcpu_self]
  · rw [moveVcpu_of_ne hu]
    exact h u

theorem settled_subset_move (hv : s.vcpu v ≠ .announcing ∧ s.vcpu v ≠ .parked) :
    s.settled ⊆ (s.moveVcpu v pc).settled := by
  intro u hu
  rw [mem_settled] at hu ⊢
  have hne : u ≠ v := by
    rintro rfl
    rcases hu with hu | hu
    · exact hv.1 hu
    · exact hv.2 hu
  rwa [moveVcpu_of_ne hne]

theorem card_lt_settled_move (hv : s.vcpu v ≠ .announcing ∧ s.vcpu v ≠ .parked) (hpc : pc = .announcing ∨ pc = .parked) :
    s.settled.card < (s.moveVcpu v pc).settled.card := by
  apply Finset.card_lt_card
  refine Finset.ssubset_iff_of_subset (settled_subset_move hv) |>.mpr ⟨v, ?_, ?_⟩
  · rw [mem_settled, moveVcpu_self]
    exact hpc
  · rw [mem_settled]
    exact fun h => h.elim hv.1 hv.2

theorem Counted.move (h : s.Counted) (hv : s.vcpu v ≠ .announcing ∧ s.vcpu v ≠ .parked) (hpc : pc ≠ .announcing) :
    (s.moveVcpu v pc).Counted where
  le := Nat.le_trans h.le (Finset.card_le_card (settled_subset_move hv))
  last := by
    have hold : ∀ u, (s.moveVcpu v pc).vcpu u = .announcing → s.vcpu u = .announcing := by
      intro u hu
      by_cases heq : u = v
      · subst heq
        rw [moveVcpu_self] at hu
        exact absurd hu hpc
      · rwa [moveVcpu_of_ne heq] at hu
    intro u hu
    obtain ⟨hcount, hlock, honly⟩ := h.last u (hold u hu)
    exact ⟨hcount, hlock, fun w hw => honly w (hold w hw)⟩
  full := h.full

theorem Counted.lt (h : s.Counted) (hv : s.vcpu v ≠ .announcing ∧ s.vcpu v ≠ .parked) : s.pausedCount < n := by
  have hcard : s.settled.card < n := by
    have hlt := Finset.card_lt_univ_of_notMem (s := s.settled) (x := v) (by
      rw [mem_settled]
      exact fun hs => hs.elim hv.1 hv.2)
    rwa [Fintype.card_fin] at hlt
  exact Nat.lt_of_le_of_lt h.le hcard

theorem Counted.count (h : s.Counted) (hv : s.vcpu v = .counting) :
    Counted { s.moveVcpu v (if s.pausedCount + 1 ≥ n then .announcing else .parked) with
      pausedCount := s.pausedCount + 1 } := by
  have hne : s.vcpu v ≠ .announcing ∧ s.vcpu v ≠ .parked := by simp [hv]
  have hlt := h.lt hne
  have hnone : ∀ u, s.vcpu u ≠ .announcing := fun u hu => Nat.not_lt.mpr (h.last u hu).1 hlt
  have hlock : s.allPaused = false := by
    cases hlock : s.allPaused with
    | false => rfl
    | true => exact absurd (h.full hlock) (Nat.not_le.mpr hlt)
  refine ⟨?_, ?_, ?_⟩
  · refine Nat.lt_of_le_of_lt h.le (card_lt_settled_move hne ?_)
    split
    · exact .inl rfl
    · exact .inr rfl
  · intro u hu
    have hself : ∀ w, (s.moveVcpu v (if s.pausedCount + 1 ≥ n then .announcing else .parked)).vcpu w = .announcing →
        w = v := by
      intro w hw
      by_contra hwv
      rw [moveVcpu_of_ne hwv] at hw
      exact hnone w hw
    have huv := hself u hu
    subst huv
    refine ⟨?_, hlock, hself⟩
    by_contra hle
    change (s.moveVcpu u _).vcpu u = _ at hu
    rw [moveVcpu_self, if_neg hle] at hu
    cases hu
  · intro hfull
    rw [show s.allPaused = true from hfull] at hlock
    cases hlock

theorem Counted.announce (h : s.Counted) (hv : s.vcpu v = .announcing) :
    Counted { s.moveVcpu v .parked with allPaused := true } := by
  obtain ⟨hcount, hlock, honly⟩ := h.last v hv
  refine ⟨Nat.le_trans h.le (Finset.card_le_card ?_), ?_, fun _ => hcount⟩
  · intro u hu
    rw [mem_settled] at hu ⊢
    by_cases huv : u = v
    · subst huv
      exact .inr (moveVcpu_self s u .parked)
    · change (s.moveVcpu v .parked).vcpu u = _ ∨ (s.moveVcpu v .parked).vcpu u = _
      rwa [moveVcpu_of_ne huv]
  · intro u hu
    exfalso
    change (s.moveVcpu v .parked).vcpu u = _ at hu
    by_cases huv : u = v
    · subst huv
      rw [moveVcpu_self] at hu
      cases hu
    · rw [moveVcpu_of_ne huv] at hu
      exact huv (honly u hu)

theorem Counted.parked (h : s.Counted) (hall : s.allPaused = true) (v : Fin n) : s.vcpu v = .parked := by
  have hcard : s.settled = Finset.univ := by
    apply Finset.eq_univ_of_card
    have hle := Finset.card_le_univ s.settled
    rw [Fintype.card_fin] at hle ⊢
    exact Nat.le_antisymm hle (Nat.le_trans (h.full hall) h.le)
  rcases mem_settled.mp (hcard ▸ Finset.mem_univ v) with hv | hv
  · rw [(h.last v hv).2.1] at hall
    cases hall
  · exact hv

end Moves

section Steps

variable {s t : PauseSystem n} {v : Fin n}

theorem Inv.start (n : Nat) : Inv (start n) := by
  refine ⟨?_, ?_, ?_, ?_, ?_⟩ <;> simp [PauseSystem.start]

theorem Inv.not_held (h : s.Inv) (hv : s.vcpu v ≠ .parked) : s.held = false := by
  cases hheld : s.held with
  | false => rfl
  | true => exact absurd ((h.held hheld).2.2 v) hv

theorem Inv.not_held_of_busy (h : s.Inv) (hcontrol : s.control ≠ .idle) : s.held = false := by
  cases hheld : s.held with
  | false => rfl
  | true => exact absurd (h.held hheld).1 hcontrol

theorem Inv.of_vcpu (h : s.Inv) (hheld : s.held = false) (hflag : t.pauseRequested = s.pauseRequested)
    (hcontrol : t.control = s.control) (hheld' : t.held = s.held)
    (hquiet : (s.control = .resetStates ∨ s.control = .resetLock ∨ s.control = .request) →
      t.pausedCount = 0 ∧ ∀ u, t.vcpu u ≠ .capturing ∧ t.vcpu u ≠ .counting)
    (hunlocked : s.control = .request → t.allPaused = false ∧ ∀ u, t.vcpu u ≠ .announcing)
    (hwaiting : s.control = .waiting → t.Counted) : t.Inv where
  requested := by
    rw [hflag, hcontrol, hheld']
    exact h.requested
  held := by
    rw [hheld', hheld]
    intro hfalse
    cases hfalse
  quiet := by rwa [hcontrol]
  unlocked := by rwa [hcontrol]
  waiting := by
    rw [hcontrol, hflag]
    exact fun hw => ⟨(h.waiting hw).1, hwaiting hw⟩

theorem Inv.vcpuStep (h : s.Inv) {a : PauseAction n} (hstep : s.next a = some t)
    (ha : a = .runGuest v ∨ a = .seeRequest v ∨ (∃ state, a = .capture v state) ∨ a = .count v ∨ a = .announce v ∨
      a = .leave v) : t.Inv := by
  rcases ha with rfl | rfl | ⟨state, rfl⟩ | rfl | rfl | rfl
  · simp only [next, Option.ite_none_right_eq_some, Option.some_inj] at hstep
    exact hstep.2 ▸ h
  · simp only [next, Option.ite_none_right_eq_some, Option.some_inj] at hstep
    obtain ⟨⟨hv, hflag⟩, rfl⟩ := hstep
    have hheld := h.not_held (v := v) (by simp [hv])
    have hwaiting : s.control = .waiting := (h.requested hflag).resolve_right (by simp [hheld])
    refine h.of_vcpu hheld rfl rfl rfl (by simp [hwaiting]) (by simp [hwaiting]) fun _ => ?_
    exact (h.waiting hwaiting).2.move (by simp [hv]) (by simp)
  · simp only [next, Option.ite_none_right_eq_some, Option.some_inj] at hstep
    obtain ⟨hv, rfl⟩ := hstep
    have hbusy := fun hq => ((h.quiet hq).2 v).1 hv
    refine h.of_vcpu (h.not_held (v := v) (by simp [hv])) rfl rfl rfl (fun hq => (hbusy hq).elim)
      (fun hq => (hbusy (.inr (.inr hq))).elim) fun hw => ?_
    have hcounted := (h.waiting hw).2
    exact Counted.move (s := s.setCaptured v state) ⟨hcounted.le, hcounted.last, hcounted.full⟩ (by simp [setCaptured, hv])
      (by simp)
  · simp only [next, Option.ite_none_right_eq_some, Option.some_inj] at hstep
    obtain ⟨hv, rfl⟩ := hstep
    have hbusy := fun hq => ((h.quiet hq).2 v).2 hv
    exact h.of_vcpu (h.not_held (v := v) (by simp [hv])) rfl rfl rfl (fun hq => (hbusy hq).elim)
      (fun hq => (hbusy (.inr (.inr hq))).elim) fun hw => (h.waiting hw).2.count hv
  · simp only [next, Option.ite_none_right_eq_some, Option.some_inj] at hstep
    obtain ⟨hv, rfl⟩ := hstep
    refine h.of_vcpu (h.not_held (v := v) (by simp [hv])) rfl rfl rfl (fun hq => ?_) (fun hq => ?_)
      fun hw => (h.waiting hw).2.announce hv
    · obtain ⟨hcount, hvcpus⟩ := h.quiet hq
      exact ⟨hcount, forall_moveVcpu (P := fun pc => pc ≠ .capturing ∧ pc ≠ .counting) (by simp) hvcpus⟩
    · exact absurd hv ((h.unlocked hq).2 v)
  · simp only [next, Option.ite_none_right_eq_some, Option.some_inj] at hstep
    obtain ⟨⟨-, hflag⟩, rfl⟩ := hstep
    have hheld : s.held = false := by
      cases hheld : s.held with
      | false => rfl
      | true => simp [(h.held hheld).2.1] at hflag
    refine h.of_vcpu hheld rfl rfl rfl (fun hq => ?_) (fun hq => ?_) fun hw => ?_
    · obtain ⟨hcount, hvcpus⟩ := h.quiet hq
      exact ⟨hcount, forall_moveVcpu (P := fun pc => pc ≠ .capturing ∧ pc ≠ .counting) (by simp) hvcpus⟩
    · obtain ⟨hlock, hvcpus⟩ := h.unlocked hq
      exact ⟨hlock, forall_moveVcpu (P := fun pc => pc ≠ .announcing) (by simp) hvcpus⟩
    · simp [(h.waiting hw).1] at hflag

theorem Inv.step (h : s.Inv) {a : PauseAction n} (hstep : s.next a = some t) (hclean : s.Clean a) : t.Inv := by
  cases a with
  | runGuest v => exact h.vcpuStep (v := v) hstep (by simp)
  | seeRequest v => exact h.vcpuStep (v := v) hstep (by simp)
  | capture v state => exact h.vcpuStep (v := v) hstep (by simp)
  | count v => exact h.vcpuStep (v := v) hstep (by simp)
  | announce v => exact h.vcpuStep (v := v) hstep (by simp)
  | leave v => exact h.vcpuStep (v := v) hstep (by simp)
  | resetCount =>
    simp only [next, Option.ite_none_right_eq_some, Option.some_inj] at hstep
    obtain ⟨-, rfl⟩ := hstep
    obtain ⟨hflag, hvcpus⟩ := hclean
    refine ⟨?_, ?_, fun _ => ⟨rfl, hvcpus⟩, by simp, by simp⟩
    · simp [hflag]
    · intro hheld
      simp [(h.held hheld).2.1] at hflag
  | resetStates =>
    simp only [next, Option.ite_none_right_eq_some, Option.some_inj] at hstep
    obtain ⟨hcontrol, rfl⟩ := hstep
    have hheld := h.not_held_of_busy (by simp [hcontrol])
    refine ⟨?_, by simp [hheld], fun _ => h.quiet (.inl hcontrol), by simp, by simp⟩
    simpa [hcontrol, hheld] using h.requested
  | resetLock =>
    simp only [next, Option.ite_none_right_eq_some, Option.some_inj] at hstep
    obtain ⟨hcontrol, rfl⟩ := hstep
    have hheld := h.not_held_of_busy (by simp [hcontrol])
    refine ⟨?_, by simp [hheld], fun _ => h.quiet (.inr (.inl hcontrol)), fun _ => ⟨rfl, hclean⟩, by simp⟩
    simpa [hcontrol, hheld] using h.requested
  | request =>
    simp only [next, Option.ite_none_right_eq_some, Option.some_inj] at hstep
    obtain ⟨hcontrol, rfl⟩ := hstep
    have hheld := h.not_held_of_busy (by simp [hcontrol])
    obtain ⟨hcount, -⟩ := h.quiet (.inr (.inr hcontrol))
    obtain ⟨hlock, hvcpus⟩ := h.unlocked hcontrol
    refine ⟨by simp, by simp [hheld], by simp, by simp, fun _ => ⟨rfl, ?_, ?_, ?_⟩⟩
    · exact hcount ▸ Nat.zero_le _
    · exact fun v hv => absurd hv (hvcpus v)
    · simp [hlock]
  | paused =>
    simp only [next, Option.ite_none_right_eq_some, Option.some_inj] at hstep
    obtain ⟨⟨hcontrol, hall⟩, rfl⟩ := hstep
    obtain ⟨hflag, hcounted⟩ := h.waiting hcontrol
    exact ⟨by simp, fun _ => ⟨rfl, hflag, hcounted.parked hall⟩, by simp, by simp, by simp⟩
  | timeout =>
    simp only [next, Option.ite_none_right_eq_some, Option.some_inj] at hstep
    obtain ⟨⟨hcontrol, -⟩, rfl⟩ := hstep
    have hheld := h.not_held_of_busy (by simp [hcontrol])
    exact ⟨by simp, by simp [hheld], by simp, by simp, by simp⟩
  | release =>
    simp only [next, Option.ite_none_right_eq_some, Option.some_inj] at hstep
    obtain ⟨-, rfl⟩ := hstep
    exact ⟨by simp, by simp, by simp, by simp, by simp⟩
  | resumeCount =>
    simp only [next, Option.ite_none_right_eq_some, Option.some_inj] at hstep
    obtain ⟨hcontrol, rfl⟩ := hstep
    have hheld := h.not_held_of_busy (by simp [hcontrol])
    refine ⟨?_, by simp [hheld], by simp, by simp, by simp⟩
    simpa [hcontrol, hheld] using h.requested

end Steps

instance (s : PauseSystem n) (a : PauseAction n) : Decidable (s.Clean a) :=
  match a with
  | .resetCount => inferInstanceAs (Decidable (_ ∧ ∀ _, _))
  | .resetLock => inferInstanceAs (Decidable (∀ _, _))
  | .runGuest _ | .seeRequest _ | .capture _ _ | .count _ | .announce _ | .leave _ | .resetStates | .request | .paused
  | .timeout | .release | .resumeCount => .isTrue trivial

/-- In every run in which the pauses begin cleanly: from the return of `Ok` to the next `resume_vcpus`,
all vCPUs are parked and none runs guest code. -/
theorem pause_parks {n : Nat} {as : List (PauseAction n)} {t : PauseSystem n}
    (hrun : Steps (fun s a t => s.Step a t ∧ s.Clean a) (start n) as t) (hheld : t.held = true) (v : Fin n) :
    t.vcpu v = .parked ∧ t.next (.runGuest v) = none := by
  have hinv : t.Inv := hrun.invariant (fun _ _ _ ha hs => hs.step ha.1 ha.2) (Inv.start n)
  have hparked := (hinv.held hheld).2.2 v
  exact ⟨hparked, by simp [next, hparked]⟩

def pauseOne : List (PauseAction 1) :=
  [.resetCount, .resetStates, .resetLock, .request, .seeRequest 0, .capture 0 (some {}), .count 0, .announce 0, .paused]

theorem pause_parks_one : ∃ t, Steps.trace next Clean (start 1) pauseOne = some t ∧ t.held = true ∧ t.vcpu 0 = .parked := by
  obtain ⟨t, ht⟩ : ∃ t, Steps.trace next Clean (start 1) pauseOne = some t := Option.isSome_iff_exists.mp (by decide)
  have hheld : t.held = true := by
    have hrun : (Steps.trace next Clean (start 1) pauseOne).map held = some true := by decide
    rw [ht, Option.map_some, Option.some_inj] at hrun
    exact hrun
  exact ⟨t, ht, hheld, (pause_parks (Steps.of_trace ht) hheld 0).1⟩

def countTwice : List (PauseAction 2) :=
  [.resetCount, .resetStates, .resetLock, .request, .seeRequest 0, .timeout,
    .resetCount, .capture 0 (some {}), .count 0, .leave 0, .resetStates, .resetLock, .request,
    .seeRequest 0, .capture 0 (some {}), .count 0, .announce 0, .paused]

theorem pause_parks_late : ∃ t, Steps Step (start 2) countTwice t ∧ t.held = true ∧ t.next (.runGuest 1) = some t := by
  obtain ⟨t, ht⟩ : ∃ t, Steps.trace next (fun _ _ => True) (start 2) countTwice = some t :=
    Option.isSome_iff_exists.mp (by decide)
  have hrun : (Steps.trace next (fun _ _ => True) (start 2) countTwice).map (fun t => (t.held, t.vcpu 1)) =
      some (true, .guest) := by
    decide
  rw [ht, Option.map_some, Option.some_inj, Prod.mk.injEq] at hrun
  exact ⟨t, (Steps.of_trace ht).mono fun _ _ _ h => h.1, hrun.1, if_pos hrun.2⟩

def DuringPause (a : PauseAction n) : Prop := a ≠ .paused ∧ a ≠ .timeout ∧ a ≠ .release

def timeoutMessage (s : PauseSystem n) : String :=
  "Timeout waiting for vCPUs to pause (got " ++ toString s.pausedCount ++ "/" ++ toString n ++ ")"

inductive PauseCall (s : PauseSystem n) : Except String Unit → PauseSystem n → Prop
  | ok {as : List (PauseAction n)} {u t : PauseSystem n} :
      Steps (fun s a t => s.Step a t ∧ DuringPause a) s as u → u.Step .paused t → PauseCall s (.ok ()) t
  | timeout {as : List (PauseAction n)} {u t : PauseSystem n} :
      Steps (fun s a t => s.Step a t ∧ DuringPause a) s as u → u.Step .timeout t →
        PauseCall s (.error u.timeoutMessage) t

def ResumeCall (s t : PauseSystem n) : Prop :=
  ∃ as u, s.Step .release u ∧ Steps (fun s a t => s.Step a t ∧ a ≠ .resetCount ∧ a ≠ .release) u as t ∧ t.control = .idle

def snapshotResponse (pause saved : Except String Unit) : Except String Unit :=
  match pause with
  | .error message => .error message
  | .ok () =>
    match saved with
    | .ok () => .ok ()
    | .error e => .error ("Snapshot failed: " ++ e)

def branchResponse (snapshot : Except String Unit) (forked : Except String Nat) : Except String Nat :=
  match snapshot with
  | .error message => .error ("Branch: snapshot failed: " ++ message)
  | .ok () =>
    match forked with
    | .ok pid => .ok pid
    | .error e => .error ("Branch: fork spawn failed: " ++ e)

inductive BranchFrom (saved : Except String Unit) (forked : Except String Nat) (s : PauseSystem n) :
    Except String Nat → PauseSystem n → Prop
  | mk {pause : Except String Unit} {u t : PauseSystem n} : s.PauseCall pause u → u.ResumeCall t →
      BranchFrom saved forked s (branchResponse (snapshotResponse pause saved) forked) t

structure Paused (s : PauseSystem n) : Prop where
  idle : s.control = .idle
  requested : s.pauseRequested = true
  parked : ∀ v, s.vcpu v = .parked

structure Repausing (s : PauseSystem n) : Prop where
  requested : s.pauseRequested = true
  parked : ∀ v, s.vcpu v = .parked
  unlocked : s.control = .request ∨ s.control = .waiting → s.allPaused = false

theorem Repausing.step {s t : PauseSystem n} (h : s.Repausing) {a : PauseAction n} (hstep : s.Step a t)
    (ha : DuringPause a) : t.Repausing := by
  obtain ⟨hflag, hparked, hlock⟩ := h
  cases a with
  | runGuest v => simp [Step, next, hparked] at hstep
  | seeRequest v => simp [Step, next, hparked] at hstep
  | capture v state => simp [Step, next, hparked] at hstep
  | count v => simp [Step, next, hparked] at hstep
  | announce v => simp [Step, next, hparked] at hstep
  | leave v => simp [Step, next, hflag] at hstep
  | resetCount =>
    simp only [Step, next, Option.ite_none_right_eq_some, Option.some_inj] at hstep
    obtain ⟨-, rfl⟩ := hstep
    exact ⟨hflag, hparked, by simp⟩
  | resetStates =>
    simp only [Step, next, Option.ite_none_right_eq_some, Option.some_inj] at hstep
    obtain ⟨-, rfl⟩ := hstep
    exact ⟨hflag, hparked, by simp⟩
  | resetLock =>
    simp only [Step, next, Option.ite_none_right_eq_some, Option.some_inj] at hstep
    obtain ⟨-, rfl⟩ := hstep
    exact ⟨hflag, hparked, fun _ => rfl⟩
  | request =>
    simp only [Step, next, Option.ite_none_right_eq_some, Option.some_inj] at hstep
    obtain ⟨hcontrol, rfl⟩ := hstep
    exact ⟨rfl, hparked, fun _ => hlock (.inl hcontrol)⟩
  | paused => exact absurd rfl ha.1
  | timeout => exact absurd rfl ha.2.1
  | release => exact absurd rfl ha.2.2
  | resumeCount =>
    simp only [Step, next, Option.ite_none_right_eq_some, Option.some_inj] at hstep
    obtain ⟨-, rfl⟩ := hstep
    exact ⟨hflag, hparked, by simp⟩

theorem Paused.pauseCall {s t : PauseSystem n} (h : s.Paused) {result : Except String Unit}
    (hcall : s.PauseCall result t) : ∃ message, result = .error message ∧ t.pauseRequested = false := by
  have hstart : s.Repausing := ⟨h.requested, h.parked, by simp [h.idle]⟩
  cases hcall with
  | ok hrun hreturn =>
    have hrepausing := hrun.invariant (P := Repausing) (fun _ _ _ ha hs => hs.step ha.1 ha.2) hstart
    simp only [Step, next, Option.ite_none_right_eq_some] at hreturn
    obtain ⟨⟨hcontrol, hall⟩, -⟩ := hreturn
    rw [hrepausing.unlocked (.inr hcontrol)] at hall
    cases hall
  | timeout hrun hreturn =>
    simp only [Step, next, Option.ite_none_right_eq_some, Option.some_inj] at hreturn
    obtain ⟨-, rfl⟩ := hreturn
    exact ⟨_, rfl, rfl⟩

theorem Paused.pauseCall_timeout {s : PauseSystem n} (h : s.Paused) : ∃ message t, s.PauseCall (.error message) t := by
  let u : PauseSystem n :=
    { s with pauseRequested := true, pausedCount := 0, capturedStates := fun _ => none, allPaused := false,
             control := .waiting }
  have hrun : Steps (fun s a t => s.Step a t ∧ DuringPause a) s [.resetCount, .resetStates, .resetLock, .request] u := by
    refine .cons ⟨if_pos h.idle, by simp [DuringPause]⟩ (.cons ⟨rfl, by simp [DuringPause]⟩ ?_)
    exact .cons ⟨rfl, by simp [DuringPause]⟩ (.cons ⟨rfl, by simp [DuringPause]⟩ (.nil u))
  exact ⟨u.timeoutMessage, { u with pauseRequested := false, control := .idle }, .timeout hrun rfl⟩

/-- Pausing a paused VM never succeeds; nor does `handle_branch`, whatever its I/O does. -/
theorem pause_again_fails {n : Nat} {s : PauseSystem n} (h : s.Paused) :
    (∀ result t, s.PauseCall result t → (∃ message, result = .error message) ∧ ¬ t.Paused) ∧
    (∀ saved forked response t, s.BranchFrom saved forked response t → ∃ message, response = .error message) ∧
    ∃ message t, s.PauseCall (.error message) t := by
  refine ⟨?_, ?_, h.pauseCall_timeout⟩
  · intro result t hcall
    obtain ⟨message, hresult, hflag⟩ := h.pauseCall hcall
    refine ⟨⟨message, hresult⟩, fun hpaused => ?_⟩
    simp [hpaused.requested] at hflag
  · rintro saved forked _ t ⟨hcall, -⟩
    obtain ⟨message, rfl, -⟩ := h.pauseCall hcall
    exact ⟨_, rfl⟩

theorem pauseOne_paused : ∃ s, Steps Step (start 1) pauseOne s ∧ s.Paused := by
  obtain ⟨s, hs⟩ : ∃ s, Steps.trace next Clean (start 1) pauseOne = some s := Option.isSome_iff_exists.mp (by decide)
  have hrun : (Steps.trace next Clean (start 1) pauseOne).map (fun s => (s.control, s.pauseRequested, s.vcpu 0)) =
      some (.idle, true, .parked) := by decide
  rw [hs, Option.map_some, Option.some_inj, Prod.mk.injEq, Prod.mk.injEq] at hrun
  obtain ⟨hidle, hrequested, hparked⟩ := hrun
  refine ⟨s, (Steps.of_trace hs).mono fun _ _ _ h => h.1, hidle, hrequested, fun v => ?_⟩
  rw [Subsingleton.elim v 0]
  exact hparked

theorem pause_again_fails_one : ∃ s, Steps Step (start 1) pauseOne s ∧ s.Paused ∧ ¬ ∃ t, s.PauseCall (.ok ()) t := by
  obtain ⟨s, hrun, hpaused⟩ := pauseOne_paused
  refine ⟨s, hrun, hpaused, ?_⟩
  rintro ⟨t, hcall⟩
  obtain ⟨⟨message, hresult⟩, -⟩ := (pause_again_fails hpaused).1 _ _ hcall
  cases hresult

theorem pause_again_one : ∃ s message t, Steps Step (start 1) pauseOne s ∧ s.Paused ∧
    s.PauseCall (.error message) t ∧ t.pauseRequested = false ∧
    ∃ t', s.BranchFrom (.ok ()) (.ok 1) (.error ("Branch: snapshot failed: " ++ message)) t' := by
  obtain ⟨s, hrun, hpaused⟩ := pauseOne_paused
  obtain ⟨message, t, hcall⟩ := hpaused.pauseCall_timeout
  obtain ⟨-, -, hflag⟩ := hpaused.pauseCall hcall
  have hidle : t.control = .idle := by
    cases hcall with
    | timeout hsteps hreturn =>
      simp only [Step, next, Option.ite_none_right_eq_some, Option.some_inj] at hreturn
      rw [← hreturn.2]
  have hresume : t.ResumeCall { t with pauseRequested := false, held := false, pausedCount := 0, control := .idle } := by
    refine ⟨[.resumeCount], _, if_pos hidle, .cons ⟨rfl, by simp⟩ (.nil _), rfl⟩
  exact ⟨s, message, t, hrun, hpaused, hcall, hflag, _, .mk hcall hresume⟩

end PauseSystem

end CloneVmm.Control
