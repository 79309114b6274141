import CloneVmm.Lib.Run
import Mathlib.Logic.Function.Basic

/-!
The end of `check_pause` of `vmm/vcpu.rs`, where a vCPU waits on a condition variable, against `pause_vcpus` and
`resume_vcpus` of `control/sync_server.rs`. The register states that are captured on the way are left out.
-/

namespace CloneVmm.Control.StuckVcpu

open CloneVmm.Lib

/-- Where a vCPU is. It has `resume_lock` in `testing` and in `waiting`, where it has seen the request and is about
to block; a wait that is over begins again with the lock. -/
inductive VcpuStage
  | guest | capturing | counting | announcing | locking | testing | waiting | blocked
  deriving DecidableEq

/-- What the control socket does next. In `timedOut` it has cleared the request and still has `all_paused_lock`. -/
inductive ControlStage
  | idle | resetStates | resetLock | request | waiting | timedOut | resumeCount | resumeLock | resumeNotify
  deriving DecidableEq

structure WaitSystem (n : Nat) where
  pauseRequested : Bool
  pausedCount : Nat
  allPaused : Bool
  resumeLock : Option (Fin n)
  vcpu : Fin n → VcpuStage
  control : ControlStage

inductive WaitAction (n : Nat)
  | enter (v : Fin n)
  | capture (v : Fin n)
  | count (v : Fin n)
  | announce (v : Fin n)
  | lock (v : Fin n)
  | test (v : Fin n)
  | block (v : Fin n)
  | wakeUp (v : Fin n)
  | resetCount | resetStates | resetLock | request
  | paused
  | timeout | notifyTimeout
  | release | resumeCount | lockResume | notifyResume
  deriving DecidableEq

namespace WaitSystem

variable {n : Nat}

def start (n : Nat) : WaitSystem n where
  pauseRequested := false
  pausedCount := 0
  allPaused := false
  resumeLock := none
  vcpu _ := .guest
  control := .idle

def moveVcpu (s : WaitSystem n) (v : Fin n) (stage : VcpuStage) : WaitSystem n :=
  { s with vcpu := Function.update s.vcpu v stage }

/-- `notify_all` reaches those that are blocked. -/
def notifyAll (s : WaitSystem n) : WaitSystem n :=
  { s with vcpu := fun v => if s.vcpu v = .blocked then .locking else s.vcpu v }

def next (s : WaitSystem n) : WaitAction n → Option (WaitSystem n)
  | .enter v => if s.vcpu v = .guest ∧ s.pauseRequested = true then some (s.moveVcpu v .capturing) else none
  | .capture v => if s.vcpu v = .capturing then some (s.moveVcpu v .counting) else none
  | .count v =>
    if s.vcpu v = .counting then
      some { s.moveVcpu v (if s.pausedCount + 1 ≥ n then .announcing else .locking) with
        pausedCount := s.pausedCount + 1 }
    else none
  | .announce v =>
    if s.vcpu v = .announcing ∧ s.control ≠ .timedOut then some { s.moveVcpu v .locking with allPaused := true }
    else none
  | .lock v =>
    if s.vcpu v = .locking ∧ s.resumeLock = none then some { s.moveVcpu v .testing with resumeLock := some v } else none
  | .test v =>
    if s.vcpu v = .testing then
      if s.pauseRequested then some (s.moveVcpu v .waiting) else some { s.moveVcpu v .guest with resumeLock := none }
    else none
  | .block v => if s.vcpu v = .waiting then some { s.moveVcpu v .blocked with resumeLock := none } else none
  | .wakeUp v => if s.vcpu v = .blocked then some (s.moveVcpu v .locking) else none
  | .resetCount => if s.control = .idle then some { s with pausedCount := 0, control := .resetStates } else none
  | .resetStates => if s.control = .resetStates then some { s with control := .resetLock } else none
  | .resetLock => if s.control = .resetLock then some { s with allPaused := false, control := .request } else none
  | .request => if s.control = .request then some { s with pauseRequested := true, control := .waiting } else none
  | .paused => if s.control = .waiting ∧ s.allPaused = true then some { s with control := .idle } else none
  | .timeout =>
    if s.control = .waiting ∧ s.allPaused = false then some { s with pauseRequested := false, control := .timedOut }
    else none
  | .notifyTimeout => if s.control = .timedOut then some { s.notifyAll with control := .idle } else none
  | .release => if s.control = .idle then some { s with pauseRequested := false, control := .resumeCount } else none
  | .resumeCount => if s.control = .resumeCount then some { s with pausedCount := 0, control := .resumeLock } else none
  | .lockResume =>
    if s.control = .resumeLock ∧ s.resumeLock = none then some { s with control := .resumeNotify } else none
  | .notifyResume => if s.control = .resumeNotify then some { s.notifyAll with control := .idle } else none

def Stuck (s : WaitSystem n) : Prop := s.pauseRequested = false ∧ s.control = .idle ∧ ∃ v, s.vcpu v = .blocked

def Heard (s : WaitSystem n) (a : WaitAction n) : Prop := a = .notifyTimeout → ∀ v, s.vcpu v ≠ .waiting

end WaitSystem

def ControlStage.Notifies (c : ControlStage) : Prop :=
  c = .timedOut ∨ c = .resumeCount ∨ c = .resumeLock ∨ c = .resumeNotify

/-- A notification is still to come, and not yet past the lock. -/
def ControlStage.Early (c : ControlStage) : Prop := c = .timedOut ∨ c = .resumeCount ∨ c = .resumeLock

instance (c : ControlStage) : Decidable c.Notifies := inferInstanceAs (Decidable (_ ∨ _))

instance (c : ControlStage) : Decidable c.Early := inferInstanceAs (Decidable (_ ∨ _))

theorem ControlStage.Early.notifies {c : ControlStage} (h : c.Early) : c.Notifies := by
  rcases h with h | h | h
  · exact .inl h
  · exact .inr (.inl h)
  · exact .inr (.inr (.inl h))

namespace WaitSystem

variable {n : Nat}

/-- With no pause requested, who is blocked or about to block will be notified. -/
structure Inv (s : WaitSystem n) : Prop where
  locked : ∀ v, s.vcpu v = .testing ∨ s.vcpu v = .waiting → s.resumeLock = some v
  blocked : s.pauseRequested = false → ∀ v, s.vcpu v = .blocked → s.control.Notifies
  waiting : s.pauseRequested = false → ∀ v, s.vcpu v = .waiting → s.control.Early
  cleared : s.control.Notifies → s.pauseRequested = false

section Moves

variable {s t : WaitSystem n} {v : Fin n} {stage : VcpuStage}

@[simp] theorem moveVcpu_self (s : WaitSystem n) (v : Fin n) (stage : VcpuStage) : (s.moveVcpu v stage).vcpu v = stage :=
  Function.update_self _ _ _

theorem moveVcpu_of_ne {u : Fin n} (h : u ≠ v) : (s.moveVcpu v stage).vcpu u = s.vcpu u := Function.update_of_ne h _ _

theorem moveVcpu_cases {u : Fin n} {stage' : VcpuStage} (h : (s.moveVcpu v stage).vcpu u = stage') :
    u = v ∧ stage = stage' ∨ s.vcpu u = stage' := by
  by_cases hu : u = v
  · subst hu
    exact .inl ⟨rfl, by rwa [moveVcpu_self] at h⟩
  · exact .inr (by rwa [moveVcpu_of_ne hu] at h)

theorem notifyAll_ne_blocked (s : WaitSystem n) (v : Fin n) : s.notifyAll.vcpu v ≠ .blocked := by
  unfold notifyAll
  dsimp only
  split
  · decide
  · assumption

theorem notifyAll_eq {u : Fin n} (hstage : stage ≠ .locking) (h : s.notifyAll.vcpu u = stage) : s.vcpu u = stage := by
  unfold notifyAll at h
  dsimp only at h
  split at h
  · exact absurd h.symm hstage
  · exact h

theorem Inv.move (h : s.Inv) (hlocked : stage ≠ .testing ∧ stage ≠ .waiting) (hblocked : stage ≠ .blocked) :
    (s.moveVcpu v stage).Inv where
  locked u hu := by
    have hold : s.vcpu u = .testing ∨ s.vcpu u = .waiting := by
      rcases hu with hu | hu
      · exact (moveVcpu_cases hu).elim (fun h => absurd h.2 hlocked.1) .inl
      · exact (moveVcpu_cases hu).elim (fun h => absurd h.2 hlocked.2) .inr
    exact h.locked u hold
  blocked hclear u hu := (moveVcpu_cases hu).elim (fun h => absurd h.2 hblocked) (h.blocked hclear u)
  waiting hclear u hu := (moveVcpu_cases hu).elim (fun h => absurd h.2 hlocked.2) (h.waiting hclear u)
  cleared := h.cleared

theorem Inv.unlock (h : s.Inv) (hv : s.vcpu v = .testing ∨ s.vcpu v = .waiting)
    (hlocked : stage ≠ .testing ∧ stage ≠ .waiting)
    (hblocked : stage = .blocked → s.pauseRequested = false → s.control.Notifies) :
    Inv { s.moveVcpu v stage with resumeLock := none } where
  locked u hu := by
    have hold : s.vcpu u = .testing ∨ s.vcpu u = .waiting := by
      rcases hu with hu | hu
      · exact (moveVcpu_cases hu).elim (fun h => absurd h.2 hlocked.1) .inl
      · exact (moveVcpu_cases hu).elim (fun h => absurd h.2 hlocked.2) .inr
    have hsame : u = v := Option.some.inj ((h.locked u hold).symm.trans (h.locked v hv))
    subst hsame
    exfalso
    rcases hu with hu | hu
    · exact hlocked.1 ((moveVcpu_self s u stage).symm.trans hu)
    · exact hlocked.2 ((moveVcpu_self s u stage).symm.trans hu)
  blocked hclear u hu := (moveVcpu_cases hu).elim (fun h => hblocked h.2 hclear) (h.blocked hclear u)
  waiting hclear u hu := (moveVcpu_cases hu).elim (fun h => absurd h.2 hlocked.2) (h.waiting hclear u)
  cleared := h.cleared

theorem Inv.recount (h : s.Inv) (count : Nat) (all : Bool) : Inv { s with pausedCount := count, allPaused := all } :=
  ⟨h.locked, h.blocked, h.waiting, h.cleared⟩

theorem Inv.lock (h : s.Inv) (hfree : s.resumeLock = none) :
    Inv { s.moveVcpu v .testing with resumeLock := some v } where
  locked u hu := by
    by_cases huv : u = v
    · rw [huv]
    · have hold : s.vcpu u = .testing ∨ s.vcpu u = .waiting := by
        rwa [← @moveVcpu_of_ne _ s v .testing u huv]
      rw [h.locked u hold] at hfree
      cases hfree
  blocked hclear u hu := (moveVcpu_cases hu).elim (fun h => absurd h.2 (by decide)) (h.blocked hclear u)
  waiting hclear u hu := (moveVcpu_cases hu).elim (fun h => absurd h.2 (by decide)) (h.waiting hclear u)
  cleared := h.cleared

theorem Inv.see (h : s.Inv) (hv : s.vcpu v = .testing) (hset : s.pauseRequested = true) : (s.moveVcpu v .waiting).Inv where
  locked u hu := by
    by_cases huv : u = v
    · exact huv ▸ h.locked v (.inl hv)
    · exact h.locked u (by rwa [← @moveVcpu_of_ne _ s v .waiting u huv])
  blocked hclear := absurd (hset.symm.trans hclear) (by decide)
  waiting hclear := absurd (hset.symm.trans hclear) (by decide)
  cleared := h.cleared

theorem not_notifies_idle : ¬ ControlStage.Notifies .idle := by decide

theorem Inv.quiet (h : s.Inv) (hs : ¬ s.control.Notifies) {count : Nat} {all : Bool} {control : ControlStage}
    (hcontrol : ¬ control.Notifies) : Inv { s with pausedCount := count, allPaused := all, control := control } where
  locked := h.locked
  blocked hclear v hv := absurd (h.blocked hclear v hv) hs
  waiting hclear v hv := absurd (h.waiting hclear v hv).notifies hs
  cleared hc := absurd hc hcontrol

theorem Inv.set (h : s.Inv) {control : ControlStage} (hcontrol : ¬ control.Notifies) :
    Inv { s with pauseRequested := true, control := control } where
  locked := h.locked
  blocked hclear := by cases hclear
  waiting hclear := by cases hclear
  cleared hc := absurd hc hcontrol

theorem Inv.advance (h : s.Inv) (hs : s.control.Notifies) {control : ControlStage} (hcontrol : control.Early) :
    Inv { s with control := control } where
  locked := h.locked
  blocked _ _ _ := hcontrol.notifies
  waiting _ _ _ := hcontrol
  cleared _ := h.cleared hs

theorem Inv.lockResume (h : s.Inv) (hs : s.control = .resumeLock) (hfree : s.resumeLock = none) :
    Inv { s with control := .resumeNotify } where
  locked := h.locked
  blocked _ _ _ := .inr (.inr (.inr rfl))
  waiting _ v hv := by
    have hlock := h.locked v (.inr hv)
    rw [hfree] at hlock
    cases hlock
  cleared _ := h.cleared (by rw [hs]; decide)

theorem Inv.clear (h : s.Inv) {control : ControlStage} (hcontrol : control.Early) :
    Inv { s with pauseRequested := false, control := control } where
  locked := h.locked
  blocked _ _ _ := hcontrol.notifies
  waiting _ _ _ := hcontrol
  cleared _ := rfl

theorem Inv.notifyAll (h : s.Inv) (hwaiting : ∀ v, s.vcpu v ≠ .waiting) :
    Inv { s.notifyAll with control := .idle } where
  locked v hv := by
    refine h.locked v ?_
    rcases hv with hv | hv
    · exact .inl (notifyAll_eq (by decide) hv)
    · exact .inr (notifyAll_eq (by decide) hv)
  blocked _ v hv := absurd hv (notifyAll_ne_blocked s v)
  waiting _ v hv := absurd (notifyAll_eq (by decide) hv) (hwaiting v)
  cleared hidle := absurd hidle not_notifies_idle

theorem Inv.start (n : Nat) : Inv (start n) where
  locked _ hv := by rcases hv with hv | hv <;> cases hv
  blocked _ _ hv := by cases hv
  waiting _ _ hv := by cases hv
  cleared hidle := absurd hidle not_notifies_idle

end Moves

section Steps

variable {s t : WaitSystem n} {a : WaitAction n}

theorem Inv.step (h : s.Inv) (hstep : s.next a = some t) (hheard : s.Heard a) : t.Inv := by
  cases a with
  | enter v =>
    simp only [next, Option.ite_none_right_eq_some, Option.some_inj] at hstep
    obtain ⟨-, rfl⟩ := hstep
    exact h.move (by decide) (by decide)
  | capture v =>
    simp only [next, Option.ite_none_right_eq_some, Option.some_inj] at hstep
    obtain ⟨-, rfl⟩ := hstep
    exact h.move (by decide) (by decide)
  | count v =>
    simp only [next, Option.ite_none_right_eq_some, Option.some_inj] at hstep
    obtain ⟨-, rfl⟩ := hstep
    refine (@Inv.move n s v (if s.pausedCount + 1 ≥ n then .announcing else .locking) h ?_ ?_).recount _ _
    · split <;> decide
    · split <;> decide
  | announce v =>
    simp only [next, Option.ite_none_right_eq_some, Option.some_inj] at hstep
    obtain ⟨-, rfl⟩ := hstep
    exact (h.move (by decide) (by decide)).recount _ _
  | lock v =>
    simp only [next, Option.ite_none_right_eq_some, Option.some_inj] at hstep
    obtain ⟨hguard, rfl⟩ := hstep
    exact h.lock hguard.2
  | test v =>
    simp only [next, Option.ite_none_right_eq_some] at hstep
    obtain ⟨hguard, hstep⟩ := hstep
    split at hstep
    · cases hstep
      exact h.see hguard ‹_›
    · cases hstep
      exact h.unlock (.inl hguard) (by decide) fun h => absurd h (by decide)
  | block v =>
    simp only [next, Option.ite_none_right_eq_some, Option.some_inj] at hstep
    obtain ⟨hguard, rfl⟩ := hstep
    exact h.unlock (.inr hguard) (by decide) fun _ hclear => (h.waiting hclear v hguard).notifies
  | wakeUp v =>
    simp only [next, Option.ite_none_right_eq_some, Option.some_inj] at hstep
    obtain ⟨-, rfl⟩ := hstep
    exact h.move (by decide) (by decide)
  | resetCount =>
    simp only [next, Option.ite_none_right_eq_some, Option.some_inj] at hstep
    obtain ⟨hguard, rfl⟩ := hstep
    exact h.quiet (by rw [hguard]; decide) (by decide)
  | resetStates =>
    simp only [next, Option.ite_none_right_eq_some, Option.some_inj] at hstep
    obtain ⟨hguard, rfl⟩ := hstep
    exact h.quiet (by rw [hguard]; decide) (by decide)
  | resetLock =>
    simp only [next, Option.ite_none_right_eq_some, Option.some_inj] at hstep
    obtain ⟨hguard, rfl⟩ := hstep
    exact h.quiet (by rw [hguard]; decide) (by decide)
  | request =>
    simp only [next, Option.ite_none_right_eq_some, Option.some_inj] at hstep
    obtain ⟨-, rfl⟩ := hstep
    exact h.set (by decide)
  | paused =>
    simp only [next, Option.ite_none_right_eq_some, Option.some_inj] at hstep
    obtain ⟨hguard, rfl⟩ := hstep
    exact h.quiet (by rw [hguard.1]; decide) (by decide)
  | timeout =>
    simp only [next, Option.ite_none_right_eq_some, Option.some_inj] at hstep
    obtain ⟨-, rfl⟩ := hstep
    exact h.clear (.inl rfl)
  | notifyTimeout =>
    simp only [next, Option.ite_none_right_eq_some, Option.some_inj] at hstep
    obtain ⟨-, rfl⟩ := hstep
    exact h.notifyAll (hheard rfl)
  | release =>
    simp only [next, Option.ite_none_right_eq_some, Option.some_inj] at hstep
    obtain ⟨-, rfl⟩ := hstep
    exact h.clear (.inr (.inl rfl))
  | resumeCount =>
    simp only [next, Option.ite_none_right_eq_some, Option.some_inj] at hstep
    obtain ⟨hguard, rfl⟩ := hstep
    exact (h.advance (by rw [hguard]; decide) (.inr (.inr rfl))).recount _ _
  | lockResume =>
    simp only [next, Option.ite_none_right_eq_some, Option.some_inj] at hstep
    obtain ⟨hguard, rfl⟩ := hstep
    exact h.lockResume hguard.1 hguard.2
  | notifyResume =>
    simp only [next, Option.ite_none_right_eq_some, Option.some_inj] at hstep
    obtain ⟨hguard, rfl⟩ := hstep
    have hclear := h.cleared (by rw [hguard]; decide)
    refine h.notifyAll fun v hv => ?_
    have hearly := h.waiting hclear v hv
    rw [hguard] at hearly
    revert hearly
    decide

theorem Inv.not_stuck (h : s.Inv) : ¬ s.Stuck := by
  rintro ⟨hclear, hidle, v, hv⟩
  have hnotifies := h.blocked hclear v hv
  rw [hidle] at hnotifies
  exact not_notifies_idle hnotifies

theorem block_stuck {v : Fin n} (hstep : s.next .notifyTimeout = some t) (hclear : s.pauseRequested = false)
    (hv : s.vcpu v = .waiting) : ∃ u, t.next (.block v) = some u ∧ u.Stuck := by
  simp only [next, Option.ite_none_right_eq_some, Option.some_inj] at hstep
  obtain ⟨-, rfl⟩ := hstep
  have hstill : s.notifyAll.vcpu v = .waiting := by
    rw [WaitSystem.notifyAll]
    dsimp only
    rw [hv]
    rfl
  refine ⟨_, if_pos hstill, hclear, rfl, v, ?_⟩
  exact moveVcpu_self _ _ _

end Steps

instance (s : WaitSystem n) (a : WaitAction n) : Decidable (s.Heard a) :=
  inferInstanceAs (Decidable (a = .notifyTimeout → ∀ v, s.vcpu v ≠ .waiting))

/-- In every run in which the pauses that time out are heard, no state has a stuck vCPU; and a vCPU that does not
hear one is stuck with its next step. -/
theorem no_stuck (n : Nat) :
    (∀ as t, Steps (fun s a t => s.next a = some t ∧ s.Heard a) (start n) as t → ¬ t.Stuck) ∧
    ∀ (s t : WaitSystem n) (v : Fin n), s.next .notifyTimeout = some t → s.pauseRequested = false →
      s.vcpu v = .waiting → ∃ u, t.next (.block v) = some u ∧ u.Stuck := by
  constructor
  · intro as t hrun
    have hinv : t.Inv := hrun.invariant (fun _ _ _ ha hs => hs.step ha.1 ha.2) (Inv.start n)
    exact hinv.not_stuck
  · intro s t v hstep hclear hv
    exact block_stuck hstep hclear hv

/-- Of two vCPUs one is blocked when the pause times out. -/
def timeoutHeard (v : Fin n) : List (WaitAction n) :=
  [.resetCount, .resetStates, .resetLock, .request, .enter v, .capture v, .count v, .lock v, .test v, .block v,
    .timeout, .notifyTimeout, .lock v, .test v]

theorem no_stuck_heard :
    ∃ t, Steps.trace next Heard (start 2) (timeoutHeard 0) = some t ∧ t.vcpu 0 = .guest ∧ ¬ t.Stuck := by
  obtain ⟨t, ht⟩ : ∃ t, Steps.trace next Heard (start 2) (timeoutHeard 0) = some t :=
    Option.isSome_iff_exists.mp (by decide)
  have hguest : (Steps.trace next Heard (start 2) (timeoutHeard 0)).map (fun t => t.vcpu 0) = some .guest := by
    decide
  rw [ht, Option.map_some, Option.some_inj] at hguest
  exact ⟨t, ht, hguest, (no_stuck 2).1 _ _ (Steps.of_trace ht)⟩

/-- It has tested the request and not yet blocked when the pause times out. -/
def timeoutMissed (v : Fin n) : List (WaitAction n) :=
  [.resetCount, .resetStates, .resetLock, .request, .enter v, .capture v, .count v, .lock v, .test v, .timeout,
    .notifyTimeout, .block v]

theorem stuck_missed : ∃ t, Steps (fun s a t => s.next a = some t) (start 2) (timeoutMissed 0) t ∧ t.Stuck := by
  obtain ⟨t, ht⟩ : ∃ t, Steps.trace next (fun _ _ => True) (start 2) (timeoutMissed 0) = some t :=
    Option.isSome_iff_exists.mp (by decide)
  have hend : (Steps.trace next (fun _ _ => True) (start 2) (timeoutMissed 0)).map
      (fun t => (t.pauseRequested, t.control, t.vcpu 0)) = some (false, .idle, .blocked) := by
    decide
  rw [ht, Option.map_some, Option.some_inj, Prod.mk.injEq, Prod.mk.injEq] at hend
  exact ⟨t, (Steps.of_trace ht).mono fun _ _ _ h => h.1, hend.1, hend.2.1, 0, hend.2.2⟩

end WaitSystem

end CloneVmm.Control.StuckVcpu
