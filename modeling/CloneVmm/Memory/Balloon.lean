import Mathlib.Tactic.Ring
import CloneVmm.Lib.Run

/-!
`memory/balloon.rs` with the balloon-tick thread of `vmm/mod.rs`, the `SetBalloon` request and the
memory limit of a fork: four writers of `num_pages`, the size that the guest's balloon should have.
-/

namespace CloneVmm.Memory

open CloneVmm.Lib

inductive GuestState
  | active
  | idle
  deriving DecidableEq

inductive BalloonAction
  | inflate (pages : Nat)
  | deflate (pages : Nat)
  | hold
  deriving DecidableEq

def BalloonAction.isDeflate : BalloonAction → Bool
  | deflate _ => true
  | _ => false

structure BalloonPolicy where
  balloonPages : Nat
  maxReclaimable : Nat
  floorPages : Nat
  lastActive : Nat
  lastDeflate : Nat
  transitions : List Nat
  state : GuestState
  deriving DecidableEq

def secs (n : Nat) : Nat := n * 1000000000

/-- What the agent has reported when a tick looks, and the time. `memTight` is
`mem_available_pct < 25.0`. -/
structure Report where
  now : Nat
  active : Bool
  memTight : Bool
  deriving DecidableEq

namespace BalloonPolicy

def new (totalPages floorMb now : Nat) : BalloonPolicy where
  balloonPages := 0
  maxReclaimable := totalPages - floorMb * 1024 * 1024 / 4096
  floorPages := floorMb * 1024 * 1024 / 4096
  lastActive := now
  lastDeflate := now
  transitions := []
  state := .active

def cooldownDuration (policy : BalloonPolicy) : Nat := if policy.transitions.length ≥ 3 then secs 180 else secs 60

def observe (policy : BalloonPolicy) (report : Report) : BalloonPolicy :=
  let newState := if report.active then GuestState.active else .idle
  let transitions :=
    if newState ≠ policy.state then (policy.transitions ++ [report.now]).filter fun t => report.now < t + secs 300
    else policy.transitions
  { policy with transitions := transitions, state := newState }

def targetPages (policy : BalloonPolicy) (idleDuration : Nat) : Option Nat :=
  if idleDuration > secs 300 then some policy.maxReclaimable
  else if idleDuration > secs 120 then some (policy.maxReclaimable / 2)
  else if idleDuration > secs 30 then some (policy.maxReclaimable / 4)
  else none

def whenActive (policy : BalloonPolicy) (now : Nat) : BalloonPolicy × BalloonAction :=
  let policy := { policy with lastActive := now }
  if policy.balloonPages > 0 then
    ({ policy with balloonPages := 0, lastDeflate := now }, .deflate policy.balloonPages)
  else (policy, .hold)

def whenIdle (policy : BalloonPolicy) (report : Report) : BalloonPolicy × BalloonAction :=
  if report.now - policy.lastDeflate < policy.cooldownDuration then (policy, .hold)
  else if report.memTight then (policy, .hold)
  else
    match policy.targetPages (report.now - policy.lastActive) with
    | none => (policy, .hold)
    | some target =>
      if target > policy.balloonPages then
        ({ policy with balloonPages := target }, .inflate (target - policy.balloonPages))
      else (policy, .hold)

def reportActivityWithMem (policy : BalloonPolicy) (report : Report) : BalloonPolicy × BalloonAction :=
  let policy := policy.observe report
  match policy.state with
  | .active => policy.whenActive report.now
  | .idle => policy.whenIdle report

end BalloonPolicy

/-- The tick thread: it has decided on a change, and then it has loaded the value that it will change. -/
inductive Tick
  | sleeping
  | decided (action : BalloonAction)
  | loaded (action : BalloonAction) (current : Nat)
  deriving DecidableEq

def Tick.isLoaded : Tick → Bool
  | loaded _ _ => true
  | _ => false

def Tick.isInflating : Tick → Bool
  | decided (.inflate _) => true
  | _ => false

/-- `lastTarget` and `returned` are history: the last value that a request has set, and whether the
last step was the store of a deflate. -/
structure BalloonState where
  numPages : Nat
  policy : BalloonPolicy
  tick : Tick
  lastTarget : Nat
  returned : Bool
  deriving DecidableEq

inductive BalloonStep
  | tick (report : Report)
  | load
  | store
  | setBalloon (targetMb : Nat)
  | forkLimit (limitMb : Nat)
  deriving DecidableEq

def totalPages (memSize : Nat) : Nat := memSize / 4096

def templateMb (memSize : Nat) : Nat := memSize / (1024 * 1024) % 2 ^ 32

def floorMb (memSize : Nat) : Nat := max 512 (templateMb memSize / 2)

def reclaimPages (memSize targetMb : Nat) : Nat :=
  if targetMb < templateMb memSize then (templateMb memSize - targetMb) * 256 % 2 ^ 32 else 0

namespace BalloonState

def start (memSize restored now : Nat) : BalloonState where
  numPages := restored
  policy := .new (totalPages memSize) (floorMb memSize) now
  tick := .sleeping
  lastTarget := restored
  returned := false

def updateTarget (s : BalloonState) (numPages : Nat) : BalloonState :=
  { s with numPages := if s.numPages ≠ numPages then numPages else s.numPages, lastTarget := numPages, returned := false }

def changed (action : BalloonAction) (current : Nat) : Nat :=
  match action with
  | .inflate pages => min (current + pages % 2 ^ 32) (2 ^ 32 - 1)
  | .deflate pages => current - pages % 2 ^ 32
  | .hold => current

def next (memSize : Nat) (s : BalloonState) : BalloonStep → Option BalloonState
  | .tick report =>
    match s.tick with
    | .sleeping =>
      let (policy, action) := s.policy.reportActivityWithMem report
      some { s with
        policy := policy, tick := if action = .hold then .sleeping else .decided action, returned := false }
    | _ => none
  | .load =>
    match s.tick with
    | .decided action => some { s with tick := .loaded action s.numPages, returned := false }
    | _ => none
  | .store =>
    match s.tick with
    | .loaded action current =>
      some { s with
        numPages := changed action current, tick := .sleeping, returned := action.isDeflate }
    | _ => none
  | .setBalloon targetMb => some (s.updateTarget (reclaimPages memSize targetMb))
  | .forkLimit limitMb =>
    if limitMb < templateMb memSize then some (s.updateTarget (reclaimPages memSize limitMb)) else some s

structure Bounded (memSize : Nat) (s : BalloonState) : Prop where
  bound : s.numPages ≤ totalPages memSize
  returns : s.returned = true → s.numPages = s.lastTarget

def applied (s : BalloonState) : Nat :=
  match s.tick with
  | .sleeping => s.policy.balloonPages
  | .decided action => before action
  | .loaded action _ => before action
where
  before : BalloonAction → Nat
    | .inflate pages => s.policy.balloonPages - pages
    | .deflate pages => pages
    | .hold => s.policy.balloonPages

def AcceptsTarget (s : BalloonState) (numPages : Nat) : Prop :=
  if s.tick.isLoaded then numPages = s.lastTarget else numPages = 0 ∨ s.applied = 0

def HasRoom (memSize : Nat) (s : BalloonState) : Prop :=
  s.tick.isInflating = true →
    s.lastTarget + s.policy.balloonPages ≤ totalPages memSize ∧ s.lastTarget + s.policy.balloonPages < 2 ^ 32

def Allowed (memSize : Nat) (s : BalloonState) : BalloonStep → Prop
  | .tick _ => True
  | .load => s.HasRoom memSize
  | .store => True
  | .setBalloon targetMb => s.AcceptsTarget (reclaimPages memSize targetMb)
  | .forkLimit limitMb => limitMb < templateMb memSize → s.AcceptsTarget (reclaimPages memSize limitMb)

instance (s : BalloonState) (numPages : Nat) : Decidable (s.AcceptsTarget numPages) :=
  inferInstanceAs (Decidable (ite _ _ _))

instance (memSize : Nat) (s : BalloonState) : Decidable (s.HasRoom memSize) := inferInstanceAs (Decidable (_ → _))

instance (memSize : Nat) (s : BalloonState) : ∀ step, Decidable (s.Allowed memSize step)
  | .tick _ => inferInstanceAs (Decidable True)
  | .load => inferInstanceAs (Decidable (s.HasRoom memSize))
  | .store => inferInstanceAs (Decidable True)
  | .setBalloon targetMb => inferInstanceAs (Decidable (s.AcceptsTarget (reclaimPages memSize targetMb)))
  | .forkLimit _ => inferInstanceAs (Decidable (_ → _))

variable {memSize : Nat} {s t : BalloonState}

theorem whenActive_cases (policy : BalloonPolicy) (now : Nat) :
    ((policy.whenActive now).2 = .hold ∧ (policy.whenActive now).1.balloonPages = policy.balloonPages) ∨
      ((policy.whenActive now).2 = .deflate policy.balloonPages ∧ (policy.whenActive now).1.balloonPages = 0) := by
  unfold BalloonPolicy.whenActive
  dsimp only
  split
  · exact .inr ⟨rfl, rfl⟩
  · exact .inl ⟨rfl, rfl⟩

theorem whenIdle_cases (policy : BalloonPolicy) (report : Report) :
    ((policy.whenIdle report).2 = .hold ∧ (policy.whenIdle report).1.balloonPages = policy.balloonPages) ∨
      ∃ pages, (policy.whenIdle report).2 = .inflate pages ∧
        (policy.whenIdle report).1.balloonPages = policy.balloonPages + pages := by
  unfold BalloonPolicy.whenIdle
  split
  · exact .inl ⟨rfl, rfl⟩
  split
  · exact .inl ⟨rfl, rfl⟩
  split
  · exact .inl ⟨rfl, rfl⟩
  · split
    · rename_i target _ hgt
      exact .inr ⟨_, rfl, (Nat.add_sub_of_le (Nat.le_of_lt hgt)).symm⟩
    · exact .inl ⟨rfl, rfl⟩

theorem reportActivityWithMem_cases (policy : BalloonPolicy) (report : Report) :
    ((policy.reportActivityWithMem report).2 = .hold ∧
        (policy.reportActivityWithMem report).1.balloonPages = policy.balloonPages) ∨
      ((policy.reportActivityWithMem report).2 = .deflate policy.balloonPages ∧
        (policy.reportActivityWithMem report).1.balloonPages = 0) ∨
      ∃ pages, (policy.reportActivityWithMem report).2 = .inflate pages ∧
        (policy.reportActivityWithMem report).1.balloonPages = policy.balloonPages + pages := by
  unfold BalloonPolicy.reportActivityWithMem
  dsimp only
  split
  · rcases whenActive_cases (policy.observe report) report.now with h | h
    · exact .inl h
    · exact .inr (.inl h)
  · rcases whenIdle_cases (policy.observe report) report with h | h
    · exact .inl h
    · exact .inr (.inr h)

theorem reclaimPages_le (memSize targetMb : Nat) : reclaimPages memSize targetMb ≤ totalPages memSize := by
  unfold reclaimPages
  split
  · have hmod := Nat.mod_le ((templateMb memSize - targetMb) * 256) (2 ^ 32)
    have hmb : templateMb memSize ≤ memSize / (1024 * 1024) := Nat.mod_le _ _
    simp only [totalPages]
    omega
  · exact Nat.zero_le _

def current (s : BalloonState) : Nat :=
  match s.tick with
  | .loaded _ current => current
  | _ => s.numPages

def pending (s : BalloonState) : BalloonAction :=
  match s.tick with
  | .sleeping => .hold
  | .decided action => action
  | .loaded action _ => action

structure Level (s : BalloonState) (base : Nat) : Prop where
  le : base ≤ s.applied
  harmless : base = 0 ∨ s.lastTarget = 0
  eq : s.current = s.lastTarget + (s.applied - base)

structure Tracked (memSize : Nat) (s : BalloonState) : Prop extends Bounded memSize s where
  target : s.lastTarget ≤ totalPages memSize
  fits : s.current ≤ totalPages memSize
  level : ∃ base, s.Level base
  small : s.applied < 2 ^ 32
  inflating : ∀ pages, s.pending = .inflate pages → pages ≤ s.policy.balloonPages
  deflating : ∀ pages, s.pending = .deflate pages → s.policy.balloonPages = 0
  room : ∀ pages current, s.tick = .loaded (.inflate pages) current →
    current + pages ≤ totalPages memSize ∧ current + pages < 2 ^ 32 ∧ s.policy.balloonPages < 2 ^ 32

theorem tracked_start {restored : Nat} (now : Nat) (h : restored ≤ totalPages memSize) :
    Tracked memSize (start memSize restored now) where
  bound := h
  returns := fun _ => rfl
  target := h
  fits := h
  level := ⟨0, Nat.le_refl _, .inl rfl, rfl⟩
  small := show 0 < 2 ^ 32 by decide
  inflating := fun pages hpending => by cases hpending
  deflating := fun pages hpending => by cases hpending
  room := fun pages current hloaded => by cases hloaded

theorem Tracked.of_same (h : Tracked memSize s) (hbound : t.numPages ≤ totalPages memSize)
    (htarget : t.lastTarget = s.lastTarget) (hreturned : t.returned = false) (happlied : t.applied = s.applied)
    (hcurrent : t.current = s.current) (hinflating : ∀ pages, t.pending = .inflate pages → pages ≤ t.policy.balloonPages)
    (hdeflating : ∀ pages, t.pending = .deflate pages → t.policy.balloonPages = 0)
    (hroom : ∀ pages current, t.tick = .loaded (.inflate pages) current →
      current + pages ≤ totalPages memSize ∧ current + pages < 2 ^ 32 ∧ t.policy.balloonPages < 2 ^ 32) :
    Tracked memSize t := by
  obtain ⟨base, hle, hharmless, heq⟩ := h.level
  refine ⟨⟨hbound, ?_⟩, htarget ▸ h.target, hcurrent ▸ h.fits, ⟨base, happlied ▸ hle, htarget ▸ hharmless, ?_⟩,
    happlied ▸ h.small,
    hinflating, hdeflating, hroom⟩
  · intro hreturns
    rw [hreturned] at hreturns
    cases hreturns
  · rw [hcurrent, htarget, happlied, heq]

theorem Tracked.tick (h : Tracked memSize s) {report : Report} (hnext : next memSize s (.tick report) = some t) :
    Tracked memSize t := by
  cases htick : s.tick with
  | decided action => simp [next, htick] at hnext
  | loaded action current => simp [next, htick] at hnext
  | sleeping =>
    simp only [next, htick, Option.some.injEq] at hnext
    subst hnext
    rcases reportActivityWithMem_cases s.policy report with ⟨haction, hp⟩ | ⟨haction, hp⟩ | ⟨pages, haction, hp⟩
    · apply h.of_same
      · exact h.bound
      all_goals simp [applied, current, pending, haction, hp, htick]
    · apply h.of_same
      · exact h.bound
      all_goals simp [applied, applied.before, current, pending, haction, hp, htick]
    · apply h.of_same
      · exact h.bound
      all_goals simp [applied, applied.before, current, pending, haction, hp, htick]

theorem Tracked.load (h : Tracked memSize s) (hroom : s.HasRoom memSize) (hnext : next memSize s .load = some t) :
    Tracked memSize t := by
  cases htick : s.tick with
  | sleeping => simp [next, htick] at hnext
  | loaded action current => simp [next, htick] at hnext
  | decided action =>
    have hpending : s.pending = action := by rw [pending, htick]
    simp only [next, htick, Option.some.injEq] at hnext
    subst hnext
    apply h.of_same
    · exact h.bound
    · rfl
    · rfl
    · simp [applied, applied.before, htick]
    · simp [current, htick]
    · intro pages heq
      exact h.inflating pages (hpending.trans heq)
    · intro pages heq
      exact h.deflating pages (hpending.trans heq)
    · intro pages value heq
      obtain ⟨rfl, rfl⟩ := Tick.loaded.inj heq
      obtain ⟨base, hle, -, hlevel⟩ := h.level
      have hinflating := h.inflating pages hpending
      have hroom := hroom (by rw [htick]; rfl)
      simp only [applied, applied.before, current, htick] at hle hlevel
      simp only
      omega

theorem Tracked.of_stored (h : Tracked memSize s) {numPages base : Nat} {returned : Bool}
    (hbound : numPages ≤ totalPages memSize) (hsmall : s.policy.balloonPages < 2 ^ 32)
    (hle : base ≤ s.policy.balloonPages) (hharmless : base = 0 ∨ s.lastTarget = 0)
    (heq : numPages = s.lastTarget + (s.policy.balloonPages - base))
    (hreturns : returned = true → numPages = s.lastTarget) :
    Tracked memSize { s with numPages := numPages, tick := .sleeping, returned := returned } where
  bound := hbound
  returns := hreturns
  target := h.target
  fits := hbound
  level := ⟨base, hle, hharmless, heq⟩
  small := hsmall
  inflating := fun pages hpending => by cases hpending
  deflating := fun pages hpending => by cases hpending
  room := fun pages current hloaded => by cases hloaded

theorem Tracked.store (h : Tracked memSize s) (hnext : next memSize s .store = some t) : Tracked memSize t := by
  cases htick : s.tick with
  | sleeping => simp [next, htick] at hnext
  | decided action => simp [next, htick] at hnext
  | loaded action value =>
    have hpending : s.pending = action := by rw [pending, htick]
    obtain ⟨base, hle, hharmless, hlevel⟩ := h.level
    have hsmall := h.small
    have hfits := h.fits
    simp only [next, htick, Option.some.injEq] at hnext
    subst hnext
    simp only [applied, current, htick] at hle hlevel hsmall hfits
    cases action with
    | hold => exact h.of_stored hfits hsmall hle hharmless hlevel fun hdeflate => by cases hdeflate
    | inflate pages =>
      obtain ⟨htotal, hu32, hballoon⟩ := h.room pages value htick
      have hinflating := h.inflating pages hpending
      simp only [applied.before] at hle hlevel
      have hchanged : changed (.inflate pages) value = value + pages := by
        simp only [changed]
        omega
      rw [hchanged]
      exact h.of_stored htotal hballoon (by omega) hharmless (by omega) fun hdeflate => by cases hdeflate
    | deflate pages =>
      have hempty := h.deflating pages hpending
      simp only [applied.before] at hle hlevel hsmall
      have hchanged : changed (.deflate pages) value = s.lastTarget := by
        simp only [changed, Nat.mod_eq_of_lt hsmall]
        omega
      rw [hchanged]
      exact h.of_stored h.target (by omega) (Nat.zero_le _) (.inl rfl) (by omega) fun _ => rfl

theorem updateTarget_numPages (s : BalloonState) (numPages : Nat) : (s.updateTarget numPages).numPages = numPages := by
  simp only [updateTarget]
  split
  · rfl
  · exact not_ne_iff.mp ‹_›

theorem Tracked.of_seen (h : Tracked memSize s) {numPages : Nat} (hle : numPages ≤ totalPages memSize)
    (hloaded : ∀ action value, s.tick ≠ .loaded action value)
    (haccepts : numPages = 0 ∨ s.applied = 0) : Tracked memSize (s.updateTarget numPages) := by
  have hpages := updateTarget_numPages s numPages
  have hcurrent : (s.updateTarget numPages).current = numPages := by
    unfold current
    split
    · exact absurd ‹_› (hloaded _ _)
    · exact hpages
  have happlied : (s.updateTarget numPages).applied = s.applied := rfl
  refine ⟨⟨Nat.le_trans (Nat.le_of_eq hpages) hle, fun hreturned => by cases hreturned⟩, hle,
    Nat.le_trans (Nat.le_of_eq hcurrent) hle, ?_, h.small,
    h.inflating, h.deflating, fun pages value htick => absurd htick (hloaded _ _)⟩
  rcases haccepts with hzero | hempty
  · refine ⟨s.applied, Nat.le_refl _, .inr hzero, ?_⟩
    rw [hcurrent, happlied, Nat.sub_self]
    rfl
  · refine ⟨0, Nat.zero_le _, .inl rfl, ?_⟩
    rw [hcurrent, happlied, hempty]
    rfl

theorem Tracked.request (h : Tracked memSize s) {numPages : Nat} (hle : numPages ≤ totalPages memSize)
    (haccepts : s.AcceptsTarget numPages) : Tracked memSize (s.updateTarget numPages) := by
  unfold AcceptsTarget at haccepts
  cases htick : s.tick with
  | loaded action value =>
    rw [htick, if_pos (by rfl)] at haccepts
    have hcurrent : (s.updateTarget numPages).current = s.current := by
      simp only [current, updateTarget, htick]
    exact h.of_same (Nat.le_trans (Nat.le_of_eq (updateTarget_numPages s numPages)) hle) haccepts rfl rfl hcurrent
      h.inflating h.deflating
      h.room
  | sleeping =>
    rw [htick, if_neg (by decide)] at haccepts
    exact h.of_seen hle (by simp [htick]) haccepts
  | decided action =>
    rw [htick, if_neg (by simp [Tick.isLoaded])] at haccepts
    exact h.of_seen hle (by simp [htick]) haccepts

theorem Tracked.next (h : Tracked memSize s) {step : BalloonStep} (hallowed : s.Allowed memSize step)
    (hnext : s.next memSize step = some t) : Tracked memSize t := by
  cases step with
  | tick report => exact h.tick hnext
  | load => exact h.load hallowed hnext
  | store => exact h.store hnext
  | setBalloon targetMb =>
    obtain rfl := Option.some.inj hnext
    exact h.request (reclaimPages_le _ _) hallowed
  | forkLimit limitMb =>
    simp only [BalloonState.next] at hnext
    split at hnext
    · obtain rfl := Option.some.inj hnext
      exact h.request (reclaimPages_le _ _) (hallowed ‹_›)
    · obtain rfl := Option.some.inj hnext
      exact h

end BalloonState

open BalloonState

theorem balloon_bounded (memSize restored now : Nat) (hrestored : restored ≤ totalPages memSize)
    {steps : List BalloonStep} {s : BalloonState}
    (hrun : Steps (fun s a t => s.next memSize a = some t ∧ s.Allowed memSize a) (start memSize restored now) steps s) :
    Bounded memSize s := by
  have htracked : Tracked memSize s :=
    hrun.invariant (fun _ _ _ hstep h => h.next hstep.2 hstep.1) (tracked_start now hrestored)
  exact htracked.toBounded

theorem balloon_bounded_two_gb :
    ∃ s, Steps (fun s a t => s.next 0x80000000 a = some t ∧ s.Allowed 0x80000000 a) (start 0x80000000 0 0)
        [.setBalloon 1536, .tick ⟨secs 400, false, false⟩, .load, .store, .tick ⟨secs 500, true, false⟩, .load, .store] s ∧
      s.returned = true ∧ s.lastTarget = 131072 ∧ Bounded 0x80000000 s := by
  have hrun : Steps.trace (next 0x80000000) (Allowed 0x80000000) (start 0x80000000 0 0)
      [.setBalloon 1536, .tick ⟨secs 400, false, false⟩, .load, .store, .tick ⟨secs 500, true, false⟩, .load, .store] =
      some ⟨131072, ⟨0, 262144, 262144, secs 500, secs 500, [secs 400, secs 500], .active⟩, .sleeping, 131072, true⟩ := by
    decide
  have hsteps := Steps.of_trace hrun
  exact ⟨_, hsteps, rfl, rfl, balloon_bounded 0x80000000 0 0 (by decide) hsteps⟩

theorem balloon_bounded_fails :
    (∃ s, Steps (fun s a t => s.next 0x80000000 a = some t) (start 0x80000000 0 0)
        [.setBalloon 512, .tick ⟨secs 400, false, false⟩, .load, .store] s ∧
      s.numPages = 655360 ∧ totalPages 0x80000000 = 524288 ∧ ¬ Bounded 0x80000000 s) ∧
    ∃ s, Steps (fun s a t => s.next 0x80000000 a = some t) (start 0x80000000 0 0)
        [.tick ⟨secs 400, false, false⟩, .load, .store, .setBalloon 1024, .tick ⟨secs 500, true, false⟩, .load, .store] s ∧
      s.returned = true ∧ s.lastTarget = 262144 ∧ s.numPages = 0 ∧ ¬ Bounded 0x80000000 s := by
  have hover : Steps.trace (next 0x80000000) (fun _ _ => True) (start 0x80000000 0 0)
      [.setBalloon 512, .tick ⟨secs 400, false, false⟩, .load, .store] =
      some ⟨655360, ⟨262144, 262144, 262144, 0, 0, [secs 400], .idle⟩, .sleeping, 393216, false⟩ := by decide
  have hlost : Steps.trace (next 0x80000000) (fun _ _ => True) (start 0x80000000 0 0)
      [.tick ⟨secs 400, false, false⟩, .load, .store, .setBalloon 1024, .tick ⟨secs 500, true, false⟩, .load, .store] =
      some ⟨0, ⟨0, 262144, 262144, secs 500, secs 500, [secs 400, secs 500], .active⟩, .sleeping, 262144, true⟩ := by
    decide
  constructor
  · refine ⟨_, (Steps.of_trace hover).mono fun _ _ _ h => h.1, rfl, rfl, fun h => ?_⟩
    exact absurd h.bound (by decide)
  · refine ⟨_, (Steps.of_trace hlost).mono fun _ _ _ h => h.1, rfl, rfl, rfl, fun h => ?_⟩
    exact absurd (h.returns rfl) (by decide)

end CloneVmm.Memory
