import CloneVmm.Controller.LostUpdates

namespace CloneVmm.Controller

open CloneVmm.Lib

def Pc.run (cfg : ControllerConfig) (id : String) : List (Time × Reply) → View → Pc → Option (View × Pc)
  | [], w, pc => if pc.finished then some (w, pc) else none
  | (now, r) :: steps, w, pc =>
    if pc.finished then none
    else run cfg id steps (pc.step cfg id now r w).toView (pc.step cfg id now r w).pc

def Pc.answered : Pc → Bool
  | done (some (.acquired _ _ _)) => true
  | _ => false

def Pc.acquires : Pc → Bool
  | acquire | coldCreate | coldConfig | createVm _ | doRestore | restoreStart _ | restoreVm _ | fetchGuestIp _ _
  | cleanup _ _ | waitForPort _ _ _ | started _ _ _ | recoverFromSoft | balloonUp _ _ | recovered | fail _ _ | touch _
  | panicked => true
  | done response => !(done response).answered
  | _ => false

def View.failCount (w : View) : Option UInt32 := w.record.map TenantState.healthFailCount

structure Counted where
  view : View
  streak : Nat

/-- `elsewhere` is what the tasks of other tenants make of the daemon. -/
inductive Round
  | cycle (steps : List (Time × Reply))
  | acquire (steps : List (Time × Reply))
  | release (at' : Time) (steps : List (Time × Reply))
  | elsewhere (d : Daemon)

namespace Counted

def streakAfter (cfg : ControllerConfig) (r : Reply) (t : TenantState) (streak : Nat) : Nat :=
  if probes cfg t then if r.isOk then 0 else streak + 1 else streak

def cycle (cfg : ControllerConfig) (id : String) (p : Counted) (t : TenantState) :
    List (Time × Reply) → Option Counted
  | [] => none
  | (now, r) :: steps =>
    if ControllerState.reconciled t && !(reconcileDecision cfg id now (probed cfg now r t)).reclaims then
      (Pc.run cfg id ((now, r) :: steps) p.view (.reconcileTenant t)).map fun w =>
        ⟨w.1, streakAfter cfg r t p.streak⟩
    else none

def next (cfg : ControllerConfig) (id : String) (p : Counted) : Round → Option Counted
  | .cycle steps => p.view.record.bind fun t => p.cycle cfg id t steps
  | .acquire steps =>
    (Pc.run cfg id steps p.view .acquire).map fun w => ⟨w.1, if w.2.answered then 0 else p.streak⟩
  | .release at' steps => (Pc.run cfg id steps p.view (.release at')).map fun w => ⟨w.1, p.streak⟩
  | .elsewhere d => some ⟨{ p.view with daemon := d }, p.streak⟩

structure Consecutive (cfg : ControllerConfig) (id : String) (p : Counted) : Prop where
  stored : ∀ t ∈ p.view.record, t.healthFailCount.toNat = p.streak
  spared : ∀ t ∈ p.view.record, ∀ now r copy v path,
    reconcileDecision cfg id now (probed cfg now r t) = .markSaving copy v path →
      (cfg.hardReclaimAfterSecs.toNat : Int) ≤ idleOf (probed cfg now r t) now ∨
        cfg.healthProbeFailThreshold.toNat ≤ streakAfter cfg r t p.streak

def Recorded (cfg : ControllerConfig) (p : Counted) : Round → Prop
  | .cycle ((_, r) :: _) => ∀ t ∈ p.view.record, probes cfg t = true →
      if r.isOk then t.healthFailCount = 0 else t.healthFailCount + 1 ≠ 0
  | .cycle [] | .acquire _ | .release _ _ | .elsewhere _ => True

end Counted

section Alone

variable {cfg : ControllerConfig} {id : String} {now : Time} {r : Reply} {w w' : View} {pc pc' : Pc}
  {t : TenantState} {steps : List (Time × Reply)}

theorem Pc.not_answered (h : pc.acquires = true) : pc.answered = false := by
  cases pc with
  | done response => exact Bool.not_eq_true' _ ▸ h
  | _ => rfl

theorem Pc.finished_of_answered (h : pc.answered = true) : pc.finished = true := by
  unfold answered at h
  split at h
  · rfl
  · cases h

theorem Pc.run_finished (h : Pc.run cfg id steps w pc = some (w', pc')) (hpc : pc.finished = true) :
    w' = w ∧ pc' = pc := by
  cases steps with
  | nil =>
    rw [run, if_pos hpc, Option.some_inj, Prod.mk.injEq] at h
    exact ⟨h.1.symm, h.2.symm⟩
  | cons step steps =>
    rw [run, if_pos hpc] at h
    cases h

theorem acquireDecision_acquires : (acquireDecision id t).acquires = true := by
  unfold acquireDecision
  split
  case h_7 => split <;> rfl
  all_goals rfl

theorem afterGuestIp_acquires {launch : Launch} {v : VmId} {ip : Option String} :
    (afterGuestIp launch v ip).acquires = true := by
  unfold afterGuestIp
  split
  · rfl
  · split <;> rfl

theorem View.failCount_modify {f : TenantState → TenantState} (n : UInt32 → UInt32)
    (hf : ∀ t, (f t).healthFailCount = n t.healthFailCount) :
    (w.modify f pc).failCount = w.failCount.map n := by
  simp only [failCount, modify, Option.map_map]
  congr 1
  funext t
  exact hf t

theorem View.failCount_keep {f : TenantState → TenantState} (hf : ∀ t, (f t).healthFailCount = t.healthFailCount) :
    (w.modify f pc).failCount = w.failCount :=
  (w.failCount_modify (fun n => n) hf).trans Option.map_id'

def Pc.Counts (w : View) (e : Effect) : Prop :=
  (e.pc.acquires = true ∧ e.failCount = w.failCount) ∨
    (e.pc.answered = true ∧ e.failCount = w.failCount.map fun _ => 0)

theorem Pc.counts_modify {f : TenantState → TenantState} (hf : ∀ t, (f t).healthFailCount = t.healthFailCount)
    (hpc : pc.acquires = true) : Pc.Counts w (w.modify f pc) :=
  .inl ⟨hpc, w.failCount_keep hf⟩

theorem Pc.step_acquires (hpc : pc.acquires = true) : Pc.Counts w (pc.step cfg id now r w) := by
  cases pc with
  | acquire =>
    simp only [step]
    split
    · exact .inl ⟨rfl, rfl⟩
    · exact .inl ⟨acquireDecision_acquires, rfl⟩
  | coldCreate =>
    simp only [step]
    split
    · exact .inl ⟨rfl, rfl⟩
    · exact counts_modify (fun _ => rfl) rfl
  | coldConfig =>
    simp only [step]
    split <;> exact .inl ⟨rfl, rfl⟩
  | createVm c => cases r <;> exact .inl ⟨rfl, rfl⟩
  | doRestore =>
    simp only [step]
    split <;> exact .inl ⟨rfl, rfl⟩
  | restoreStart path =>
    simp only [step]
    split
    · exact .inl ⟨rfl, rfl⟩
    · exact counts_modify (fun _ => rfl) rfl
  | restoreVm path => cases r <;> exact .inl ⟨rfl, rfl⟩
  | fetchGuestIp launch v => exact .inl ⟨afterGuestIp_acquires, rfl⟩
  | cleanup launch v => exact .inl ⟨rfl, rfl⟩
  | waitForPort v ip port => cases r <;> exact .inl ⟨rfl, rfl⟩
  | started launch v ip =>
    simp only [step]
    split
    · exact .inl ⟨rfl, rfl⟩
    · refine counts_modify (fun t => ?_) rfl
      cases launch <;> rfl
  | recoverFromSoft =>
    simp only [step]
    split
    · exact .inl ⟨rfl, rfl⟩
    · split <;> exact .inl ⟨rfl, rfl⟩
  | balloonUp v memMb =>
    simp only [step, View.balloonedUp]
    split <;> exact .inl ⟨rfl, rfl⟩
  | recovered =>
    simp only [step]
    split
    · exact .inl ⟨rfl, rfl⟩
    · exact counts_modify (fun _ => rfl) rfl
  | fail marked e => exact counts_modify (fun _ => rfl) rfl
  | touch outcome =>
    simp only [step]
    split
    · exact .inl ⟨rfl, rfl⟩
    · exact .inr ⟨rfl, View.failCount_modify (fun _ => 0) fun _ => rfl⟩
  | done response => exact .inl ⟨hpc, rfl⟩
  | panicked => exact .inl ⟨rfl, rfl⟩
  | _ => cases hpc

theorem Pc.run_acquires (h : Pc.run cfg id steps w pc = some (w', pc')) (hpc : pc.acquires = true) :
    w'.failCount = if pc'.answered then w.failCount.map fun _ => 0 else w.failCount := by
  induction steps generalizing w pc with
  | nil =>
    rw [run, Option.ite_none_right_eq_some, Option.some_inj, Prod.mk.injEq] at h
    obtain ⟨-, rfl, rfl⟩ := h
    rw [not_answered hpc, if_neg Bool.false_ne_true]
  | cons step steps ih =>
    obtain ⟨now, r⟩ := step
    rw [run, Option.ite_none_left_eq_some] at h
    obtain ⟨-, h⟩ := h
    have hcounts : Counts w (pc.step cfg id now r w) := step_acquires hpc
    obtain ⟨hacquires, hcount⟩ | ⟨hanswered, hcount⟩ := hcounts
    · rw [ih h hacquires, hcount]
    · -- the answer ends the task
      obtain ⟨rfl, rfl⟩ := run_finished h (finished_of_answered hanswered)
      rw [hanswered, if_pos rfl, hcount]

theorem Pc.run_step (h : Pc.run cfg id steps w pc = some (w', pc')) (hpc : pc.finished = false) :
    ∃ now r rest, steps = (now, r) :: rest ∧
      Pc.run cfg id rest (pc.step cfg id now r w).toView (pc.step cfg id now r w).pc = some (w', pc') := by
  cases steps with
  | nil =>
    rw [run, hpc, if_neg Bool.false_ne_true] at h
    cases h
  | cons step steps =>
    rw [run, hpc, if_neg Bool.false_ne_true] at h
    exact ⟨step.1, step.2, steps, rfl, h⟩

theorem Pc.run_release {at' : Time} (h : Pc.run cfg id steps w (.release at') = some (w', pc')) :
    w'.failCount = w.failCount := by
  obtain ⟨now, r, rest, -, h⟩ := run_step h rfl
  rw [step] at h
  cases hrecord : w.record with
  | none =>
    rw [hrecord] at h
    obtain ⟨rfl, -⟩ := run_finished h rfl
    rfl
  | some t =>
    rw [hrecord] at h
    obtain ⟨rfl, -⟩ := run_finished h rfl
    exact w.failCount_keep fun _ => rfl

theorem reconcileDecision_kept (h : (reconcileDecision cfg id now t).reclaims = false) :
    reconcileDecision cfg id now t =
      if 0 < t.healthFailCount then .noteProbe t.healthFailCount t.lastHealthOkAt else .done none := by
  unfold reconcileDecision at h ⊢
  split at h
  · split at h
    · cases h
    · split at h
      · cases h
      · rename_i hhard hsoft
        simp only [hhard, hsoft, Bool.false_eq_true, if_false]
  · rfl

def keptCount (old new : UInt32) : UInt32 := if 0 < new then new else old

theorem Pc.run_cycle (h : Pc.run cfg id ((now, r) :: steps) w (.reconcileTenant t) = some (w', pc'))
    (hrecord : w.record = some t) (hkept : (reconcileDecision cfg id now (probed cfg now r t)).reclaims = false) :
    w'.failCount = some (keptCount t.healthFailCount (probed cfg now r t).healthFailCount) := by
  obtain ⟨now', r', rest, hsteps, h⟩ := run_step h rfl
  cases hsteps
  rw [step, View.goto, reconcileDecision_kept hkept] at h
  unfold keptCount
  split at h
  · rename_i hpos
    rw [if_pos hpos]
    obtain ⟨now', r', rest, -, h⟩ := run_step h rfl
    obtain ⟨rfl, -⟩ := run_finished h rfl
    simp only [Pc.step, View.modify, View.failCount, hrecord, Option.map_some, noteRecord]
  · rename_i hpos
    rw [if_neg hpos]
    obtain ⟨rfl, -⟩ := run_finished h rfl
    simp only [View.failCount, hrecord, Option.map_some]

end Alone

namespace Counted

variable {cfg : ControllerConfig} {id : String} {p q : Counted} {t : TenantState}

theorem probed_count (now : Time) (r : Reply) : (probed cfg now r t).healthFailCount =
    if probes cfg t then if r.isOk then 0 else t.healthFailCount + 1 else t.healthFailCount := by
  unfold probed
  split
  · cases r <;> rfl
  · rfl

theorem probed_count_le (now : Time) (r : Reply) :
    (probed cfg now r t).healthFailCount.toNat ≤ streakAfter cfg r t t.healthFailCount.toNat := by
  rw [probed_count, streakAfter]
  split
  · split
    · exact Nat.le_refl 0
    · rw [UInt32.toNat_add]
      exact Nat.mod_le _ _
  · exact Nat.le_refl _

theorem consecutive_of_stored (h : ∀ t ∈ p.view.record, t.healthFailCount.toNat = p.streak) :
    p.Consecutive cfg id := by
  refine ⟨h, ?_⟩
  intro t ht now r copy v path hdecision
  obtain ⟨_, _, hdue, -⟩ | ⟨_, hdrop⟩ | hnote | hdone := reconcileDecision_cases cfg id now (probed cfg now r t)
  · rw [hardDue, Bool.or_eq_true, decide_eq_true_eq, decide_eq_true_eq] at hdue
    refine hdue.imp_right fun hcount => ?_
    rw [← h t ht]
    exact Nat.le_trans (UInt32.le_iff_toNat_le.mp hcount) (probed_count_le now r)
  · rw [hdrop] at hdecision
    cases hdecision
  · rw [hnote] at hdecision
    cases hdecision
  · rw [hdone] at hdecision
    cases hdecision

theorem consecutive_of_failCount (h : ∀ n ∈ p.view.failCount, n.toNat = p.streak) : p.Consecutive cfg id :=
  consecutive_of_stored fun _ ht => h _ (Option.mem_map_of_mem _ ht)

theorem Consecutive.failCount (hp : p.Consecutive cfg id) {n : UInt32} (h : n ∈ p.view.failCount) :
    n.toNat = p.streak := by
  obtain ⟨t, ht, rfl⟩ := Option.map_eq_some_iff.mp h
  exact hp.stored t ht

theorem keptCount_iff (now : Time) (r : Reply) :
    (keptCount t.healthFailCount (probed cfg now r t).healthFailCount).toNat =
        streakAfter cfg r t t.healthFailCount.toNat ↔
      (probes cfg t = true → if r.isOk then t.healthFailCount = 0 else t.healthFailCount + 1 ≠ 0) := by
  rw [probed_count, streakAfter]
  cases probes cfg t with
  | false => simp [keptCount]
  | true =>
    cases r.isOk with
    | true =>
      have hzero : t.healthFailCount.toNat = 0 ↔ t.healthFailCount = 0 := UInt32.toNat_inj (b := 0)
      simpa [keptCount] using hzero
    | false =>
      simp only [if_true, Bool.false_eq_true, if_false, forall_const, keptCount]
      constructor
      · intro h hzero
        rw [hzero, if_neg (UInt32.lt_irrefl 0)] at h
        omega
      · intro hne
        have hpos : 0 < t.healthFailCount + 1 := UInt32.pos_iff_ne_zero.mpr hne
        rw [if_pos hpos]
        have hlt := t.healthFailCount.toNat_lt
        have hsum := UInt32.toNat_add t.healthFailCount 1
        have hnat := UInt32.toNat_inj.not.mpr hne
        simp only [UInt32.reduceToNat] at hsum hnat
        omega

theorem consecutive_step {a : Round} (h : p.next cfg id a = some q) (hp : p.Consecutive cfg id) :
    q.Consecutive cfg id ↔ p.Recorded cfg a := by
  cases a with
  | cycle steps =>
    obtain ⟨t, hrecord, h⟩ := Option.bind_eq_some_iff.mp h
    cases steps with
    | nil => cases h
    | cons step steps =>
      obtain ⟨now, r⟩ := step
      rw [cycle, Option.ite_none_right_eq_some, Bool.and_eq_true, Bool.not_eq_true'] at h
      obtain ⟨⟨-, hkept⟩, h⟩ := h
      obtain ⟨⟨w, pc⟩, hrun, rfl⟩ := Option.map_eq_some_iff.mp h
      have hcount := Pc.run_cycle hrun hrecord hkept
      have hstored := hp.stored t hrecord
      have hiff : _ ↔ (probes cfg t = true → _) := keptCount_iff now r
      rw [hstored] at hiff
      constructor
      · intro hq t' ht'
        cases hrecord.symm.trans ht'
        exact hiff.mp (hq.failCount hcount)
      · intro hrecorded
        refine consecutive_of_failCount fun n hn => ?_
        cases hcount.symm.trans hn
        exact hiff.mpr (hrecorded t hrecord)
  | acquire steps =>
    obtain ⟨⟨w, pc⟩, hrun, rfl⟩ := Option.map_eq_some_iff.mp h
    have hcount := Pc.run_acquires hrun rfl
    refine iff_of_true (consecutive_of_failCount fun n hn => ?_) trivial
    change w.failCount = some n at hn
    rw [hcount] at hn
    cases hanswered : pc.answered with
    | true =>
      rw [hanswered, if_pos rfl] at hn
      obtain ⟨old, -, rfl⟩ := Option.map_eq_some_iff.mp hn
      rfl
    | false =>
      rw [hanswered, if_neg Bool.false_ne_true] at hn
      exact hp.failCount hn
  | release at' steps =>
    obtain ⟨⟨w, pc⟩, hrun, rfl⟩ := Option.map_eq_some_iff.mp h
    refine iff_of_true (consecutive_of_failCount fun n hn => ?_) trivial
    exact hp.failCount ((Pc.run_release hrun).symm.trans hn)
  | elsewhere d =>
    cases h
    exact iff_of_true (consecutive_of_stored hp.stored) trivial

/-- From any state in which the stored count is right, in every sequence of cycles without reclaims and of
requests: it stays the number of failures in a row if and only if every probe that succeeds finds the count
at 0 and none that fails finds it at its maximum. -/
theorem consecutive_iff_recorded (cfg : ControllerConfig) (id : String) {p q : Counted} {rounds : List Round}
    (hp : p.Consecutive cfg id) :
    Steps (fun p a q => p.next cfg id a = some q ∧ q.Consecutive cfg id) p rounds q ↔
      Steps (fun p a q => p.next cfg id a = some q ∧ p.Recorded cfg a) p rounds q :=
  Steps.iff_of_step (I := fun _ => True) (fun _ _ _ _ _ => trivial) (fun _ _ _ h _ hp => consecutive_step h hp)
    trivial hp

def registered : Counted := ⟨⟨some (.new (ControllerState.demoTenant (some 80)) 0), ⟨[]⟩⟩, 0⟩

theorem registered_consecutive : registered.Consecutive .defaults "demo" := by
  refine consecutive_of_stored fun t ht => ?_
  cases ht
  rfl

def coldAcquire : Round := .acquire (List.replicate 8 (0, .ok "172.30.0.2"))

def warmAcquire : Round := .acquire (List.replicate 2 (0, .ok ""))

def failedProbe : Round := .cycle (List.replicate 2 (0, .refused ""))

def goodProbe : Round := .cycle [(0, .ok "")]

instance (cfg : ControllerConfig) (p : Counted) : (a : Round) → Decidable (p.Recorded cfg a)
  | .cycle ((_, r) :: _) => inferInstanceAs (Decidable (∀ t ∈ p.view.record, probes cfg t = true →
      if r.isOk then t.healthFailCount = 0 else t.healthFailCount + 1 ≠ 0))
  | .cycle [] | .acquire _ | .release _ _ | .elsewhere _ => inferInstanceAs (Decidable True)

def acquiredBetween : List Round :=
  [coldAcquire, goodProbe, failedProbe, failedProbe, warmAcquire, goodProbe, failedProbe]

theorem acquiredBetween_consecutive : ∃ p, p.streak = 1 ∧
    Steps (fun p a q => p.next .defaults "demo" a = some q ∧ q.Consecutive .defaults "demo") registered
      acquiredBetween p := by
  obtain ⟨p, hp⟩ :
      ∃ p, Steps.trace (next .defaults "demo") (Recorded .defaults) registered acquiredBetween = some p :=
    Option.isSome_iff_exists.mp (by decide)
  have hstreak : (Steps.trace (next .defaults "demo") (Recorded .defaults) registered acquiredBetween).map
      Counted.streak = some 1 := by decide
  rw [hp, Option.map_some, Option.some_inj] at hstreak
  exact ⟨p, hstreak, (consecutive_iff_recorded .defaults "demo" registered_consecutive).mpr (Steps.of_trace hp)⟩

def goodProbeBetween : List Round := [coldAcquire, failedProbe, failedProbe, goodProbe]

theorem goodProbeBetween_counted : ∃ p,
    Steps (fun p a q => p.next .defaults "demo" a = some q) registered goodProbeBetween p ∧
    p.streak = 0 ∧ p.view.failCount = some 2 ∧
    (p.view.record.any fun t =>
      (reconcileDecision .defaults "demo" 0 (probed .defaults 0 (.refused "") t)).reclaims) = true ∧
    ¬p.Consecutive .defaults "demo" := by
  have hend : (Steps.trace (next .defaults "demo") (fun _ _ => True) registered goodProbeBetween).map
      (fun p => (p.streak, p.view.failCount, p.view.record.any fun t =>
        (reconcileDecision .defaults "demo" 0 (probed .defaults 0 (.refused "") t)).reclaims)) =
      some (0, some 2, true) := by decide
  obtain ⟨p, hp, hend⟩ := Option.map_eq_some_iff.mp hend
  rw [Prod.mk.injEq, Prod.mk.injEq] at hend
  obtain ⟨hstreak, hcount, hreclaims⟩ := hend
  refine ⟨p, (Steps.of_trace hp).mono fun _ _ _ h => h.1, hstreak, hcount, hreclaims, fun hp => ?_⟩
  have hstored := hp.failCount hcount
  rw [hstreak] at hstored
  cases hstored

end Counted

end CloneVmm.Controller
