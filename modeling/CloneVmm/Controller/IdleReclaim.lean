import CloneVmm.Controller.LostUpdates

namespace CloneVmm.Controller

open CloneVmm.Lib

/-- `marked` are the reconcile tasks that have set the status to `Saving`. For such a task, `due` tells
whether a reclaim was due then, and `answers` which VMs acquires have been answered with since. -/
structure Observed where
  state : ControllerState
  uses : List Time
  failures : Nat
  due : Nat → Bool
  marked : List Nat
  answers : Nat → List (Time × VmId)

def DueAt (cfg : ControllerConfig) (now : Time) (uses : List Time) (failures : Nat) : Prop :=
  (∀ u ∈ uses, cfg.hardReclaimAfterSecs.toNat ≤ (now - u) / TenantState.nanosPerSec) ∨
    cfg.healthProbeFailThreshold.toNat ≤ failures

instance (cfg : ControllerConfig) (now : Time) (uses : List Time) (failures : Nat) :
    Decidable (DueAt cfg now uses failures) :=
  inferInstanceAs (Decidable (_ ∨ _))

def ControllerState.acting (s : ControllerState) (id : String) : Action → Option (Nat × Pc × Reply)
  | .resume i r =>
    match s.tasks i with
    | some task => if task.acts && task.tenant == id then some (i, task.pc, r) else none
    | none => none
  | .request _ _ | .cycle _ _ | .drop _ _ | .exit _ | .tick _ | .restart => none

namespace Observed

def used (w : Observed) (id : String) (at' : Time) : List Time :=
  if (w.state.tenants id).isSome then at' :: w.uses else w.uses

def named (id : String) (w : Observed) : List (Time × VmId) :=
  ((w.state.tenants id).bind TenantState.vmId).toList.map fun v => (w.state.now, v)

def observe (cfg : ControllerConfig) (id : String) (w : Observed) (s' : ControllerState) :
    Option (Nat × Pc × Reply) → Observed
  | some (_, .touch _, _) =>
    { w with state := s', uses := w.used id w.state.now, answers := fun i => w.named id ++ w.answers i }
  | some (_, .release at', _) => { w with state := s', uses := w.used id at' }
  | some (_, .reconcileTenant t, r) =>
    if probes cfg t then
      if r.isOk then { w with state := s', uses := w.state.now :: w.uses, failures := 0 }
      else { w with state := s', failures := w.failures + 1 }
    else { w with state := s' }
  | some (i, .markSaving _ _ _, _) =>
    { w with
      state := s'
      due := Function.update w.due i (decide (DueAt cfg w.state.now w.uses w.failures))
      marked := i :: w.marked
      answers := Function.update w.answers i [] }
  | _ => { w with state := s' }

def next (cfg : ControllerConfig) (id : String) (w : Observed) (a : Action) : Option Observed :=
  (w.state.next cfg a).map fun s' => w.observe cfg id s' (w.state.acting id a)

end Observed

def Pc.saves : Pc → Bool
  | saveVm _ _ _ | destroySaved _ _ _ | destroyUnsaved _ _ => true
  | _ => false

def Pc.reclaimed : Pc → Option VmId
  | saveVm _ v _ | destroySaved _ v _ | destroyUnsaved v _ => some v
  | _ => none

def Pc.savingCopy : Pc → Option TenantState
  | markSaving copy _ _ => some copy
  | _ => none

def Pc.touches : Pc → Bool
  | touch _ => true
  | _ => false

namespace Observed

def UpToDate (cfg : ControllerConfig) (w : Observed) (copy : TenantState) : Prop :=
  if cfg.healthProbeFailThreshold ≤ copy.healthFailCount then copy.healthFailCount.toNat ≤ w.failures
  else ∀ u ∈ w.uses, ∃ at' ∈ copy.lastRequestAt, u ≤ at'

def Unclaimed (id : String) (w : Observed) : Prop :=
  ∀ i ∈ w.marked, ∀ task ∈ w.state.tasks i, task.tenant = id → ∀ v ∈ task.pc.reclaimed,
    (w.state.tenants id).bind TenantState.vmId ≠ some v

def Current (cfg : ControllerConfig) (id : String) (w : Observed) (a : Action) : Prop :=
  ∀ acted ∈ w.state.acting id a,
    (∀ copy ∈ acted.2.1.savingCopy, w.UpToDate cfg copy) ∧ (acted.2.1.touches = true → w.Unclaimed id)

end Observed

section Points

variable {cfg : ControllerConfig} {id : String} {now : Time} {r : Reply} {w : View} {pc : Pc} {t : TenantState}

theorem Pc.reconciles_of_saves (h : pc.saves = true) : pc.reconciles = true := by
  cases pc <;> simp_all [saves, reconciles]

theorem Pc.step_markSaving {copy : TenantState} {v : VmId} {path : String}
    (h : (pc.step cfg id now r w).pc = .markSaving copy v path) : hardDue cfg now copy = true := by
  have hreconciles : pc.reconciles = true := reconciles_of_step (by rw [h]; rfl)
  cases pc with
  | reconcileTenant t =>
    have h : reconcileDecision cfg id now (probed cfg now r t) = .markSaving copy v path := h
    obtain ⟨v', path', hdue, heq⟩ | ⟨v', heq⟩ | heq | heq := reconcileDecision_cases cfg id now (probed cfg now r t)
    · rw [heq, Pc.markSaving.injEq] at h
      exact h.1 ▸ hdue
    all_goals
      rw [heq] at h
      cases h
  | saveVm t v' path' =>
    simp only [step, View.goto, afterSave] at h
    split at h <;> cases h
  | markSaving _ _ _ | destroySaved _ _ _ | destroyUnsaved _ _ | saveFailed _ | dropCaches _ _ | balloonDown _ _
  | writeBack _ | noteProbe _ _ | done _ => cases h
  | _ => cases hreconciles

theorem Pc.step_saves (h : (pc.step cfg id now r w).pc.saves = true) :
    pc.saves = true ∨ ∃ copy v path, pc = .markSaving copy v path := by
  have hreconciles : pc.reconciles = true := reconciles_of_step (reconciles_of_saves h)
  cases pc with
  | reconcileTenant t =>
    have h : (reconcileDecision cfg id now (probed cfg now r t)).saves = true := h
    obtain ⟨v', path', -, heq⟩ | ⟨v', heq⟩ | heq | heq := reconcileDecision_cases cfg id now (probed cfg now r t)
    all_goals
      rw [heq] at h
      cases h
  | markSaving copy v path => exact .inr ⟨copy, v, path, rfl⟩
  | saveVm _ _ _ | destroySaved _ _ _ | destroyUnsaved _ _ => exact .inl rfl
  | saveFailed _ | dropCaches _ _ | balloonDown _ _ | writeBack _ | noteProbe _ _ | done _ => cases h
  | _ => cases hreconciles

theorem Pc.saves_of_reclaimed {v : VmId} (h : pc.reclaimed = some v) : pc.saves = true := by
  cases pc <;> simp_all [reclaimed, saves]

theorem Pc.step_reclaimed {v : VmId} (h : (pc.step cfg id now r w).pc.reclaimed = some v) :
    pc.reclaimed = some v ∨ ∃ copy v path, pc = .markSaving copy v path := by
  refine (step_saves (saves_of_reclaimed h)).imp_left fun hsaves => ?_
  cases pc with
  | saveVm t u path =>
    simp only [step, View.goto, afterSave] at h
    split at h <;> exact h
  | destroySaved _ _ _ | destroyUnsaved _ _ => cases h
  | _ => cases hsaves

theorem idleOf_mono {now' : Time} (h : now ≤ now') : idleOf t now ≤ idleOf t now' := by
  unfold idleOf TenantState.idleSecs
  cases t.lastRequestAt with
  | none => exact Int.le_refl _
  | some at' =>
    have hle : (now - at') / TenantState.nanosPerSec ≤ (now' - at') / TenantState.nanosPerSec :=
      Nat.div_le_div_right (Nat.sub_le_sub_right h at')
    exact Int.ofNat_le.mpr hle

theorem hardDue_mono {now' : Time} (h : now ≤ now') (hdue : hardDue cfg now t = true) : hardDue cfg now' t = true := by
  simp only [hardDue, Bool.or_eq_true, decide_eq_true_eq] at hdue ⊢
  exact hdue.imp_left fun hidle => Int.le_trans hidle (idleOf_mono h)

end Points

namespace Observed

open ControllerState

variable {cfg : ControllerConfig} {id : String} {w w' : Observed} {a : Action} {s' : ControllerState}

structure Justified (cfg : ControllerConfig) (id : String) (w : Observed) : Prop where
  decided : ∀ i copy v path, w.state.At i id (.markSaving copy v path) → hardDue cfg w.state.now copy = true
  due : ∀ i pc, w.state.At i id pc → pc.saves = true → w.due i = true
  marked : ∀ i pc, w.state.At i id pc → pc.saves = true → i ∈ w.marked
  spared : ∀ i pc v, w.state.At i id pc → pc.reclaimed = some v → ∀ u, (u, v) ∉ w.answers i

theorem observe_state {acted : Option (Nat × Pc × Reply)} : (w.observe cfg id s' acted).state = s' := by
  unfold observe
  split
  case h_3 =>
    split
    · split <;> rfl
    · rfl
  all_goals rfl

theorem observe_kept {i j : Nat} {pc : Pc} {r : Reply} (h : j ≠ i ∨ ∀ copy v path, pc ≠ .markSaving copy v path) :
    (w.observe cfg id s' (some (i, pc, r))).due j = w.due j ∧
      (j ∈ w.marked → j ∈ (w.observe cfg id s' (some (i, pc, r))).marked) ∧
      ∀ x ∈ (w.observe cfg id s' (some (i, pc, r))).answers j,
        x ∈ w.answers j ∨ (pc.touches = true ∧ x ∈ w.named id) := by
  cases pc with
  | markSaving copy v path =>
    rcases h with hne | hnot
    · refine ⟨Function.update_of_ne hne _ _, List.mem_cons_of_mem i, fun x hx => .inl ?_⟩
      have hanswers : (w.observe cfg id s' (some (i, .markSaving copy v path, r))).answers j = w.answers j :=
        Function.update_of_ne hne _ _
      exact hanswers ▸ hx
    · exact absurd rfl (hnot copy v path)
  | touch outcome =>
    refine ⟨rfl, fun hj => hj, fun x hx => ?_⟩
    exact (List.mem_append.mp hx).symm.imp_right fun hnamed => ⟨rfl, hnamed⟩
  | reconcileTenant t =>
    simp only [observe]
    split
    · split <;> exact ⟨rfl, fun hj => hj, fun x hx => .inl hx⟩
    · exact ⟨rfl, fun hj => hj, fun x hx => .inl hx⟩
  | _ => exact ⟨rfl, fun hj => hj, fun x hx => .inl hx⟩

theorem Unclaimed.not_named (h : w.Unclaimed id) {i : Nat} {pc : Pc} {u : Time} {v : VmId} (hi : w.state.At i id pc)
    (hmarked : i ∈ w.marked) (hpc : pc.reclaimed = some v) : (u, v) ∉ w.named id := by
  intro hnamed
  obtain ⟨v', hv', heq⟩ := List.mem_map.mp hnamed
  rw [Prod.mk.injEq] at heq
  obtain ⟨flush, hi⟩ := hi
  exact h i hmarked _ hi rfl v hpc (heq.2 ▸ Option.mem_toList.mp hv')

theorem dueAt_of_hardDue {copy : TenantState} (hdue : hardDue cfg w.state.now copy = true)
    (hcurrent : w.UpToDate cfg copy) : DueAt cfg w.state.now w.uses w.failures := by
  simp only [hardDue, Bool.or_eq_true, decide_eq_true_eq] at hdue
  unfold UpToDate at hcurrent
  split at hcurrent
  · rename_i hcount
    exact .inr (Nat.le_trans (UInt32.le_iff_toNat_le.mp hcount) hcurrent)
  · rename_i hcount
    refine .inl fun u hu => ?_
    obtain ⟨at', hat, hle⟩ := hcurrent u hu
    have hidle := hdue.resolve_right hcount
    rw [idleOf, TenantState.idleSecs, Option.mem_def.mp hat, Option.map_some, Option.getD_some, Int.ofNat_le] at hidle
    exact Nat.le_trans hidle (Nat.div_le_div_right (Nat.sub_le_sub_left hle _))

theorem Justified.acts {i : Nat} {pc : Pc} {r : Reply} (hw : w.Justified cfg id) (hi : w.state.At i id pc)
    (hs' : s' = w.state.apply i id (pc.step cfg id w.state.now r (w.state.view id)))
    (hcurrent : (∀ copy ∈ pc.savingCopy, w.UpToDate cfg copy) ∧ (pc.touches = true → w.Unclaimed id)) :
    (w.observe cfg id s' (some (i, pc, r))).Justified cfg id := by
  -- the task has gone on saving or destroying its VM, or has just set the status
  have hback {j : Nat} {q : Pc} (hj : (w.observe cfg id s' (some (i, pc, r))).state.At j id q) (hq : q.saves = true) :
      (∃ p, w.state.At j id p ∧ p.saves = true ∧ (∀ v, q.reclaimed = some v → p.reclaimed = some v) ∧
        (j ≠ i ∨ ∀ copy v path, pc ≠ .markSaving copy v path)) ∨
      (j = i ∧ ∃ copy v path, pc = .markSaving copy v path) := by
    rw [observe_state, hs'] at hj
    obtain ⟨rfl, -, rfl⟩ | ⟨hne, hj⟩ := at_apply.mp hj
    · by_cases hmark : ∃ copy v path, pc = .markSaving copy v path
      · exact .inr ⟨rfl, hmark⟩
      · have hnot : ∀ copy v path, pc ≠ .markSaving copy v path := fun copy v path hpc => hmark ⟨copy, v, path, hpc⟩
        refine .inl ⟨pc, hi, (Pc.step_saves hq).resolve_right hmark, fun v hv => ?_, .inr hnot⟩
        exact (Pc.step_reclaimed hv).resolve_right hmark
    · exact .inl ⟨q, hj, hq, fun v hv => hv, .inl hne⟩
  refine ⟨?_, ?_, ?_, ?_⟩
  · intro j copy v path hj
    rw [observe_state, hs'] at hj ⊢
    obtain ⟨rfl, -, hpc⟩ | ⟨-, hj⟩ := at_apply.mp hj
    · exact Pc.step_markSaving hpc.symm
    · exact hw.decided j copy v path hj
  · intro j q hj hq
    obtain ⟨p, hp, hsaves, -, hkept⟩ | ⟨rfl, copy, v, path, rfl⟩ := hback hj hq
    · exact (observe_kept hkept).1.trans (hw.due j p hp hsaves)
    · have hdue := dueAt_of_hardDue (hw.decided j copy v path hi) (hcurrent.1 copy rfl)
      exact (Function.update_self _ _ _).trans (decide_eq_true hdue)
  · intro j q hj hq
    obtain ⟨p, hp, hsaves, -, hkept⟩ | ⟨rfl, copy, v, path, rfl⟩ := hback hj hq
    · exact (observe_kept hkept).2.1 (hw.marked j p hp hsaves)
    · exact List.mem_cons_self
  · intro j q v hj hq u hu
    obtain ⟨p, hp, hsaves, hsame, hkept⟩ | ⟨rfl, copy, v', path, rfl⟩ := hback hj (Pc.saves_of_reclaimed hq)
    · obtain hold | ⟨htouches, hnamed⟩ := (observe_kept hkept).2.2 _ hu
      · exact hw.spared j p v hp (hsame v hq) u hold
      · exact (hcurrent.2 htouches).not_named hp (hw.marked j p hp hsaves) (hsame v hq) hnamed
    · have hnone : (w.observe cfg id s' (some (j, .markSaving copy v' path, r))).answers j = [] :=
        Function.update_self _ _ _
      rw [hnone] at hu
      cases hu

theorem Justified.stays (hw : w.Justified cfg id) (hnow : w.state.now ≤ s'.now)
    (hat : ∀ i pc, s'.At i id pc → pc.saves = true ∨ (∃ copy v path, pc = .markSaving copy v path) →
      w.state.At i id pc) :
    ({ w with state := s' } : Observed).Justified cfg id where
  decided i copy v path hi := hardDue_mono hnow (hw.decided i copy v path (hat i _ hi (.inr ⟨copy, v, path, rfl⟩)))
  due i pc hi hpc := hw.due i pc (hat i pc hi (.inl hpc)) hpc
  marked i pc hi hpc := hw.marked i pc (hat i pc hi (.inl hpc)) hpc
  spared i pc v hi hpc := hw.spared i pc v (hat i pc hi (.inl (Pc.saves_of_reclaimed hpc))) hpc

theorem request_reconciles {req : Request} {now : Time} : (req.pc now).reconciles = false := by
  cases req with
  | create c =>
    obtain ⟨response, h⟩ | h := checkConfig_cases c
    all_goals
      rw [Request.pc, h]
      rfl
  | acquire id | release id | delete id => rfl

theorem reconciles_of_late {pc : Pc} (h : pc.saves = true ∨ ∃ copy v path, pc = .markSaving copy v path) :
    pc.reconciles = true := by
  rcases h with hsaves | ⟨copy, v, path, rfl⟩
  · exact Pc.reconciles_of_saves hsaves
  · rfl

theorem Justified.spawn {i : Nat} {task : Task} (hw : w.Justified cfg id)
    (htask : ¬(task.pc.saves = true ∨ ∃ copy v path, task.pc = .markSaving copy v path)) :
    ({ w with state := w.state.setTask i task } : Observed).Justified cfg id := by
  refine hw.stays (Nat.le_refl _) fun j pc hj hlate => ?_
  obtain ⟨-, -, rfl⟩ | ⟨-, hj⟩ := at_setTask.mp hj
  · exact absurd hlate htask
  · exact hj

theorem acting_none {i : Nat} {r : Reply} {task : Task} (hi : w.state.tasks i = some task)
    (h : task.acts = false ∨ task.tenant ≠ id) : w.state.acting id (.resume i r) = none := by
  simp only [acting, hi]
  refine if_neg ?_
  rw [Bool.and_eq_true, beq_iff_eq]
  rintro ⟨hacts, htenant⟩
  rcases h with hidle | hne
  · rw [hidle] at hacts
    cases hacts
  · exact hne htenant

theorem acting_some {i : Nat} {r : Reply} {task : Task} (hi : w.state.tasks i = some task) (hacts : task.acts = true)
    (htenant : task.tenant = id) : w.state.acting id (.resume i r) = some (i, task.pc, r) := by
  simp only [acting, hi]
  refine if_pos ?_
  rw [Bool.and_eq_true, beq_iff_eq]
  exact ⟨hacts, htenant⟩

theorem Justified.resume {i : Nat} {r : Reply} {task : Task} (hw : w.Justified cfg id)
    (hi : w.state.tasks i = some task) (h : w.state.resume cfg i r task = some s')
    (hcurrent : w.Current cfg id (.resume i r)) :
    (w.observe cfg id s' (w.state.acting id (.resume i r))).Justified cfg id := by
  obtain ⟨hidle, flush, file, rfl⟩ | ⟨hacts, -, rfl⟩ := resume_cases h
  · rw [acting_none hi (.inl hidle)]
    have hat : ∀ j pc, (w.state.setTask i { task with flush := flush }).At j id pc → w.state.At j id pc :=
      fun j pc hj => (at_flush hi).mp hj
    exact hw.stays (Nat.le_refl _) fun j pc hj _ => hat j pc hj
  · by_cases htenant : task.tenant = id
    · have hacting := acting_some (r := r) hi hacts htenant
      rw [hacting]
      subst htenant
      exact hw.acts ⟨task.flush, hi⟩ rfl (hcurrent _ hacting)
    · rw [acting_none hi (.inr htenant)]
      refine hw.stays (Nat.le_refl _) fun j pc hj _ => ?_
      obtain ⟨-, hid, -⟩ | ⟨-, hj⟩ := at_apply.mp hj
      · exact absurd hid.symm htenant
      · exact hj

theorem Justified.step (hw : w.Justified cfg id) (h : w.next cfg id a = some w') (hcurrent : w.Current cfg id a) :
    w'.Justified cfg id := by
  obtain ⟨s', hs', rfl⟩ := Option.map_eq_some_iff.mp h
  cases a with
  | request i req =>
    obtain ⟨-, rfl⟩ := spawn_cases hs'
    refine hw.spawn fun hlate => ?_
    have hreconciles := reconciles_of_late hlate
    rw [request_reconciles] at hreconciles
    cases hreconciles
  | cycle i id' =>
    obtain ⟨t, -, -, -, rfl⟩ := cycle_cases hs'
    refine hw.spawn ?_
    rintro (hsaves | ⟨copy, v, path, hpc⟩)
    · cases hsaves
    · cases hpc
  | resume i r =>
    obtain ⟨task, hi, hresume⟩ := Option.bind_eq_some_iff.mp hs'
    exact hw.resume hi hresume hcurrent
  | drop i served =>
    obtain ⟨task, hi, h⟩ := next_drop hs'
    have hdropped := drop_cases h
    exact hw.stays (Nat.le_of_eq hdropped.now.symm) fun j pc hj _ => (hdropped.at_iff.mp hj).2
  | exit v =>
    cases hs'
    exact hw.stays (Nat.le_refl _) fun _ _ hi _ => hi
  | tick nanos =>
    cases hs'
    exact hw.stays (Nat.le_add_right _ _) fun _ _ hi _ => hi
  | restart =>
    cases hs'
    refine hw.stays (Nat.le_refl _) ?_
    rintro i pc ⟨flush, hi⟩
    cases hi

instance (cfg : ControllerConfig) (w : Observed) (copy : TenantState) : Decidable (w.UpToDate cfg copy) :=
  inferInstanceAs (Decidable (if cfg.healthProbeFailThreshold ≤ copy.healthFailCount then _ else _))

instance (id : String) (w : Observed) : Decidable (w.Unclaimed id) :=
  inferInstanceAs (Decidable (∀ i ∈ w.marked, ∀ task ∈ w.state.tasks i, task.tenant = id →
    ∀ v ∈ task.pc.reclaimed, (w.state.tenants id).bind TenantState.vmId ≠ some v))

instance (cfg : ControllerConfig) (id : String) (w : Observed) (a : Action) : Decidable (w.Current cfg id a) :=
  inferInstanceAs (Decidable (∀ acted ∈ w.state.acting id a,
    (∀ copy ∈ acted.2.1.savingCopy, w.UpToDate cfg copy) ∧ (acted.2.1.touches = true → w.Unclaimed id)))

def idleTenant : List Action :=
  List.flatten [[.request 0 (.create (demoTenant (some 80)))], resumes 0 3 "", [.request 1 (.acquire "demo")],
    resumes 1 14 "172.30.0.2", [.tick (300 * TenantState.nanosPerSec)]]

def reclaimed : List Action :=
  List.flatten [idleTenant, [.cycle 2 "demo", .resume 2 (.refused "timeout")], resumes 2 1 ""]

end Observed

end CloneVmm.Controller
