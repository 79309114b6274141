import CloneVmm.Controller.OneVm

namespace CloneVmm.Controller

open CloneVmm.Lib

namespace Daemon

def owner (d : Daemon) (v : VmId) : Option String := d.vms[v]?.map Vm.tenant

def target (d : Daemon) (v : VmId) : Option UInt32 := d.vms[v]?.bind Vm.balloonMb

def fullMemory (d : Daemon) (t : TenantState) : Bool :=
  t.vmId.all fun v => (d.target v).all fun mb => mb == t.config.memMb

variable {d : Daemon} {v w : VmId} {r : Reply} {id : String}

theorem owner_modify {f : Vm → Vm} (hf : ∀ vm, (f vm).tenant = vm.tenant) : (d.modify v f).owner w = d.owner w := by
  simp only [owner, modify, List.getElem?_modify]
  split
  · rw [Option.map_eq_map, Option.map_map]
    congr 1
    funext vm
    exact hf vm
  · simp

theorem target_stop : (d.modify v Vm.stop).target w = d.target w := by
  simp only [target, modify, List.getElem?_modify]
  split
  · cases d.vms[w]? <;> rfl
  · simp

theorem target_setBalloon_of_ne {mb : UInt32} (h : w ≠ v) : (d.modify v (Vm.setBalloon mb)).target w = d.target w := by
  simp [target, modify, h.symm]

theorem target_setBalloon {mb : UInt32} :
    (d.modify v (Vm.setBalloon mb)).target v = d.target v ∨ (d.modify v (Vm.setBalloon mb)).target v = some mb := by
  simp only [target, modify, List.getElem?_modify, if_true]
  cases d.vms[v]? with
  | none => exact .inl rfl
  | some vm => exact .inr rfl

theorem owner_destroy : (d.destroy v r).owner w = d.owner w := by
  cases r with
  | refused e => rfl
  | ok _ | lost _ => exact owner_modify fun _ => rfl

theorem target_destroy : (d.destroy v r).target w = d.target w := by
  cases r with
  | refused e => rfl
  | ok _ | lost _ => exact target_stop

theorem owner_balloon {mb : UInt32} : (d.balloon v mb r).2.owner w = d.owner w := by
  cases r with
  | refused e => rfl
  | ok _ | lost _ => exact owner_modify fun _ => rfl

theorem target_balloon {mb : UInt32} :
    (d.balloon v mb r).2.target w = d.target w ∨ (w = v ∧ (d.balloon v mb r).2.target w = some mb) := by
  by_cases h : w = v
  · subst h
    cases r with
    | refused e => exact .inl rfl
    | ok _ | lost _ => exact target_setBalloon.imp_right fun hset => ⟨rfl, hset⟩
  · cases r with
    | refused e => exact .inl rfl
    | ok _ | lost _ => exact .inl (target_setBalloon_of_ne h)

theorem owner_insert {vm : Vm} (h : d.owner w = some id) : (d.insert vm).owner w = some id := by
  obtain ⟨vm', hvm, htenant⟩ := Option.map_eq_some_iff.mp h
  have hlt := (List.getElem?_eq_some_iff.mp hvm).1
  rw [owner, insert, List.getElem?_append_left hlt]
  exact h

theorem owner_insert_self {vm : Vm} : (d.insert vm).owner d.vms.length = some vm.tenant := by
  simp [owner, insert]

theorem owner_fresh : d.owner d.vms.length = none := by simp [owner]

theorem target_fresh : d.target d.vms.length = none := by simp [target]

theorem target_insert {vm : Vm} (hvm : vm.balloonMb = none) : (d.insert vm).target w = d.target w := by
  simp only [target, insert]
  obtain hlt | heq | hgt := Nat.lt_trichotomy w d.vms.length
  · rw [List.getElem?_append_left hlt]
  · rw [heq]
    simpa using hvm
  · rw [List.getElem?_eq_none (by simp; omega), List.getElem?_eq_none (by omega)]

theorem owner_start {tenant : String} (h : d.owner w = some id) : (d.start tenant r).2.owner w = some id := by
  cases r with
  | refused e => exact h
  | ok _ | lost _ => exact owner_insert h

end Daemon

def TenantState.names (t : TenantState) : List (VmId × UInt32) := t.vmId.toList.map fun v => (v, t.config.memMb)

namespace Pc

def names : Pc → List (VmId × UInt32)
  | balloonUp v memMb => [(v, memMb)]
  | reconcileTenant t | writeBack t => t.names
  | dropCaches t v | balloonDown t v => (v, t.config.memMb) :: t.names
  | _ => []

def recordsSoft : Pc → Bool
  | writeBack t => t.status = .softReclaimed
  | _ => false

def reactivates (t : TenantState) : Pc → Bool
  | release _ => t.status = .softReclaimed
  | recovered => true
  | _ => false

end Pc

namespace ControllerState

def Pending (s : ControllerState) (id : String) : Prop := ∃ i pc, s.At i id pc ∧ pc.recordsSoft = true

def FullAt (s : ControllerState) (id : String) : Prop :=
  ∀ t ∈ s.tenants id, t.status = .active → s.daemon.fullMemory t = true ∨ s.Pending id

def Reinflated (s : ControllerState) : Action → Prop
  | .resume i _ => ∀ task ∈ s.tasks i, task.acts = true → ∀ t ∈ s.tenants task.tenant,
      task.pc.reactivates t = true → s.daemon.fullMemory t = true ∨ s.Pending task.tenant
  | _ => True

def Names (s : ControllerState) (id : String) (x : VmId × UInt32) : Prop :=
  (∃ t ∈ s.tenants id, x ∈ t.names) ∨ ∃ i pc, s.At i id pc ∧ x ∈ pc.names

structure Named (s : ControllerState) (id : String) : Prop where
  owned : ∀ x, s.Names id x → s.daemon.owner x.1 = some id
  agree : ∀ v m n, s.Names id (v, m) → s.Names id (v, n) → m = n
  held : ∀ i pc v, s.At i id pc → pc.holds = some v → s.daemon.owner v = some id
  fresh : ∀ i pc v, s.At i id pc → pc.holds = some v → s.daemon.target v = none ∧ ∀ m, ¬s.Names id (v, m)
  single : ∀ i j p q v, s.At i id p → s.At j id q → p.holds = some v → q.holds = some v → i = j

end ControllerState

section NamesStep

variable {cfg : ControllerConfig} {id : String} {now : Time} {r : Reply} {w : View} {pc : Pc} {t : TenantState}
  {x : VmId × UInt32}

theorem TenantState.mem_names : x ∈ t.names ↔ t.vmId = some x.1 ∧ t.config.memMb = x.2 := by
  obtain ⟨v, m⟩ := x
  simp [names]

theorem names_probed : (probed cfg now r t).names = t.names := by
  unfold probed
  split
  · cases r <;> rfl
  · rfl

theorem reconcileDecision_names (h : x ∈ (reconcileDecision cfg id now t).names) : x ∈ t.names := by
  unfold reconcileDecision at h
  split at h
  · rename_i v hv
    split at h
    · cases h
    · split at h
      · rcases List.mem_cons.mp h with rfl | h
        · exact TenantState.mem_names.mpr ⟨hv, rfl⟩
        · exact h
      · split at h <;> cases h
  · split at h <;> cases h

theorem afterGuestIp_names {launch : Launch} {v : VmId} {ip : Option String} :
    (afterGuestIp launch v ip).names = [] := by
  unfold afterGuestIp
  split
  · rfl
  · split <;> rfl

theorem acquireDecision_names : (acquireDecision id t).names = [] := by
  unfold acquireDecision
  split
  case h_7 => split <;> rfl
  all_goals rfl

theorem Pc.reconciles_of_recordsSoft (h : pc.recordsSoft = true) : pc.reconciles = true := by
  cases pc with
  | writeBack t => rfl
  | _ => cases h

theorem Pc.step_names (h : x ∈ (pc.step cfg id now r w).pc.names) : x ∈ pc.names ∨ ∃ t ∈ w.record, x ∈ t.names := by
  cases pc with
  | acquire =>
    simp only [step] at h
    split at h
    · cases h
    · rw [View.goto, acquireDecision_names] at h
      cases h
  | createVm c => cases r <;> cases h
  | restoreVm path => cases r <;> cases h
  | fetchGuestIp launch v =>
    rw [step, View.goto, afterGuestIp_names] at h
    cases h
  | waitForPort v ip port => cases r <;> cases h
  | recoverFromSoft =>
    simp only [step] at h
    split at h
    · cases h
    · rename_i t ht
      split at h
      · cases h
      · rename_i v hv
        obtain rfl := List.mem_singleton.mp h
        exact .inr ⟨t, ht, TenantState.mem_names.mpr ⟨hv, rfl⟩⟩
  | balloonUp v memMb =>
    simp only [step, View.balloonedUp] at h
    split at h <;> cases h
  | deleteTenant =>
    simp only [step] at h
    split at h
    · cases h
    · unfold View.deleted at h
      split at h <;> cases h
  | reconcileTenant t =>
    rw [step, View.goto] at h
    have hcopy := reconcileDecision_names h
    rw [names_probed] at hcopy
    exact .inl hcopy
  | saveVm t v path =>
    rw [step, View.goto] at h
    cases hcall : w.daemon.call v r with
    | ok text =>
      rw [hcall] at h
      cases h
    | error e =>
      rw [hcall] at h
      cases h
  | dropCaches t v => exact .inl h
  | balloonDown t v => exact .inl (List.mem_cons_of_mem _ h)
  | coldCreate | coldConfig | doRestore | restoreStart _ | started _ _ _ | recovered | touch _ | release _
  | createTenant _ =>
    simp only [step] at h
    split at h <;> cases h
  | cleanup _ _ | fail _ _ | destroyDeleted _ | markSaving _ _ _ | destroySaved _ _ _ | destroyUnsaved _ _
  | saveFailed _ | writeBack _ | noteProbe _ _ | done _ | panicked => cases h

theorem Pc.step_record_names {t' : TenantState} (ht' : t' ∈ (pc.step cfg id now r w).record) (hx : x ∈ t'.names) :
    x ∈ pc.names ∨ (∃ t ∈ w.record, x ∈ t.names) ∨
      (pc.holds = some x.1 ∧ (pc.step cfg id now r w).pc.holds = none) := by
  have hkeep (h : t' ∈ w.record) : ∃ t ∈ w.record, x ∈ t.names := ⟨t', h, hx⟩
  cases pc with
  | createVm c => exact .inr (.inl (hkeep (by cases r <;> exact ht')))
  | restoreVm path => exact .inr (.inl (hkeep (by cases r <;> exact ht')))
  | waitForPort v ip port => exact .inr (.inl (hkeep ht'))
  | started launch v ip =>
    simp only [step] at ht' ⊢
    split at ht'
    · exact .inr (.inl (hkeep ht'))
    · rename_i t hrecord
      obtain ⟨u, -, rfl⟩ := Option.map_eq_some_iff.mp ht'
      have hvm := (TenantState.mem_names.mp hx).1
      refine .inr (.inr ⟨?_, rfl⟩)
      cases launch <;> exact hvm
  | writeBack t =>
    obtain ⟨u, -, rfl⟩ := Option.map_eq_some_iff.mp ht'
    exact .inl hx
  | saveFailed e =>
    obtain ⟨u, -, rfl⟩ := Option.map_eq_some_iff.mp ht'
    cases hx
  | recoverFromSoft =>
    simp only [step] at ht'
    split at ht'
    · exact .inr (.inl (hkeep ht'))
    · split at ht' <;> exact .inr (.inl (hkeep ht'))
  | balloonUp v memMb =>
    simp only [step, View.balloonedUp] at ht'
    split at ht' <;> exact .inr (.inl (hkeep ht'))
  | createTenant c =>
    simp only [step] at ht'
    split at ht'
    · exact .inr (.inl (hkeep ht'))
    · cases ht'
      cases hx
  | deleteTenant =>
    simp only [step] at ht'
    split at ht'
    · exact .inr (.inl (hkeep ht'))
    · unfold View.deleted at ht'
      split at ht' <;> cases ht'
  | acquire | coldConfig | doRestore =>
    simp only [step] at ht'
    split at ht' <;> exact .inr (.inl (hkeep ht'))
  | coldCreate | restoreStart _ | recovered | touch _ | release _ =>
    simp only [step] at ht'
    split at ht'
    · exact .inr (.inl (hkeep ht'))
    · obtain ⟨t, ht, rfl⟩ := Option.map_eq_some_iff.mp ht'
      exact .inr (.inl ⟨t, ht, hx⟩)
  | fail _ _ | markSaving _ _ _ | noteProbe _ _ =>
    obtain ⟨t, ht, rfl⟩ := Option.map_eq_some_iff.mp ht'
    exact .inr (.inl ⟨t, ht, hx⟩)
  | fetchGuestIp _ _ | cleanup _ _ | destroyDeleted _ | reconcileTenant _ | saveVm _ _ _ | destroySaved _ _ _
  | destroyUnsaved _ _ | dropCaches _ _ | balloonDown _ _ | done _ | panicked => exact .inr (.inl (hkeep ht'))

theorem Pc.step_active {t' : TenantState} (ht' : t' ∈ (pc.step cfg id now r w).record) (hactive : t'.status = .active) :
    (∃ t ∈ w.record, t.status = .active ∧ t'.names = t.names ∧ pc.recordsSoft = false) ∨
      (∃ t ∈ w.record, pc.reactivates t = true ∧ t'.names = t.names) ∨ (∃ v, pc.holds = some v ∧ t'.vmId = some v) ∨
      pc.writesReclaim = false := by
  have hkeep (h : t' ∈ w.record) (hpc : pc.recordsSoft = false) :
      ∃ t ∈ w.record, t.status = .active ∧ t'.names = t.names ∧ pc.recordsSoft = false := ⟨t', h, hactive, rfl, hpc⟩
  cases pc with
  | createVm c => exact .inl (hkeep (by cases r <;> exact ht') rfl)
  | restoreVm path => exact .inl (hkeep (by cases r <;> exact ht') rfl)
  | started launch v ip =>
    simp only [step] at ht'
    split at ht'
    · exact .inl (hkeep ht' rfl)
    · obtain ⟨u, -, rfl⟩ := Option.map_eq_some_iff.mp ht'
      refine .inr (.inr (.inl ⟨v, rfl, ?_⟩))
      cases launch <;> rfl
  | writeBack t =>
    obtain ⟨u, -, rfl⟩ := Option.map_eq_some_iff.mp ht'
    exact .inr (.inr (.inr (by rw [writesReclaim, hactive]; rfl)))
  | recovered =>
    simp only [step] at ht'
    split at ht'
    · exact .inl (hkeep ht' rfl)
    · obtain ⟨t, ht, rfl⟩ := Option.map_eq_some_iff.mp ht'
      exact .inr (.inl ⟨t, ht, rfl, rfl⟩)
  | release at' =>
    simp only [step] at ht'
    split at ht'
    · exact .inl (hkeep ht' rfl)
    · obtain ⟨t, ht, rfl⟩ := Option.map_eq_some_iff.mp ht'
      by_cases hsoft : t.status = .softReclaimed
      · exact .inr (.inl ⟨t, ht, decide_eq_true hsoft, rfl⟩)
      · rw [releaseRecord, if_neg hsoft] at hactive
        exact .inl ⟨t, ht, hactive, rfl, rfl⟩
  | touch outcome =>
    simp only [step] at ht'
    split at ht'
    · exact .inl (hkeep ht' rfl)
    · obtain ⟨t, ht, rfl⟩ := Option.map_eq_some_iff.mp ht'
      exact .inl ⟨t, ht, hactive, rfl, rfl⟩
  | noteProbe n ok =>
    obtain ⟨t, ht, rfl⟩ := Option.map_eq_some_iff.mp ht'
    exact .inl ⟨t, ht, hactive, rfl, rfl⟩
  | recoverFromSoft =>
    simp only [step] at ht'
    split at ht'
    · exact .inl (hkeep ht' rfl)
    · split at ht' <;> exact .inl (hkeep ht' rfl)
  | balloonUp v memMb =>
    simp only [step, View.balloonedUp] at ht'
    split at ht' <;> exact .inl (hkeep ht' rfl)
  | createTenant c =>
    simp only [step] at ht'
    split at ht'
    · exact .inl (hkeep ht' rfl)
    · cases ht'
      cases hactive
  | deleteTenant =>
    simp only [step] at ht'
    split at ht'
    · exact .inl (hkeep ht' rfl)
    · unfold View.deleted at ht'
      split at ht' <;> cases ht'
  | acquire | coldConfig | doRestore =>
    simp only [step] at ht'
    split at ht' <;> exact .inl (hkeep ht' rfl)
  | coldCreate | restoreStart _ =>
    simp only [step] at ht'
    split at ht'
    · exact .inl (hkeep ht' rfl)
    · obtain ⟨t, -, rfl⟩ := Option.map_eq_some_iff.mp ht'
      cases hactive
  | fail _ _ | markSaving _ _ _ | saveFailed _ =>
    obtain ⟨t, -, rfl⟩ := Option.map_eq_some_iff.mp ht'
    cases hactive
  | fetchGuestIp _ _ | cleanup _ _ | waitForPort _ _ _ | destroyDeleted _ | reconcileTenant _ | saveVm _ _ _
  | destroySaved _ _ _ | destroyUnsaved _ _ | dropCaches _ _ | balloonDown _ _ | done _ | panicked =>
    exact .inl (hkeep ht' rfl)

theorem Pc.step_owner {v : VmId} {id' : String} (h : w.daemon.owner v = some id') :
    (pc.step cfg id now r w).daemon.owner v = some id' := by
  obtain hsame | ⟨u, hsame⟩ | ⟨u, mb, hsame⟩ | ⟨-, hsame⟩ := Pc.step_daemon cfg id now r w pc
  all_goals rw [hsame]
  · exact h
  · exact Daemon.owner_destroy.trans h
  · exact Daemon.owner_balloon.trans h
  · exact Daemon.owner_start h

theorem Pc.step_target {v : VmId} : (pc.step cfg id now r w).daemon.target v = w.daemon.target v ∨
    ∃ m, (v, m) ∈ pc.names ∧
      ((pc.step cfg id now r w).daemon.target v = some m ∨ (pc.step cfg id now r w).pc.recordsSoft = true) := by
  have hlaunched (launch : Launch) : (w.launched id launch r).daemon.target v = w.daemon.target v := by
    cases r with
    | refused e => rfl
    | ok _ | lost _ => exact Daemon.target_insert rfl
  cases pc with
  | createVm c => exact .inl (hlaunched _)
  | restoreVm path => exact .inl (hlaunched _)
  | balloonUp u memMb =>
    have hdaemon : (w.balloonedUp u memMb r).daemon = (w.daemon.balloon u memMb r).2 := by
      unfold View.balloonedUp
      split
      all_goals
        rename_i hd
        rw [hd]
        rfl
    rw [step, hdaemon]
    refine Daemon.target_balloon.imp_right fun hset => ?_
    obtain ⟨rfl, hset⟩ := hset
    exact ⟨memMb, List.mem_singleton.mpr rfl, .inl hset⟩
  | balloonDown t u =>
    refine Daemon.target_balloon.imp_right fun hset => ?_
    obtain ⟨rfl, -⟩ := hset
    exact ⟨t.config.memMb, List.mem_cons_self, .inr rfl⟩
  | cleanup _ _ | destroyDeleted _ | destroySaved _ _ _ | destroyUnsaved _ _ => exact .inl Daemon.target_destroy
  | deleteTenant =>
    left
    simp only [step]
    split
    · rfl
    · unfold View.deleted
      split <;> rfl
  | recoverFromSoft =>
    left
    simp only [step]
    split
    · rfl
    · split <;> rfl
  | acquire | coldCreate | coldConfig | doRestore | restoreStart _ | started _ _ _ | recovered | touch _ | release _
  | createTenant _ =>
    left
    simp only [step]
    split <;> rfl
  | fetchGuestIp _ _ | waitForPort _ _ _ | fail _ _ | reconcileTenant _ | markSaving _ _ _ | saveVm _ _ _
  | saveFailed _ | dropCaches _ _ | writeBack _ | noteProbe _ _ | done _ | panicked => exact .inl rfl

theorem Pc.step_holds {v : VmId} (h : (pc.step cfg id now r w).pc.holds = some v) :
    pc.holds = some v ∨ (pc.holds = none ∧ v = w.daemon.vms.length ∧
      (pc.step cfg id now r w).daemon.owner v = some id) := by
  have hlaunched (launch : Launch) (h : (w.launched id launch r).pc.holds = some v) :
      v = w.daemon.vms.length ∧ (w.launched id launch r).daemon.owner v = some id := by
    cases r with
    | ok text =>
      cases h
      exact ⟨rfl, Daemon.owner_insert_self⟩
    | refused _ | lost _ => cases h
  cases pc with
  | createVm c => exact .inr ⟨rfl, hlaunched _ h⟩
  | restoreVm path => exact .inr ⟨rfl, hlaunched _ h⟩
  | fetchGuestIp launch u =>
    have h : (afterGuestIp launch u (w.daemon.fetchGuestIp u r)).holds = some v := h
    rw [ControllerState.afterGuestIp_holds] at h
    exact .inl h
  | waitForPort u ip port =>
    rw [step, View.goto] at h
    cases r with
    | ok text => exact .inl h
    | refused _ | lost _ => cases h
  | acquire =>
    simp only [step] at h
    split at h
    · cases h
    · exact absurd (Pc.launching_of_holds h) (Bool.not_eq_true _ ▸ ControllerState.acquireDecision_launching)
  | reconcileTenant t =>
    exact absurd (Pc.launching_of_holds h) (Bool.not_eq_true _ ▸ ControllerState.reconcileDecision_launching)
  | saveVm t u path =>
    exact absurd (Pc.launching_of_holds h) (Bool.not_eq_true _ ▸ ControllerState.afterSave_launching)
  | recoverFromSoft =>
    simp only [step] at h
    split at h
    · cases h
    · split at h <;> cases h
  | balloonUp u memMb =>
    simp only [step, View.balloonedUp] at h
    split at h <;> cases h
  | deleteTenant =>
    simp only [step] at h
    split at h
    · cases h
    · unfold View.deleted at h
      split at h <;> cases h
  | coldCreate | coldConfig | doRestore | restoreStart _ | started _ _ _ | recovered | touch _ | release _
  | createTenant _ =>
    simp only [step] at h
    split at h <;> cases h
  | cleanup _ _ | fail _ _ | destroyDeleted _ | markSaving _ _ _ | destroySaved _ _ _ | destroyUnsaved _ _
  | saveFailed _ | dropCaches _ _ | balloonDown _ _ | writeBack _ | noteProbe _ _ | done _ | panicked => cases h

theorem Pc.not_recordsSoft (h : pc.reactivates t = true) : pc.recordsSoft = false := by
  cases pc <;> simp_all [reactivates, recordsSoft]

end NamesStep

namespace ControllerState

variable {cfg : ControllerConfig} {s s' : ControllerState} {a : Action} {i : Nat} {id : String} {pc : Pc} {r : Reply}
  {t : TenantState} {x : VmId × UInt32}

theorem fullMemory_iff {d : Daemon} :
    d.fullMemory t = true ↔ ∀ x ∈ t.names, ∀ mb ∈ d.target x.1, mb = x.2 := by
  rw [Daemon.fullMemory, Option.all_eq_true]
  constructor
  · rintro h ⟨v, m⟩ hx mb hmb
    obtain ⟨hv, rfl⟩ := TenantState.mem_names.mp hx
    have hall := h v hv
    rw [Option.all_eq_true] at hall
    exact beq_iff_eq.mp (hall mb hmb)
  · intro h v hv
    rw [Option.all_eq_true]
    intro mb hmb
    exact beq_iff_eq.mpr (h (v, t.config.memMb) (TenantState.mem_names.mpr ⟨hv, rfl⟩) mb hmb)

structure Quiet (s s' : ControllerState) (id : String) : Prop where
  tenants : s'.tenants id = s.tenants id
  tasks : ∀ j q, s'.At j id q → s.At j id q ∨
    ((∀ x ∈ q.names, ∃ t ∈ s.tenants id, x ∈ t.names) ∧ q.holds = none)
  stay : ∀ j q, s.At j id q → q.recordsSoft = true → s'.At j id q
  owner : ∀ v, s.daemon.owner v = some id → s'.daemon.owner v = some id
  target : ∀ v, s.daemon.owner v = some id → s'.daemon.target v = s.daemon.target v ∨
    ∃ m, s.Names id (v, m) ∧ s'.daemon.target v = some m

theorem Quiet.names (h : s.Quiet s' id) (hx : s'.Names id x) : s.Names id x := by
  obtain ⟨t, ht, hx⟩ | ⟨j, q, hj, hx⟩ := hx
  · exact .inl ⟨t, h.tenants ▸ ht, hx⟩
  · rcases h.tasks j q hj with hj | ⟨hq, -⟩
    · exact .inr ⟨j, q, hj, hx⟩
    · exact .inl (hq x hx)

theorem Quiet.holds (h : s.Quiet s' id) {j : Nat} {q : Pc} (hj : s'.At j id q) {v : VmId} (hq : q.holds = some v) :
    s.At j id q := by
  refine (h.tasks j q hj).resolve_right fun hnew => ?_
  rw [hnew.2] at hq
  cases hq

theorem Named.quiet (hs : s.Named id) (h : s.Quiet s' id) : s'.Named id where
  owned x hx := h.owner _ (hs.owned x (h.names hx))
  agree v m n hm hn := hs.agree v m n (h.names hm) (h.names hn)
  held j q v hj hq := h.owner v (hs.held j q v (h.holds hj hq) hq)
  fresh j q v hj hq := by
    have hheld := hs.held j q v (h.holds hj hq) hq
    obtain ⟨htarget, hnames⟩ := hs.fresh j q v (h.holds hj hq) hq
    have hsame := (h.target v hheld).resolve_right fun ⟨m, hm, _⟩ => hnames m hm
    exact ⟨hsame.trans htarget, fun m hm => hnames m (h.names hm)⟩
  single j k p q v hj hk hp hq := hs.single j k p q v (h.holds hj hp) (h.holds hk hq) hp hq

theorem FullAt.quiet (hfull : s.FullAt id) (hs : s.Named id) (h : s.Quiet s' id) : s'.FullAt id := by
  intro t ht hactive
  rw [h.tenants] at ht
  refine (hfull t ht hactive).imp ?_ ?_
  · rw [fullMemory_iff, fullMemory_iff]
    intro hall x hx mb hmb
    obtain hsame | ⟨m, hm, hset⟩ := h.target x.1 (hs.owned x (.inl ⟨t, ht, hx⟩))
    · exact hall x hx mb (hsame ▸ hmb)
    · cases hset.symm.trans hmb
      exact hs.agree x.1 mb x.2 hm (.inl ⟨t, ht, hx⟩)
  · rintro ⟨j, q, hj, hq⟩
    exact ⟨j, q, h.stay j q hj hq, hq⟩

theorem names_acts (hi : s.At i id pc)
    (hs' : s' = s.apply i id (pc.step cfg id s.now r (s.view id))) (hx : s'.Names id x) :
    s.Names id x ∨ (pc.holds = some x.1 ∧ (pc.step cfg id s.now r (s.view id)).pc.holds = none ∧
      ∃ t ∈ s'.tenants id, x ∈ t.names) := by
  subst hs'
  have hold (h : x ∈ pc.names ∨ ∃ t ∈ s.tenants id, x ∈ t.names) : s.Names id x :=
    h.elim (fun h => .inr ⟨i, pc, hi, h⟩) .inl
  obtain ⟨t, ht, hx⟩ | ⟨j, q, hj, hx⟩ := hx
  · have ht' := ht
    rw [apply_tenants] at ht'
    obtain h | h | h := Pc.step_record_names ht' hx
    · exact .inl (hold (.inl h))
    · exact .inl (hold (.inr h))
    · exact .inr ⟨h.1, h.2, t, ht, hx⟩
  · obtain ⟨rfl, -, rfl⟩ | ⟨-, hj⟩ := at_apply.mp hj
    · exact .inl (hold (Pc.step_names hx))
    · exact .inl (.inr ⟨j, q, hj, hx⟩)

theorem holds_acts (hi : s.At i id pc) (hs' : s' = s.apply i id (pc.step cfg id s.now r (s.view id))) {j : Nat} {q : Pc}
    (hj : s'.At j id q) {v : VmId} (hq : q.holds = some v) :
    (∃ p, s.At j id p ∧ p.holds = some v) ∨
      (j = i ∧ pc.holds = none ∧ v = s.daemon.vms.length ∧ s'.daemon.owner v = some id) := by
  subst hs'
  obtain ⟨rfl, -, rfl⟩ | ⟨-, hj⟩ := at_apply.mp hj
  · exact (Pc.step_holds hq).imp (fun h => ⟨pc, hi, h⟩) fun h => ⟨rfl, h⟩
  · exact .inl ⟨q, hj, hq⟩

theorem Named.acts (hs : s.Named id) (hi : s.At i id pc)
    (hs' : s' = s.apply i id (pc.step cfg id s.now r (s.view id))) : s'.Named id := by
  have howner {v : VmId} (h : s.daemon.owner v = some id) : s'.daemon.owner v = some id := by
    rw [hs']
    exact Pc.step_owner h
  have htarget {v : VmId} (hv : ∀ m, ¬s.Names id (v, m)) : s'.daemon.target v = s.daemon.target v := by
    rw [hs']
    refine Pc.step_target.resolve_right ?_
    rintro ⟨m, hm, -⟩
    exact hv m (.inr ⟨i, pc, hi, hm⟩)
  have hnew {m : UInt32} : ¬s.Names id (s.daemon.vms.length, m) := by
    intro h
    have howned := hs.owned _ h
    rw [Daemon.owner_fresh] at howned
    cases howned
  have hunheld {j : Nat} {p : Pc} (hj : s.At j id p) : p.holds ≠ some s.daemon.vms.length := by
    intro hp
    have hheld := hs.held j p _ hj hp
    rw [Daemon.owner_fresh] at hheld
    cases hheld
  refine ⟨?_, ?_, ?_, ?_, ?_⟩
  · intro x hx
    obtain hx | ⟨hholds, -⟩ := names_acts hi hs' hx
    · exact howner (hs.owned x hx)
    · exact howner (hs.held i pc _ hi hholds)
  · intro v m n hm hn
    obtain hm | ⟨hv, -, t, ht, hm⟩ := names_acts hi hs' hm
    · obtain hn | ⟨hv, -⟩ := names_acts hi hs' hn
      · exact hs.agree v m n hm hn
      · exact absurd hm ((hs.fresh i pc v hi hv).2 m)
    · obtain hn | ⟨-, -, t', ht', hn⟩ := names_acts hi hs' hn
      · exact absurd hn ((hs.fresh i pc v hi hv).2 n)
      · cases Option.some_inj.mp (ht.symm.trans ht')
        exact (TenantState.mem_names.mp hm).2.symm.trans (TenantState.mem_names.mp hn).2
  · intro j q v hj hq
    obtain ⟨p, hp, hv⟩ | ⟨-, -, -, hv⟩ := holds_acts hi hs' hj hq
    · exact howner (hs.held j p v hp hv)
    · exact hv
  · intro j q v hj hq
    obtain ⟨p, hp, hv⟩ | ⟨rfl, hnone, rfl, -⟩ := holds_acts hi hs' hj hq
    · obtain ⟨hfree, hnames⟩ := hs.fresh j p v hp hv
      refine ⟨(htarget hnames).trans hfree, fun m hm => ?_⟩
      obtain hm | ⟨hholds, hgone, -⟩ := names_acts hi hs' hm
      · exact hnames m hm
      · -- the VM is named by the task that has held it, which no longer does
        obtain rfl := hs.single j i p pc v hp hi hv hholds
        rw [hs'] at hj
        obtain ⟨-, -, rfl⟩ | ⟨hne, -⟩ := at_apply.mp hj
        · rw [hgone] at hq
          cases hq
        · exact hne rfl
    · refine ⟨(htarget fun m => hnew).trans Daemon.target_fresh, fun m hm => ?_⟩
      obtain hm | ⟨hholds, -⟩ := names_acts hi hs' hm
      · exact hnew hm
      · rw [hnone] at hholds
        cases hholds
  · intro j k p q v hj hk hp hq
    obtain ⟨p', hp', hvp⟩ | ⟨rfl, -, rfl, -⟩ := holds_acts hi hs' hj hp
    · obtain ⟨q', hq', hvq⟩ | ⟨-, -, rfl, -⟩ := holds_acts hi hs' hk hq
      · exact hs.single j k p' q' v hp' hq' hvp hvq
      · exact absurd hvp (hunheld hp')
    · obtain ⟨q', hq', hvq⟩ | ⟨rfl, -⟩ := holds_acts hi hs' hk hq
      · exact absurd hvq (hunheld hq')
      · rfl

theorem pending_acts (hs' : s' = s.apply i id (pc.step cfg id s.now r (s.view id))) (hi : s.At i id pc)
    (hsoft : pc.recordsSoft = false) (h : s.Pending id) : s'.Pending id := by
  obtain ⟨j, q, hj, hq⟩ := h
  have hne : j ≠ i := by
    rintro rfl
    rw [(hj.unique hi).2, hsoft] at hq
    cases hq
  exact ⟨j, q, by rw [hs']; exact at_apply.mpr (.inr ⟨hne, hj⟩), hq⟩

theorem FullAt.acts (hfull : s.FullAt id) (hs : s.Named id) (hreclaims : s.Reclaims) (hi : s.At i id pc)
    (hs' : s' = s.apply i id (pc.step cfg id s.now r (s.view id)))
    (hinflated : ∀ t ∈ s.tenants id, pc.reactivates t = true → s.daemon.fullMemory t = true ∨ s.Pending id) :
    s'.FullAt id := by
  have htarget (v : VmId) : s'.daemon.target v = s.daemon.target v ∨ ∃ m, (v, m) ∈ pc.names ∧
      (s'.daemon.target v = some m ∨ (pc.step cfg id s.now r (s.view id)).pc.recordsSoft = true) := by
    rw [hs']
    exact Pc.step_target
  have hkeep {t t' : TenantState} (ht : t ∈ s.tenants id) (hnames : t'.names = t.names)
      (hsoft : pc.recordsSoft = false) (h : s.daemon.fullMemory t = true ∨ s.Pending id) :
      s'.daemon.fullMemory t' = true ∨ s'.Pending id := by
    rcases h with h | h
    · by_cases hpending : (pc.step cfg id s.now r (s.view id)).pc.recordsSoft = true
      · exact .inr ⟨i, _, by rw [hs']; exact at_apply.mpr (.inl ⟨rfl, rfl, rfl⟩), hpending⟩
      · left
        rw [fullMemory_iff, hnames]
        intro x hx mb hmb
        obtain hsame | ⟨m, hm, hset | hset⟩ := htarget x.1
        · exact fullMemory_iff.mp h x hx mb (hsame ▸ hmb)
        · cases hset.symm.trans hmb
          exact hs.agree x.1 mb x.2 (.inr ⟨i, pc, hi, hm⟩) (.inl ⟨t, ht, hx⟩)
        · exact absurd hset hpending
    · exact .inr (pending_acts hs' hi hsoft h)
  intro t' ht' hactive
  rw [hs', apply_tenants] at ht'
  obtain ⟨t, ht, hstatus, hnames, hsoft⟩ | ⟨t, ht, hre, hnames⟩ | ⟨v, hv, hvm⟩ | h := Pc.step_active ht' hactive
  · exact hkeep ht hnames hsoft (hfull t ht hstatus)
  · exact hkeep ht hnames (Pc.not_recordsSoft hre) (hinflated t ht hre)
  · left
    obtain ⟨hnone, hfresh⟩ := hs.fresh i pc v hi hv
    rw [fullMemory_iff]
    intro x hx mb hmb
    obtain rfl := Option.some_inj.mp (hvm.symm.trans (TenantState.mem_names.mp hx).1)
    obtain hsame | ⟨m, hm, -⟩ := htarget x.1
    · rw [hsame.trans hnone] at hmb
      cases hmb
    · exact absurd (.inr ⟨i, pc, hi, hm⟩) (hfresh m)
  · rw [hreclaims i id pc hi] at h
    cases h

theorem inflated_of_fullAt (hi : s.At i id pc) (hs' : s' = s.apply i id (pc.step cfg id s.now r (s.view id)))
    (hfull : s'.FullAt id) {t : TenantState} (ht : t ∈ s.tenants id) (hre : pc.reactivates t = true) :
    s.daemon.fullMemory t = true ∨ s.Pending id := by
  have hback {t' : TenantState} (ht' : (pc.step cfg id s.now r (s.view id)).record = some t')
      (hactive : t'.status = .active) (hnames : t'.names = t.names)
      (hdaemon : (pc.step cfg id s.now r (s.view id)).daemon = s.daemon)
      (hpc : (pc.step cfg id s.now r (s.view id)).pc.recordsSoft = false) :
      s.daemon.fullMemory t = true ∨ s.Pending id := by
    rw [hs'] at hfull
    refine (hfull t' (apply_tenants.trans ht') hactive).imp (fun h => ?_) ?_
    · have hd : (s.apply i id (pc.step cfg id s.now r (s.view id))).daemon = s.daemon := hdaemon
      rw [hd, fullMemory_iff, hnames] at h
      exact fullMemory_iff.mpr h
    · rintro ⟨j, q, hj, hq⟩
      obtain ⟨-, -, rfl⟩ | ⟨-, hj⟩ := at_apply.mp hj
      · rw [hpc] at hq
        cases hq
      · exact ⟨j, q, hj, hq⟩
  have hrecord : (s.view id).record = some t := ht
  cases pc with
  | release at' =>
    rw [Pc.step, hrecord] at hback
    have hsoft : t.status = .softReclaimed := of_decide_eq_true hre
    exact hback (congrArg (Option.map (releaseRecord at')) hrecord) (if_pos hsoft) rfl rfl rfl
  | recovered =>
    rw [Pc.step, hrecord] at hback
    exact hback (congrArg (Option.map (setStatus .active)) hrecord) rfl rfl rfl rfl
  | _ => cases hre

theorem quiet_spawn {task : Task} (hi : s.tasks i = none)
    (hnames : ∀ x ∈ task.pc.names, ∃ t ∈ s.tenants task.tenant, x ∈ t.names) (hholds : task.pc.holds = none)
    (id : String) : s.Quiet (s.setTask i task) id where
  tenants := rfl
  tasks j q hj := by
    obtain ⟨-, rfl, rfl⟩ | ⟨-, hj⟩ := at_setTask.mp hj
    · exact .inr ⟨hnames, hholds⟩
    · exact .inl hj
  stay j q hj _ := by
    refine at_setTask.mpr (.inr ⟨?_, hj⟩)
    rintro rfl
    exact not_at_of_none hi hj
  owner _ h := h
  target _ _ := .inl rfl

theorem Dropped.quiet {task : Task} (h : Dropped cfg s s' i task) (hi : s.tasks i = some task)
    (hs : ∀ id, s.Named id) (id : String) : s.Quiet s' id where
  tenants := congrFun h.tenants id
  tasks j q hj := .inl (h.at_iff.mp hj).2
  stay j q hj hq := by
    refine h.at_iff.mpr ⟨?_, hj⟩
    rintro rfl
    obtain ⟨-, rfl⟩ := hj.unique ⟨task.flush, hi⟩
    have hhandler := h.handler
    rw [Pc.reconciles_of_recordsSoft hq] at hhandler
    cases hhandler
  owner v hv := by
    obtain hsame | ⟨r, -, hsame⟩ := h.daemon
    · rw [hsame, hv]
    · rw [hsame]
      exact Pc.step_owner hv
  target v hv := by
    obtain hsame | ⟨r, -, hsame⟩ := h.daemon
    · exact .inl (by rw [hsame])
    · rw [hsame]
      refine Pc.step_target.imp_right ?_
      rintro ⟨m, hm, hset⟩
      have hat : s.At i task.tenant task.pc := ⟨task.flush, hi⟩
      have howned := (hs task.tenant).owned (v, m) (.inr ⟨i, task.pc, hat, hm⟩)
      obtain rfl := Option.some_inj.mp (howned.symm.trans hv)
      refine ⟨m, .inr ⟨i, task.pc, hat, hm⟩, hset.resolve_right fun hsoft => ?_⟩
      have hhandler := h.handler
      rw [Pc.reconciles_of_step (Pc.reconciles_of_recordsSoft hsoft)] at hhandler
      cases hhandler

theorem request_quiet (req : Request) (now : Time) : (req.pc now).names = [] ∧ (req.pc now).holds = none := by
  cases req with
  | create c =>
    obtain ⟨response, h⟩ | h := checkConfig_cases c
    all_goals
      rw [Request.pc, h]
      exact ⟨rfl, rfl⟩
  | acquire id | release id | delete id => exact ⟨rfl, rfl⟩

theorem next_cases (hs : ∀ id, s.Named id) (h : s.next cfg a = some s') (ha : a ≠ .restart) (id : String) :
    s.Quiet s' id ∨ ∃ i r task, a = .resume i r ∧ s.tasks i = some task ∧ task.acts = true ∧ task.tenant = id ∧
      s' = s.apply i id (task.pc.step cfg id s.now r (s.view id)) := by
  cases a with
  | request i req =>
    obtain ⟨hi, rfl⟩ := spawn_cases h
    obtain ⟨hnames, hholds⟩ := request_quiet req s.now
    exact .inl (quiet_spawn hi (fun x hx => nomatch hnames ▸ hx) hholds id)
  | cycle i id' =>
    obtain ⟨t, ht, -, hi, rfl⟩ := cycle_cases h
    refine .inl (quiet_spawn hi ?_ rfl id)
    intro x hx
    exact ⟨t, ht, hx⟩
  | resume i r =>
    obtain ⟨task, hi, h⟩ := Option.bind_eq_some_iff.mp h
    obtain ⟨-, flush, file, rfl⟩ | ⟨hacts, -, rfl⟩ := resume_cases h
    · left
      have hat {j : Nat} {q : Pc} : (s.setTask i { task with flush := flush }).At j id q ↔ s.At j id q := at_flush hi
      exact ⟨rfl, fun j q hj => .inl (hat.mp hj), fun j q hj _ => hat.mpr hj, fun _ h => h, fun _ _ => .inl rfl⟩
    · by_cases hid : task.tenant = id
      · exact .inr ⟨i, r, task, rfl, hi, hacts, hid, by rw [hid]⟩
      · left
        refine ⟨Function.update_of_ne (Ne.symm hid) _ _, ?_, ?_, fun v hv => Pc.step_owner hv, fun v hv => ?_⟩
        · intro j q hj
          obtain ⟨-, htenant, -⟩ | ⟨-, hj⟩ := at_apply.mp hj
          · exact absurd htenant.symm hid
          · exact .inl hj
        · intro j q hj _
          refine at_apply.mpr (.inr ⟨?_, hj⟩)
          rintro rfl
          exact hid (hj.unique ⟨task.flush, hi⟩).1.symm
        · refine .inl (Pc.step_target.resolve_right ?_)
          rintro ⟨m, hm, -⟩
          have howned := (hs task.tenant).owned (v, m) (.inr ⟨i, task.pc, ⟨task.flush, hi⟩, hm⟩)
          exact hid (Option.some_inj.mp (howned.symm.trans hv))
  | drop i served =>
    obtain ⟨task, hi, h⟩ := next_drop h
    exact .inl ((drop_cases h).quiet hi hs id)
  | exit v =>
    cases h
    left
    refine ⟨rfl, fun j q hj => .inl hj, fun j q hj _ => hj, fun u hu => ?_, fun u _ => .inl Daemon.target_stop⟩
    have howner : (s.daemon.modify v Vm.stop).owner u = s.daemon.owner u := Daemon.owner_modify fun _ => rfl
    exact howner.trans hu
  | tick nanos =>
    cases h
    exact .inl ⟨rfl, fun j q hj => .inl hj, fun j q hj _ => hj, fun _ hu => hu, fun _ _ => .inl rfl⟩
  | restart => exact absurd rfl ha

theorem named_next (hs : ∀ id, s.Named id) (h : s.next cfg a = some s') (ha : a ≠ .restart) (id : String) :
    s'.Named id := by
  obtain hquiet | ⟨i, r, task, -, hi, -, rfl, hs'⟩ := next_cases hs h ha id
  · exact (hs id).quiet hquiet
  · exact (hs task.tenant).acts ⟨task.flush, hi⟩ hs'

theorem fullAt_next (hs : ∀ id, s.Named id) (hreclaims : s.Reclaims) (hfull : ∀ id, s.FullAt id)
    (h : s.next cfg a = some s') (ha : a ≠ .restart) : (∀ id, s'.FullAt id) ↔ s.Reinflated a := by
  constructor
  · intro hfull'
    cases a with
    | resume i r =>
      intro task hi hacts t ht hre
      obtain ⟨task', hi', h⟩ := Option.bind_eq_some_iff.mp h
      obtain rfl := Option.some_inj.mp (hi'.symm.trans hi)
      obtain ⟨hidle, -⟩ | ⟨-, -, hs'⟩ := resume_cases h
      · rw [hidle] at hacts
        cases hacts
      · exact inflated_of_fullAt ⟨task'.flush, hi⟩ hs' (hfull' task'.tenant) ht hre
    | request _ _ | cycle _ _ | drop _ _ | exit _ | tick _ | restart => trivial
  · intro hinflated id
    obtain hquiet | ⟨i, r, task, rfl, hi, hacts, rfl, hs'⟩ := next_cases hs h ha id
    · exact (hfull id).quiet (hs id) hquiet
    · exact (hfull task.tenant).acts (hs task.tenant) hreclaims ⟨task.flush, hi⟩ hs' (hinflated task hi hacts)

theorem named_initial (id : String) : initial.Named id := by
  have hat (i : Nat) (pc : Pc) : ¬initial.At i id pc := not_at_of_none rfl
  have hnames (x : VmId × UInt32) : ¬initial.Names id x := by
    rintro (⟨t, ht, -⟩ | ⟨i, pc, hi, -⟩)
    · cases ht
    · exact hat i pc hi
  exact ⟨fun x hx => absurd hx (hnames x), fun v m n hm => absurd hm (hnames _), fun i pc v hi => absurd hi (hat i pc),
    fun i pc v hi => absurd hi (hat i pc), fun i j p q v hi => absurd hi (hat i p)⟩

theorem fullAt_initial (id : String) : initial.FullAt id := by
  intro t ht
  cases ht

/-- In every run until the controller restarts, whatever becomes of the calls: every `Active` tenant has its
full memory in every state if and only if `Active` is set again only for a VM that has its full memory. -/
theorem fullAt_iff_reinflated (cfg : ControllerConfig) {s : ControllerState} {as : List Action} :
    Steps (fun s a t => (s.next cfg a = some t ∧ a ≠ .restart) ∧ ∀ id, t.FullAt id) initial as s ↔
      Steps (fun s a t => (s.next cfg a = some t ∧ a ≠ .restart) ∧ s.Reinflated a) initial as s :=
  Steps.iff_of_step (I := fun s : ControllerState => (∀ id, s.Named id) ∧ s.Reclaims)
    (P := fun s : ControllerState => ∀ id, s.FullAt id)
    (fun _ _ _ h hs => ⟨named_next hs.1 h.1 h.2, reclaims_next hs.2 h.1⟩)
    (fun _ _ _ h hs hfull => fullAt_next hs.1 hs.2 hfull h.1 h.2) ⟨named_initial, reclaims_initial⟩ fullAt_initial

def softReclaimed : List Action :=
  List.flatten [[.request 0 (.create (demoTenant none))], resumes 0 3 "", [.request 1 (.acquire "demo")],
    resumes 1 13 "172.30.0.2", [.tick (120 * TenantState.nanosPerSec), .cycle 2 "demo"], resumes 2 6 ""]

def softReleased : List Action := List.flatten [softReclaimed, [.request 3 (.release "demo")], resumes 3 3 ""]

theorem softReleased_not_full : ∃ s record,
    Steps (fun s a t => s.next .defaults a = some t) initial softReleased s ∧
    (∀ i pc, s.At i "demo" pc → pc.finished = true) ∧ s.tenants "demo" = some record ∧ record.status = .active ∧
    record.vmId = some 0 ∧ record.config.memMb = 512 ∧ s.daemon.target 0 = some 256 ∧ ¬s.FullAt "demo" := by
  have hend : (Steps.trace (next .defaults) (fun _ _ => True) initial softReleased).bind (fun s =>
      (s.tenants "demo").map fun t =>
        ((t.status, t.vmId, t.config.memMb), s.daemon.target 0, s.daemon.fullMemory t, s.idleBelow 4)) =
      some ((.active, some 0, 512), some 256, false, true) := by decide
  obtain ⟨s, hs, hend⟩ := Option.bind_eq_some_iff.mp hend
  obtain ⟨record, hrecord, hend⟩ := Option.map_eq_some_iff.mp hend
  simp only [Prod.mk.injEq] at hend
  obtain ⟨⟨hstatus, hvm, hmem⟩, htarget, hfull, hidle⟩ := hend
  have hrun := (Steps.of_trace hs).mono fun _ _ _ h => h.1
  have hfinished (i : Nat) (pc : Pc) (hi : s.At i "demo" pc) : pc.finished = true :=
    finished_of_run hrun (by decide) hidle hi
  refine ⟨s, record, hrun, hfinished, hrecord, hstatus, hvm, hmem, htarget, fun h => ?_⟩
  rcases h record hrecord hstatus with h | ⟨i, pc, hi, hsoft⟩
  · rw [hfull] at h
    cases h
  · have hdone := hfinished i pc hi
    cases pc <;> simp_all [Pc.finished, Pc.recordsSoft]

end ControllerState

end CloneVmm.Controller
