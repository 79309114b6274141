import CloneVmm.Controller.Tasks

namespace CloneVmm.Controller

namespace Daemon

def RunsFor (d : Daemon) (id : String) (v : VmId) : Prop :=
  ∃ vm, d.vms[v]? = some vm ∧ vm.tenant = id ∧ vm.running = true

def Runs (d : Daemon) (id : String) (v : VmId) : Prop :=
  ∃ vm, d.vms[v]? = some vm ∧ vm.tenant = id ∧ vm.running = true ∧ vm.answered = true

def Counted (every : Prop) (d : Daemon) (id : String) (v : VmId) : Prop :=
  ∃ vm, d.vms[v]? = some vm ∧ vm.tenant = id ∧ vm.running = true ∧ (vm.answered = true ∨ every)

variable {every : Prop} {d : Daemon} {id : String} {v w : VmId} {r : Reply}

theorem Runs.counted (h : d.Runs id v) : d.Counted every id v := by
  obtain ⟨vm, hvm, hid, hrun, hanswered⟩ := h
  exact ⟨vm, hvm, hid, hrun, .inl hanswered⟩

theorem RunsFor.counted (h : d.RunsFor id v) : d.Counted True id v := by
  obtain ⟨vm, hvm, hid, hrun⟩ := h
  exact ⟨vm, hvm, hid, hrun, .inr trivial⟩

theorem Counted.isRunning (h : d.Counted every id v) : d.isRunning v = true := by
  obtain ⟨vm, hvm, -, hrun, -⟩ := h
  simp [Daemon.isRunning, hvm, hrun]

theorem getElem?_modify {f : Vm → Vm} :
    (d.modify v f).vms[w]? = d.vms[w]?.map fun vm => if v = w then f vm else vm := List.getElem?_modify f v d.vms w

theorem runs_modify {f : Vm → Vm} (hf : ∀ vm, (f vm).tenant = vm.tenant ∧ (f vm).answered = vm.answered ∧
    ((f vm).running = true → vm.running = true)) (h : (d.modify v f).Counted every id w) : d.Counted every id w := by
  obtain ⟨vm, hvm, hid, hrun, hans⟩ := h
  rw [getElem?_modify, Option.map_eq_some_iff] at hvm
  obtain ⟨old, hold, rfl⟩ := hvm
  refine ⟨old, hold, ?_⟩
  obtain ⟨htenant, hanswered, hrunning⟩ := hf old
  split at hid
  · rename_i hvw
    rw [if_pos hvw] at hrun hans
    exact ⟨htenant ▸ hid, hrunning hrun, hanswered ▸ hans⟩
  · rename_i hvw
    rw [if_neg hvw] at hrun hans
    exact ⟨hid, hrun, hans⟩

theorem runs_stop (h : (d.modify v Vm.stop).Counted every id w) : d.Counted every id w := by
  have hstop (vm : Vm) : vm.stop.tenant = vm.tenant ∧ vm.stop.answered = vm.answered ∧
      (vm.stop.running = true → vm.running = true) := by simp [Vm.stop]
  exact runs_modify hstop h

theorem not_runs_stop : ¬(d.modify v Vm.stop).Counted every id v := by
  rintro ⟨vm, hvm, -, hrun, -⟩
  rw [getElem?_modify, Option.map_eq_some_iff] at hvm
  obtain ⟨old, -, rfl⟩ := hvm
  simp [Vm.stop] at hrun

theorem runs_insert {vm : Vm} (h : (d.insert vm).Counted every id w) :
    d.Counted every id w ∨ (w = d.vms.length ∧ vm.tenant = id ∧ (vm.answered = true ∨ every)) := by
  obtain ⟨new, hnew, hid, hrun, hans⟩ := h
  simp only [insert, List.getElem?_append] at hnew
  split at hnew
  · exact .inl ⟨new, hnew, hid, hrun, hans⟩
  · rename_i hlen
    rw [List.getElem?_singleton, Option.ite_none_right_eq_some, Option.some_inj] at hnew
    obtain ⟨hzero, rfl⟩ := hnew
    have hw : w = d.vms.length := Nat.le_antisymm (Nat.sub_eq_zero_iff_le.mp hzero) (Nat.not_lt.mp hlen)
    exact .inr ⟨hw, hid, hans⟩

theorem runs_destroy (h : (d.destroy v r).Counted every id w) : d.Counted every id w := by
  cases r with
  | ok text => exact runs_stop h
  | refused e => exact h
  | lost e => exact runs_stop h

theorem not_runs_destroy (hr : r.isRefused = true → d.isRunning v = false) : ¬(d.destroy v r).Counted every id v := by
  cases r with
  | ok text => exact not_runs_stop
  | refused e =>
    intro h
    have hrun := h.isRunning
    rw [destroy, hr rfl] at hrun
    cases hrun
  | lost e => exact not_runs_stop

theorem runs_balloon {mb : UInt32} (h : (d.balloon v mb r).2.Counted every id w) : d.Counted every id w := by
  have hkeep (vm : Vm) : (vm.setBalloon mb).tenant = vm.tenant ∧ (vm.setBalloon mb).answered = vm.answered ∧
      ((vm.setBalloon mb).running = true → vm.running = true) := ⟨rfl, rfl, fun hrun => hrun⟩
  have hset : (d.modify v (Vm.setBalloon mb)).Counted every id w → d.Counted every id w := runs_modify hkeep
  cases r with
  | ok text => exact hset h
  | refused e => exact h
  | lost e => exact hset h

end Daemon

def VmStatus.keepsVm : VmStatus → Bool
  | active | softReclaimed | saving | failed _ => true
  | notFound | starting | saved => false

def VmStatus.startable : VmStatus → Bool
  | notFound | saved | failed _ => true
  | starting | active | softReclaimed | saving => false

namespace Pc

def launching : Pc → Bool
  | coldConfig | createVm _ | restoreVm _ | fetchGuestIp _ _ | cleanup _ _ | waitForPort _ _ _ | started _ _ _
  | fail true _ => true
  | _ => false

def holds : Pc → Option VmId
  | fetchGuestIp _ v | cleanup _ v | waitForPort v _ _ | started _ v _ => some v
  | _ => none

def destroys : Pc → Option VmId
  | destroyDeleted v => some v
  | _ => none

def issues : Pc → Bool
  | createVm _ | restoreVm _ => true
  | _ => false

theorem launching_of_holds {pc : Pc} {v : VmId} (h : pc.holds = some v) : pc.launching = true := by
  cases pc <;> simp_all [holds, launching]

theorem launching_of_issues {pc : Pc} (h : pc.issues = true) : pc.launching = true ∧ pc.holds = none := by
  cases pc <;> simp_all [issues, holds, launching]

theorem not_finished_of_launching {pc : Pc} (h : pc.launching = true) : pc.finished = false := by
  cases pc <;> simp_all [launching, finished]

theorem not_finished_of_destroys {pc : Pc} {v : VmId} (h : pc.destroys = some v) : pc.finished = false := by
  cases pc <;> simp_all [destroys, finished]

end Pc

namespace ControllerState

structure Abandoned (s : ControllerState) (id : String) : Prop where
  starting : ∀ t ∈ s.tenants id, t.status = .starting
  idle : ∀ i pc, s.At i id pc → pc.launching = false

def Owned (every : Prop) (s : ControllerState) (id : String) (v : VmId) : Prop :=
  (∃ t, s.tenants id = some t ∧ t.status.keepsVm = true ∧ t.vmId = some v) ∨
    (∃ i pc, s.At i id pc ∧ pc.holds = some v) ∨
    (s.tenants id = none ∧ ∃ i pc, s.At i id pc ∧ pc.destroys = some v) ∨
    (every ∧ s.Abandoned id)

structure Accounted (every : Prop) (s : ControllerState) (id : String) : Prop where
  starting : ∀ i pc, s.At i id pc → pc.launching = true → ∃ t, s.tenants id = some t ∧ t.status = .starting
  single : ∀ i j p q, s.At i id p → s.At j id q → p.launching = true → q.launching = true → i = j
  owned : ∀ v, s.daemon.Counted every id v → s.Owned every id v
  one : ∀ v w, s.daemon.Counted every id v → s.daemon.Counted every id w → v = w

def namesRunning (s : ControllerState) (t : TenantState) : Bool := t.vmId.any s.daemon.isRunning

def NoneRuns (s : ControllerState) (id : String) : Prop :=
  ∀ vm ∈ s.daemon.vms, vm.tenant = id → vm.running = false

def OrderlyAt (s : ControllerState) (id : String) (r : Reply) : Pc → Prop
  -- `Starting` is set where `acquire` would still start a VM, and the VM of the record is gone.
  | .coldCreate | .restoreStart _ =>
    ∀ t ∈ s.tenants id, t.status.startable = true ∧ s.namesRunning t = false
  -- No other status is written and no record removed while a VM is being launched.
  | .recovered | .fail false _ | .markSaving _ _ _ | .deleteTenant => ∀ t ∈ s.tenants id, t.status ≠ .starting
  | .saveFailed _ => ∀ t ∈ s.tenants id, t.status ≠ .starting ∧ s.namesRunning t = false
  | .writeBack new =>
    ∀ t ∈ s.tenants id, t.status ≠ .starting ∧ (s.namesRunning t = true → new.status.keepsVm = true ∧ new.vmId = t.vmId)
  -- A VM that the task gives up is no longer running.
  | .cleanup _ v | .destroyDeleted v => r.isRefused = true → s.daemon.isRunning v = false
  | .waitForPort v _ _ => r.isOk = false → s.daemon.isRunning v = false
  | .createTenant _ => s.NoneRuns id
  | _ => True

section Accounted

variable {every : Prop} {cfg : ControllerConfig} {s s' : ControllerState} {i : Nat} {id : String} {pc : Pc} {e : Effect}
  {r : Reply}
  {t : TenantState} {now : Time}

theorem Abandoned.of_launching (h : s.Abandoned id) (hstarting : ∀ t ∈ s'.tenants id, t.status = .starting)
    (hlaunching : ∀ j q, s'.At j id q → q.launching = true → ∃ p, s.At j id p ∧ p.launching = true) :
    s'.Abandoned id := by
  refine ⟨hstarting, fun j q hj => ?_⟩
  by_contra hq
  obtain ⟨p, hp, hlaunch⟩ := hlaunching j q hj (Bool.not_eq_false _ ▸ hq)
  rw [h.idle j p hp] at hlaunch
  cases hlaunch

theorem Owned.congr {v : VmId} (h : s.Owned every id v) (htenants : s'.tenants id = s.tenants id)
    (hat : ∀ j pc, s.At j id pc → s'.At j id pc)
    (hlaunching : ∀ j q, s'.At j id q → q.launching = true → ∃ p, s.At j id p ∧ p.launching = true) :
    s'.Owned every id v := by
  obtain ⟨t, ht, hrecord⟩ | ⟨i, pc, hi, hpc⟩ | ⟨hnone, i, pc, hi, hpc⟩ | ⟨hevery, hleft⟩ := h
  · exact .inl ⟨t, htenants.trans ht, hrecord⟩
  · exact .inr (.inl ⟨i, pc, hat i pc hi, hpc⟩)
  · exact .inr (.inr (.inl ⟨htenants.trans hnone, i, pc, hat i pc hi, hpc⟩))
  · exact .inr (.inr (.inr ⟨hevery, hleft.of_launching (htenants ▸ hleft.starting) hlaunching⟩))

theorem Accounted.of_launching (hs : s.Accounted every id)
    (hlaunching : ∀ j q, s'.At j id q → q.launching = true → ∃ p, s.At j id p ∧ p.launching = true)
    (hstarting : (∃ t, s.tenants id = some t ∧ t.status = .starting) →
      ∃ t, s'.tenants id = some t ∧ t.status = .starting)
    (howned : ∀ v, s'.daemon.Counted every id v → s'.Owned every id v)
    (hone : ∀ v w, s'.daemon.Counted every id v → s'.daemon.Counted every id w → v = w) : s'.Accounted every id := by
  refine ⟨?_, ?_, howned, hone⟩
  · intro j q hj hq
    obtain ⟨p, hp, hl⟩ := hlaunching j q hj hq
    exact hstarting (hs.starting j p hp hl)
  · intro j k p q hj hk hp hq
    obtain ⟨p', hp', hlp⟩ := hlaunching j p hj hp
    obtain ⟨q', hq', hlq⟩ := hlaunching k q hk hq
    exact hs.single j k p' q' hp' hq' hlp hlq

theorem accounted_of_not_launching (hidle : ∀ j q, s.At j id q → q.launching = false)
    (howned : ∀ v, s.daemon.Counted every id v → s.Owned every id v)
    (hone : ∀ v w, s.daemon.Counted every id v → s.daemon.Counted every id w → v = w) : s.Accounted every id := by
  refine ⟨?_, ?_, howned, hone⟩
  · intro j q hj hq
    rw [hidle j q hj] at hq
    cases hq
  · intro j k p q hj _ hp
    rw [hidle j p hj] at hp
    cases hp

theorem Accounted.congr (hs : s.Accounted every id) (htenants : s'.tenants id = s.tenants id)
    (hat : ∀ j pc, s'.At j id pc ↔ s.At j id pc) (hruns : ∀ v, s'.daemon.Counted every id v → s.daemon.Counted every id v) :
    s'.Accounted every id := by
  have hlaunching (j : Nat) (q : Pc) (hj : s'.At j id q) (hq : q.launching = true) :
      ∃ p, s.At j id p ∧ p.launching = true := ⟨q, (hat j q).mp hj, hq⟩
  refine hs.of_launching hlaunching ?_ ?_ fun v w hv hw => hs.one v w (hruns v hv) (hruns w hw)
  · rw [htenants]
    exact fun h => h
  · intro v hv
    exact (hs.owned v (hruns v hv)).congr htenants (fun j pc hj => (hat j pc).mpr hj) hlaunching

theorem Accounted.spawn (hs : s.Accounted every id) (hi : s.tasks i = none) {task : Task}
    (hpc : task.pc.launching = false) : (s.setTask i task).Accounted every id := by
  have hlaunching (j : Nat) (q : Pc) (hj : (s.setTask i task).At j id q) (hq : q.launching = true) :
      ∃ p, s.At j id p ∧ p.launching = true := by
    obtain ⟨-, -, rfl⟩ | ⟨-, hj⟩ := at_setTask.mp hj
    · rw [hpc] at hq
      cases hq
    · exact ⟨q, hj, hq⟩
  refine hs.of_launching hlaunching (fun h => h) (fun v hv => ?_) hs.one
  refine (hs.owned v hv).congr rfl (fun j pc hj => at_setTask.mpr (.inr ⟨?_, hj⟩)) hlaunching
  rintro rfl
  exact not_at_of_none hi hj

theorem launching_apply (hi : s.At i id pc) (hlaunch : e.pc.launching = true → pc.launching = true) {j : Nat} {q : Pc}
    (hj : (s.apply i id e).At j id q) (hq : q.launching = true) : ∃ p, s.At j id p ∧ p.launching = true := by
  obtain ⟨rfl, -, rfl⟩ | ⟨-, hj⟩ := at_apply.mp hj
  · exact ⟨pc, hi, hlaunch hq⟩
  · exact ⟨q, hj, hq⟩

theorem runs_apply (hdaemon : e.daemon = s.daemon) {v : VmId} (hv : (s.apply i id e).daemon.Counted every id v) :
    s.daemon.Counted every id v := by
  rw [← hdaemon]
  exact hv

def key (t : TenantState) : VmStatus × Option VmId := (t.status, t.vmId)

theorem exists_of_key {a b : Option TenantState} {P : VmStatus × Option VmId → Prop} (h : a.map key = b.map key)
    (hb : ∃ t, b = some t ∧ P (key t)) : ∃ t, a = some t ∧ P (key t) := by
  obtain ⟨t, rfl, ht⟩ := hb
  rw [Option.map_some, Option.map_eq_some_iff] at h
  obtain ⟨t', rfl, hkey⟩ := h
  exact ⟨t', rfl, hkey ▸ ht⟩

theorem Accounted.keep (hs : s.Accounted every id) (hi : s.At i id pc) (hkey : e.record.map key = (s.tenants id).map key)
    (hlaunch : e.pc.launching = true → pc.launching = true)
    (hruns : ∀ v, e.daemon.Counted every id v → s.daemon.Counted every id v)
    (hholds : ∀ v, pc.holds = some v → e.daemon.Counted every id v → e.pc.holds = some v)
    (hdestroys : ∀ v, pc.destroys = some v → ¬e.daemon.Counted every id v) : (s.apply i id e).Accounted every id := by
  refine hs.of_launching (fun j q => launching_apply hi hlaunch) ?_ ?_
    fun v w hv hw => hs.one v w (hruns v hv) (hruns w hw)
  · intro h
    rw [apply_tenants]
    exact exists_of_key (P := fun k => k.1 = .starting) hkey h
  · intro v hv
    obtain hrecord | ⟨j, q, hj, hq⟩ | ⟨hnone, j, q, hj, hq⟩ | ⟨hevery, hleft⟩ := hs.owned v (hruns v hv)
    · left
      rw [apply_tenants]
      exact exists_of_key (P := fun k => k.1.keepsVm = true ∧ k.2 = some v) hkey hrecord
    · by_cases hij : j = i
      · subst hij
        obtain ⟨-, rfl⟩ := hi.unique hj
        exact .inr (.inl ⟨j, e.pc, at_apply.mpr (.inl ⟨rfl, rfl, rfl⟩), hholds v hq hv⟩)
      · exact .inr (.inl ⟨j, q, at_apply.mpr (.inr ⟨hij, hj⟩), hq⟩)
    · rw [hnone] at hkey
      by_cases hij : j = i
      · subst hij
        obtain ⟨-, rfl⟩ := hi.unique hj
        exact absurd hv (hdestroys v hq)
      · refine .inr (.inr (.inl ⟨?_, j, q, at_apply.mpr (.inr ⟨hij, hj⟩), hq⟩))
        rw [apply_tenants]
        exact Option.map_eq_none_iff.mp hkey
    · refine .inr (.inr (.inr ⟨hevery, hleft.of_launching ?_ fun j q => launching_apply hi hlaunch⟩))
      intro t ht
      rw [apply_tenants, Option.mem_def] at ht
      rw [ht, Option.map_some, eq_comm, Option.map_eq_some_iff] at hkey
      obtain ⟨t', ht', hkey⟩ := hkey
      exact (congrArg Prod.fst hkey).symm.trans (hleft.starting t' ht')

theorem Accounted.not_launching (hs : s.Accounted every id) (ht : s.tenants id = some t) (hst : t.status ≠ .starting)
    {j : Nat} {q : Pc} (hj : s.At j id q) : q.launching = false := by
  by_contra hl
  obtain ⟨t', ht', hst'⟩ := hs.starting j q hj (Bool.not_eq_false _ ▸ hl)
  rw [ht, Option.some_inj] at ht'
  exact hst (ht' ▸ hst')

theorem Accounted.not_launching_apply (hs : s.Accounted every id) (ht : s.tenants id = some t) (hst : t.status ≠ .starting)
    (hlaunch : e.pc.launching = false) {j : Nat} {q : Pc} (hj : (s.apply i id e).At j id q) : q.launching = false := by
  obtain ⟨-, -, rfl⟩ | ⟨-, hj⟩ := at_apply.mp hj
  · exact hlaunch
  · exact hs.not_launching ht hst hj

theorem Accounted.named (hs : s.Accounted every id) (ht : s.tenants id = some t) (hst : t.status ≠ .starting) {v : VmId}
    (hv : s.daemon.Counted every id v) : t.status.keepsVm = true ∧ t.vmId = some v := by
  obtain ⟨t', ht', hrecord⟩ | ⟨j, q, hj, hq⟩ | ⟨hnone, -⟩ | ⟨-, hleft⟩ := hs.owned v hv
  · rw [ht, Option.some_inj] at ht'
    exact ht' ▸ hrecord
  · have hl := Pc.launching_of_holds hq
    rw [hs.not_launching ht hst hj] at hl
    cases hl
  · rw [ht] at hnone
    cases hnone
  · exact absurd (hleft.starting t ht) hst

theorem Accounted.rewrite (hs : s.Accounted every id) (ht : s.tenants id = some t) (hst : t.status ≠ .starting)
    {t' : TenantState} (hrecord : e.record = some t') (hlaunch : e.pc.launching = false)
    (hdaemon : e.daemon = s.daemon)
    (hnames : ∀ v, t.vmId = some v → s.daemon.Counted every id v → t.status.keepsVm = true →
      t'.status.keepsVm = true ∧ t'.vmId = some v) : (s.apply i id e).Accounted every id := by
  refine accounted_of_not_launching (fun j q => hs.not_launching_apply ht hst hlaunch) ?_
    fun v w hv hw => hs.one v w (runs_apply hdaemon hv) (runs_apply hdaemon hw)
  intro v hv
  have hv := runs_apply hdaemon hv
  obtain ⟨hkeeps, hvm⟩ := hs.named ht hst hv
  exact .inl ⟨t', apply_tenants.trans hrecord, hnames v hvm hv hkeeps⟩

theorem namesRunning_of_runs {v : VmId} (hvm : t.vmId = some v) (hv : s.daemon.Counted every id v) :
    s.namesRunning t = true := by
  simp [namesRunning, hvm, hv.isRunning]

theorem Accounted.launch (hs : s.Accounted every id) (ht : s.tenants id = some t) (hstart : t.status.startable = true)
    (hnames : s.namesRunning t = false) {t' : TenantState} (hrecord : e.record = some t')
    (hst' : t'.status = .starting) (hdaemon : e.daemon = s.daemon) : (s.apply i id e).Accounted every id := by
  have hst : t.status ≠ .starting := by
    intro h
    rw [h] at hstart
    cases hstart
  have hquiet : ∀ v, ¬(s.apply i id e).daemon.Counted every id v := by
    intro v hv
    have hv : s.daemon.Counted every id v := hdaemon ▸ hv
    rw [namesRunning_of_runs (hs.named ht hst hv).2 hv] at hnames
    cases hnames
  have hself : ∀ j q, (s.apply i id e).At j id q → q.launching = true → j = i := by
    intro j q hj hq
    obtain ⟨hj, -, -⟩ | ⟨-, hj⟩ := at_apply.mp hj
    · exact hj
    · rw [hs.not_launching ht hst hj] at hq
      cases hq
  refine ⟨?_, ?_, fun v hv => absurd hv (hquiet v), fun v _ hv => absurd hv (hquiet v)⟩
  · intro j q _ _
    exact ⟨t', by rw [apply_tenants, hrecord], hst'⟩
  · intro j k p q hj hk hp hq
    exact (hself j p hj hp).trans (hself k q hk hq).symm

theorem Accounted.holder (hs : s.Accounted every id) (hi : s.At i id pc) (hpc : pc.launching = true) {v : VmId}
    (hv : s.daemon.Counted every id v) : pc.holds = some v := by
  obtain ⟨t, ht, hst⟩ := hs.starting i pc hi hpc
  obtain ⟨t', ht', hkeeps, -⟩ | ⟨j, q, hj, hq⟩ | ⟨hnone, -⟩ | ⟨-, hleft⟩ := hs.owned v hv
  · rw [ht, Option.some_inj] at ht'
    rw [← ht', hst] at hkeeps
    cases hkeeps
  · obtain rfl := hs.single i j pc q hi hj hpc (Pc.launching_of_holds hq)
    obtain ⟨-, rfl⟩ := hi.unique hj
    exact hq
  · rw [ht] at hnone
    cases hnone
  · rw [hleft.idle i pc hi] at hpc
    cases hpc

theorem Accounted.started (hs : s.Accounted every id) (hi : s.At i id pc) (hpc : pc.launching = true)
    (hfree : pc.holds = none) (hrecord : e.record = s.tenants id)
    (hruns : ∀ v, e.daemon.Counted every id v → s.daemon.Counted every id v ∨ e.pc.holds = some v) :
    (s.apply i id e).Accounted every id := by
  have hown : ∀ v, e.daemon.Counted every id v → e.pc.holds = some v := by
    intro v hv
    refine (hruns v hv).resolve_left fun hold => ?_
    have hholds := hs.holder hi hpc hold
    rw [hfree] at hholds
    cases hholds
  refine hs.of_launching (fun j q => launching_apply hi fun _ => hpc) ?_ ?_ ?_
  · intro h
    rw [apply_tenants, hrecord]
    exact h
  · intro v hv
    exact .inr (.inl ⟨i, e.pc, at_apply.mpr (.inl ⟨rfl, rfl, rfl⟩), hown v hv⟩)
  · intro v w hv hw
    exact Option.some_inj.mp ((hown v hv).symm.trans (hown w hw))

theorem Accounted.settle (hs : s.Accounted every id) (hi : s.At i id pc) (hpc : pc.launching = true)
    {t' : TenantState} (hrecord : e.record = some t') (hlaunch : e.pc.launching = false)
    (hdaemon : e.daemon = s.daemon)
    (hnames : ∀ v, pc.holds = some v → t'.status.keepsVm = true ∧ t'.vmId = some v) :
    (s.apply i id e).Accounted every id := by
  refine accounted_of_not_launching ?_ ?_
    fun v w hv hw => hs.one v w (runs_apply hdaemon hv) (runs_apply hdaemon hw)
  · intro j q hj
    obtain ⟨-, -, rfl⟩ | ⟨hne, hj⟩ := at_apply.mp hj
    · exact hlaunch
    · by_contra hq
      exact hne (hs.single j i q pc hj hi (Bool.not_eq_false _ ▸ hq) hpc)
  · intro v hv
    exact .inl ⟨t', apply_tenants.trans hrecord, hnames v (hs.holder hi hpc (runs_apply hdaemon hv))⟩

theorem Accounted.remove (hs : s.Accounted every id) (ht : s.tenants id = some t) (hst : t.status ≠ .starting)
    (hrecord : e.record = none) (hlaunch : e.pc.launching = false) (hdaemon : e.daemon = s.daemon)
    (hdoomed : ∀ v, t.status.keepsVm = true → t.vmId = some v → e.pc.destroys = some v) :
    (s.apply i id e).Accounted every id := by
  refine accounted_of_not_launching (fun j q => hs.not_launching_apply ht hst hlaunch) ?_
    fun v w hv hw => hs.one v w (runs_apply hdaemon hv) (runs_apply hdaemon hw)
  intro v hv
  obtain ⟨hkeeps, hvm⟩ := hs.named ht hst (runs_apply hdaemon hv)
  refine .inr (.inr (.inl ⟨apply_tenants.trans hrecord, i, e.pc, ?_, hdoomed v hkeeps hvm⟩))
  exact at_apply.mpr (.inl ⟨rfl, rfl, rfl⟩)

theorem NoneRuns.not_runs (h : s.NoneRuns id) (v : VmId) : ¬s.daemon.Counted every id v := by
  rintro ⟨vm, hvm, hid, hrun, -⟩
  rw [h vm (List.mem_of_getElem? hvm) hid] at hrun
  cases hrun

theorem Accounted.register (hs : s.Accounted every id) (hnone : s.tenants id = none) (hquiet : s.NoneRuns id)
    (hlaunch : e.pc.launching = false) (hdaemon : e.daemon = s.daemon) : (s.apply i id e).Accounted every id := by
  have hruns : ∀ v, ¬(s.apply i id e).daemon.Counted every id v := fun v hv => hquiet.not_runs v (runs_apply hdaemon hv)
  refine accounted_of_not_launching ?_ (fun v hv => absurd hv (hruns v)) fun v _ hv => absurd hv (hruns v)
  intro j q hj
  obtain ⟨-, -, rfl⟩ | ⟨-, hj⟩ := at_apply.mp hj
  · exact hlaunch
  · by_contra hq
    obtain ⟨t, ht, -⟩ := hs.starting j q hj (Bool.not_eq_false _ ▸ hq)
    rw [hnone] at ht
    cases ht

theorem Accounted.goto (hs : s.Accounted every id) (hi : s.At i id pc) (hrecord : e.record = s.tenants id)
    (hdaemon : e.daemon = s.daemon) (hlaunch : e.pc.launching = true → pc.launching = true)
    (hholds : pc.holds = none ∨ e.pc.holds = pc.holds) (hdestroys : pc.destroys = none) :
    (s.apply i id e).Accounted every id := by
  refine hs.keep hi (by rw [hrecord]) hlaunch (fun v hv => hdaemon ▸ hv) ?_ ?_
  · intro v hv _
    rcases hholds with hnone | hsame
    · rw [hnone] at hv
      cases hv
    · rw [hsame, hv]
  · intro v hv
    rw [hdestroys] at hv
    cases hv

theorem Accounted.leave (hs : s.Accounted every id) (hi : s.At i id pc) (hrecord : e.record = s.tenants id)
    (hdaemon : e.daemon = s.daemon) (hlaunch : e.pc.launching = false) (hholds : pc.holds = none)
    (hdestroys : pc.destroys = none) : (s.apply i id e).Accounted every id := by
  refine hs.goto hi hrecord hdaemon (fun h => ?_) (.inl hholds) hdestroys
  rw [hlaunch] at h
  cases h

theorem acquireDecision_launching : (acquireDecision id t).launching = false := by
  unfold acquireDecision
  split
  case h_7 => split <;> rfl
  all_goals rfl

theorem reconcileDecision_launching : (reconcileDecision cfg id now t).launching = false := by
  obtain ⟨v, path, -, h⟩ | ⟨v, h⟩ | h | h := reconcileDecision_cases cfg id now t
  all_goals
    rw [h]
    rfl

theorem afterGuestIp_holds {launch : Launch} {v : VmId} {ip : Option String} :
    (afterGuestIp launch v ip).holds = some v := by
  unfold afterGuestIp
  split
  · rfl
  · split <;> rfl

theorem afterSave_launching {v : VmId} {path : String} {result : Except String String} :
    (afterSave t v path result).launching = false := by
  cases result <;> rfl

theorem Accounted.launched (hs : s.Accounted every id) (hi : s.At i id pc) (hpc : pc.launching = true)
    (hfree : pc.holds = none) (hheard : ∀ e, r = .lost e → ¬every) {launch : Launch} :
    (s.apply i id ((s.view id).launched id launch r)).Accounted every id := by
  cases r with
  | ok text =>
    refine hs.started hi hpc hfree rfl fun v hv => ?_
    obtain hold | ⟨rfl, -, -⟩ := Daemon.runs_insert hv
    · exact .inl hold
    · exact .inr rfl
  | refused e => exact hs.started hi hpc hfree rfl fun v hv => .inl hv
  | lost e =>
    refine hs.started hi hpc hfree rfl fun v hv => ?_
    obtain hold | ⟨-, -, hanswered⟩ := Daemon.runs_insert hv
    · exact .inl hold
    · exact absurd (hanswered.resolve_left Bool.false_ne_true) (hheard e rfl)

theorem Accounted.gaveUp (hs : s.Accounted every id) (hi : s.At i id pc) {v : VmId}
    (hv : r.isRefused = true → s.daemon.isRunning v = false) (hpc : pc.holds = some v ∨ pc.holds = none)
    (hdestroys : pc.destroys = some v ∨ pc.destroys = none) {e : Effect} (hrecord : e.record = s.tenants id)
    (hdaemon : e.daemon = s.daemon.destroy v r) (hlaunch : e.pc.launching = true → pc.launching = true) :
    (s.apply i id e).Accounted every id := by
  have hgone : ¬e.daemon.Counted every id v := by
    rw [hdaemon]
    exact Daemon.not_runs_destroy hv
  refine hs.keep hi (by rw [hrecord]) hlaunch ?_ ?_ ?_
  · intro w hw
    rw [hdaemon] at hw
    exact Daemon.runs_destroy hw
  · intro w hw hrun
    rcases hpc with hpc | hpc
    · rw [hpc, Option.some_inj] at hw
      exact absurd (hw ▸ hrun) hgone
    · rw [hpc] at hw
      cases hw
  · intro w hw
    rcases hdestroys with hpc | hpc
    · rw [hpc, Option.some_inj] at hw
      exact hw ▸ hgone
    · rw [hpc] at hw
      cases hw

theorem Accounted.called (hs : s.Accounted every id) (hi : s.At i id pc) (hpc : pc.holds = none)
    (hdestroys : pc.destroys = none) (hrecord : e.record = s.tenants id)
    (hruns : ∀ v, e.daemon.Counted every id v → s.daemon.Counted every id v)
    (hlaunch : e.pc.launching = false) : (s.apply i id e).Accounted every id := by
  refine hs.keep hi (by rw [hrecord]) ?_ hruns ?_ ?_
  · intro h
    rw [hlaunch] at h
    cases h
  · intro v hv
    rw [hpc] at hv
    cases hv
  · intro v hv
    rw [hdestroys] at hv
    cases hv

theorem modify_record {f : TenantState → TenantState} (h : s.tenants id = some t) :
    (s.view id).record.map f = some (f t) := congrArg (Option.map f) h

theorem modify_record_none {f : TenantState → TenantState} (h : s.tenants id = none) :
    (s.view id).record.map f = s.tenants id := by
  rw [h]
  exact congrArg (Option.map f) h

theorem Accounted.note (hs : s.Accounted every id) (hi : s.At i id pc) {f : TenantState → TenantState}
    (hf : ∀ t ∈ s.tenants id, key (f t) = key t) {pc' : Pc} (hpc : pc.holds = none) (hdestroys : pc.destroys = none)
    (hlaunch : pc'.launching = false) : (s.apply i id ((s.view id).modify f pc')).Accounted every id := by
  refine hs.keep hi ?_ ?_ (fun v hv => hv) ?_ ?_
  · cases ht : s.tenants id with
    | none => exact congrArg (Option.map key) ((modify_record_none ht).trans ht)
    | some t =>
      have hkey : some (key (f t)) = some (key t) := congrArg some (hf t ht)
      exact (congrArg (Option.map key) (modify_record ht)).trans hkey
  · intro h
    have hnot : pc'.launching = true := h
    rw [hlaunch] at hnot
    cases hnot
  · intro v hv
    rw [hpc] at hv
    cases hv
  · intro v hv
    rw [hdestroys] at hv
    cases hv

theorem doomedVm_of_keepsVm (h : t.status.keepsVm = true) : doomedVm t = t.vmId := by
  unfold doomedVm
  split
  · rename_i hst
    rw [hst] at h
    cases h
  · rename_i hst
    rw [hst] at h
    cases h
  all_goals rfl

theorem Accounted.deleted (hs : s.Accounted every id) (ht : s.tenants id = some t) (hst : t.status ≠ .starting) :
    (s.apply i id ((s.view id).deleted t)).Accounted every id := by
  unfold View.deleted
  cases hvm : doomedVm t with
  | none =>
    refine hs.remove ht hst rfl rfl rfl fun v hkeeps hv => ?_
    rw [doomedVm_of_keepsVm hkeeps, hv] at hvm
    cases hvm
  | some w =>
    refine hs.remove ht hst rfl rfl rfl fun v hkeeps hv => ?_
    rw [doomedVm_of_keepsVm hkeeps, hv] at hvm
    exact hvm.symm

theorem Accounted.released (hs : s.Accounted every id) (hi : s.At i id (.release now)) (ht : s.tenants id = some t)
    {response : Response} :
    (s.apply i id ((s.view id).modify (releaseRecord now) (.done (some response)))).Accounted every id := by
  by_cases hsoft : t.status = .softReclaimed
  · have hst : t.status ≠ .starting := by
      rw [hsoft]
      exact nofun
    refine hs.rewrite ht hst (modify_record ht) rfl rfl fun v hvm _ _ => ⟨?_, hvm⟩
    rw [releaseRecord, if_pos hsoft]
    rfl
  · refine hs.note hi (fun t' ht' => ?_) rfl rfl rfl
    obtain rfl := Option.some_inj.mp (ht.symm.trans ht')
    rw [key, releaseRecord, if_neg hsoft]
    rfl

theorem Accounted.ballooned (hs : s.Accounted every id) {v : VmId} {memMb : UInt32} (hi : s.At i id (.balloonUp v memMb)) :
    (s.apply i id ((s.view id).balloonedUp v memMb r)).Accounted every id := by
  have hruns : ∀ w, ((s.view id).daemon.balloon v memMb r).2.Counted every id w → s.daemon.Counted every id w := by
    intro w hw
    exact Daemon.runs_balloon hw
  unfold View.balloonedUp
  split
  · rename_i d hd
    rw [hd] at hruns
    exact hs.called hi rfl rfl rfl hruns rfl
  · rename_i d hd
    rw [hd] at hruns
    exact hs.called hi rfl rfl rfl hruns rfl

theorem Accounted.step (hs : s.Accounted every id) (hi : s.At i id pc) (ho : s.OrderlyAt id r pc)
    (hheard : ∀ e, r = .lost e → every → pc.issues = false) :
    (s.apply i id (pc.step cfg id s.now r (s.view id))).Accounted every id := by
  cases pc with
  | acquire =>
    simp only [Pc.step]
    split
    · exact hs.leave hi rfl rfl rfl rfl rfl
    · exact hs.called hi rfl rfl rfl (fun v hv => hv) acquireDecision_launching
  | coldCreate =>
    simp only [Pc.step]
    split
    · exact hs.leave hi rfl rfl rfl rfl rfl
    · rename_i t ht
      obtain ⟨hstart, hnames⟩ := ho t ht
      exact hs.launch ht hstart hnames (modify_record ht) rfl rfl
  | coldConfig =>
    simp only [Pc.step]
    split
    · exact hs.leave hi rfl rfl rfl rfl rfl
    · exact hs.goto hi rfl rfl (fun _ => rfl) (.inl rfl) rfl
  | createVm c => exact hs.launched hi rfl rfl fun e he hevery => Bool.noConfusion (hheard e he hevery)
  | doRestore =>
    simp only [Pc.step]
    split
    all_goals exact hs.leave hi rfl rfl rfl rfl rfl
  | restoreStart path =>
    simp only [Pc.step]
    split
    · exact hs.leave hi rfl rfl rfl rfl rfl
    · rename_i t ht
      obtain ⟨hstart, hnames⟩ := ho t ht
      exact hs.launch ht hstart hnames (modify_record ht) rfl rfl
  | restoreVm path => exact hs.launched hi rfl rfl fun e he hevery => Bool.noConfusion (hheard e he hevery)
  | fetchGuestIp launch v => exact hs.goto hi rfl rfl (fun _ => rfl) (.inr afterGuestIp_holds) rfl
  | cleanup launch v => exact hs.gaveUp hi ho (.inl rfl) (.inr rfl) rfl rfl (fun _ => rfl)
  | waitForPort v ip port =>
    have hfail (e : String) (hgone : s.daemon.isRunning v = false) :
        (s.apply i id ((s.view id).goto (.fail true e))).Accounted every id := by
      refine hs.keep hi rfl (fun _ => rfl) (fun w hw => hw) ?_ ?_
      · intro w hw hrun
        obtain rfl := Option.some_inj.mp hw
        have hrunning : s.daemon.isRunning v = true := hrun.isRunning
        rw [hrunning] at hgone
        cases hgone
      · intro w hw
        cases hw
    cases r with
    | ok text => exact hs.goto hi rfl rfl (fun _ => rfl) (.inr rfl) rfl
    | refused e => exact hfail e (ho rfl)
    | lost e => exact hfail e (ho rfl)
  | started launch v ip =>
    obtain ⟨t, ht, -⟩ := hs.starting i _ hi rfl
    simp only [Pc.step]
    split
    · rename_i hnone
      cases ht.symm.trans hnone
    · refine hs.settle hi rfl (modify_record ht) rfl rfl fun w hw => ?_
      cases launch with
      | cold port => exact ⟨rfl, hw⟩
      | restore => exact ⟨rfl, hw⟩
  | recoverFromSoft =>
    simp only [Pc.step]
    split
    · exact hs.leave hi rfl rfl rfl rfl rfl
    · split
      all_goals exact hs.leave hi rfl rfl rfl rfl rfl
  | balloonUp v memMb => exact hs.ballooned hi
  | recovered =>
    simp only [Pc.step]
    split
    · exact hs.leave hi rfl rfl rfl rfl rfl
    · rename_i t ht
      exact hs.rewrite ht (ho t ht) (modify_record ht) rfl rfl fun v hvm _ _ => ⟨rfl, hvm⟩
  | fail marked e =>
    cases ht : s.tenants id with
    | none => exact hs.leave hi (modify_record_none ht) rfl rfl rfl rfl
    | some t =>
      cases marked with
      | false => exact hs.rewrite ht (ho t ht) (modify_record ht) rfl rfl fun v hvm _ _ => ⟨rfl, hvm⟩
      | true =>
        refine hs.settle hi rfl (modify_record ht) rfl rfl fun v hv => ?_
        cases hv
  | touch outcome =>
    simp only [Pc.step]
    split
    · exact hs.leave hi rfl rfl rfl rfl rfl
    · refine hs.note hi (fun t _ => ?_) rfl rfl rfl
      rfl
  | release at' =>
    simp only [Pc.step]
    split
    · exact hs.leave hi rfl rfl rfl rfl rfl
    · rename_i t ht
      exact hs.released hi ht
  | createTenant c =>
    simp only [Pc.step]
    split
    · exact hs.leave hi rfl rfl rfl rfl rfl
    · rename_i hnone
      exact hs.register hnone ho rfl rfl
  | deleteTenant =>
    simp only [Pc.step]
    split
    · exact hs.leave hi rfl rfl rfl rfl rfl
    · rename_i t ht
      exact hs.deleted ht (ho t ht)
  | destroyDeleted v =>
    refine hs.gaveUp hi ho (.inr rfl) (.inl rfl) rfl rfl fun h => ?_
    cases h
  | reconcileTenant t => exact hs.called hi rfl rfl rfl (fun v hv => hv) reconcileDecision_launching
  | markSaving copy v path =>
    cases ht : s.tenants id with
    | none => exact hs.leave hi (modify_record_none ht) rfl rfl rfl rfl
    | some t => exact hs.rewrite ht (ho t ht) (modify_record ht) rfl rfl fun v hvm _ _ => ⟨rfl, hvm⟩
  | saveVm t v path => exact hs.called hi rfl rfl rfl (fun v hv => hv) afterSave_launching
  | destroySaved t v path => exact hs.called hi rfl rfl rfl (fun w hw => Daemon.runs_destroy hw) rfl
  | destroyUnsaved v e => exact hs.called hi rfl rfl rfl (fun w hw => Daemon.runs_destroy hw) rfl
  | saveFailed e =>
    cases ht : s.tenants id with
    | none => exact hs.leave hi (modify_record_none ht) rfl rfl rfl rfl
    | some t =>
      obtain ⟨hst, hnames⟩ := ho t ht
      refine hs.rewrite ht hst (modify_record ht) rfl rfl fun v hvm hv _ => ?_
      rw [namesRunning_of_runs hvm hv] at hnames
      cases hnames
  | dropCaches t v => exact hs.leave hi rfl rfl rfl rfl rfl
  | balloonDown t v => exact hs.called hi rfl rfl rfl (fun w hw => Daemon.runs_balloon hw) rfl
  | writeBack new =>
    cases ht : s.tenants id with
    | none => exact hs.leave hi (modify_record_none ht) rfl rfl rfl rfl
    | some t =>
      obtain ⟨hst, hkeep⟩ := ho t ht
      refine hs.rewrite ht hst (modify_record ht) rfl rfl fun v hvm hv _ => ?_
      obtain ⟨hkeeps, hsame⟩ := hkeep (namesRunning_of_runs hvm hv)
      exact ⟨hkeeps, hsame.trans hvm⟩
  | noteProbe n ok =>
    refine hs.note hi (fun t _ => ?_) rfl rfl rfl
    rfl
  | done response => exact hs.leave hi rfl rfl rfl rfl rfl
  | panicked => exact hs.leave hi rfl rfl rfl rfl rfl

end Accounted

end ControllerState

theorem Pc.step_daemon (cfg : ControllerConfig) (id : String) (now : Time) (r : Reply) (w : View) (pc : Pc) :
    (pc.step cfg id now r w).daemon = w.daemon ∨ (∃ v, (pc.step cfg id now r w).daemon = w.daemon.destroy v r) ∨
      (∃ v mb, (pc.step cfg id now r w).daemon = (w.daemon.balloon v mb r).2) ∨
      (pc.issues = true ∧ (pc.step cfg id now r w).daemon = (w.daemon.start id r).2) := by
  have hlaunched (launch : Launch) : (w.launched id launch r).daemon = (w.daemon.start id r).2 := by
    cases r <;> rfl
  have hballoon (v : VmId) (mb : UInt32) : (w.balloonedUp v mb r).daemon = (w.daemon.balloon v mb r).2 := by
    unfold View.balloonedUp
    split
    all_goals
      rename_i hd
      rw [hd]
      rfl
  have hdeleted (t : TenantState) : (w.deleted t).daemon = w.daemon := by
    unfold View.deleted
    split <;> rfl
  cases pc with
  | createVm c => exact .inr (.inr (.inr ⟨rfl, hlaunched _⟩))
  | restoreVm path => exact .inr (.inr (.inr ⟨rfl, hlaunched _⟩))
  | cleanup launch v => exact .inr (.inl ⟨v, rfl⟩)
  | destroyDeleted v => exact .inr (.inl ⟨v, rfl⟩)
  | destroySaved t v path => exact .inr (.inl ⟨v, rfl⟩)
  | destroyUnsaved v e => exact .inr (.inl ⟨v, rfl⟩)
  | balloonUp v mb => exact .inr (.inr (.inl ⟨v, mb, hballoon v mb⟩))
  | balloonDown t v => exact .inr (.inr (.inl ⟨v, cfg.balloonTargetMb, rfl⟩))
  | deleteTenant =>
    left
    simp only [step]
    split
    · rfl
    · exact hdeleted _
  | recoverFromSoft =>
    left
    simp only [step]
    split
    · rfl
    · split <;> rfl
  | acquire | coldCreate | coldConfig | doRestore | restoreStart _ | started _ _ _ | recovered | touch _ | release _
  | createTenant _ =>
    left
    simp only [step]
    split <;> rfl
  | fetchGuestIp _ _ | waitForPort _ _ _ | fail _ _ | reconcileTenant _ | markSaving _ _ _ | saveVm _ _ _
  | saveFailed _ | dropCaches _ _ | writeBack _ | noteProbe _ _ | done _ | panicked => exact .inl rfl

end CloneVmm.Controller
