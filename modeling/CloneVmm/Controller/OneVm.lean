import CloneVmm.Controller.Accounts

namespace CloneVmm.Controller

open CloneVmm.Lib

namespace ControllerState

variable {every : Prop} {cfg : ControllerConfig} {s s' : ControllerState} {a : Action} {id : String}

def Orderly (s : ControllerState) : Action → Prop
  | .resume i r => ∀ task ∈ s.tasks i, task.acts = true → s.OrderlyAt task.tenant r task.pc
  | .restart => ∀ vm ∈ s.daemon.vms, vm.running = false
  | .request _ _ | .cycle _ _ | .drop _ _ | .exit _ | .tick _ => True

def Heard (s : ControllerState) : Action → Prop
  | .resume i (.lost _) => ∀ task ∈ s.tasks i, task.acts = true → task.pc.issues = false
  | _ => True

def AttendedAt (s : ControllerState) (served : Bool) : Pc → Prop
  | .fetchGuestIp _ v | .waitForPort v _ _ | .started _ v _ => s.daemon.isRunning v = false
  | .cleanup _ v | .destroyDeleted v => served = false → s.daemon.isRunning v = false
  | _ => True

def Attended (s : ControllerState) : Action → Prop
  | .drop i served => ∀ task ∈ s.tasks i, s.AttendedAt (task.acts && served) task.pc
  | .request _ _ | .cycle _ _ | .resume _ _ | .exit _ | .tick _ | .restart => True

theorem counted_start {id id' : String} {r : Reply} {d : Daemon} {v : VmId} (h : (d.start id r).2.Counted every id' v) :
    d.Counted every id' v ∨ (id' = id ∧ v = d.vms.length ∧ (r.isOk = true ∨ every)) := by
  cases r with
  | ok text => exact (Daemon.runs_insert h).imp_right fun hnew => ⟨hnew.2.1.symm, hnew.1, .inl rfl⟩
  | refused e => exact .inl h
  | lost e => exact (Daemon.runs_insert h).imp_right fun hnew => ⟨hnew.2.1.symm, hnew.1, hnew.2.2.imp_left nofun⟩

theorem counted_step {id id' : String} {now : Time} {r : Reply} {w : View} {pc : Pc} {v : VmId}
    (h : (pc.step cfg id now r w).daemon.Counted every id' v) : w.daemon.Counted every id' v ∨
      (id' = id ∧ pc.issues = true ∧ v = w.daemon.vms.length ∧ (r.isOk = true ∨ every)) := by
  obtain hsame | ⟨u, hsame⟩ | ⟨u, mb, hsame⟩ | ⟨hissues, hsame⟩ := Pc.step_daemon cfg id now r w pc
  · exact .inl (hsame ▸ h)
  · exact .inl (Daemon.runs_destroy (hsame ▸ h))
  · exact .inl (Daemon.runs_balloon (hsame ▸ h))
  · exact (counted_start (hsame ▸ h)).imp_right fun hnew => ⟨hnew.1, hissues, hnew.2⟩

theorem request_launching {req : Request} {now : Time} : (req.pc now).launching = false := by
  cases req with
  | create c =>
    obtain ⟨response, h⟩ | h := checkConfig_cases c
    all_goals
      rw [Request.pc, h]
      rfl
  | acquire id | release id | delete id => rfl

theorem accounted_of_rest (htasks : ∀ i, s.tasks i = none) (hvms : ∀ vm ∈ s.daemon.vms, vm.running = false) :
    s.Accounted every id := by
  have hruns : ∀ v, ¬s.daemon.Counted every id v := NoneRuns.not_runs fun vm hvm _ => hvms vm hvm
  refine accounted_of_not_launching ?_ (fun v h => absurd h (hruns v)) fun v _ h => absurd h (hruns v)
  intro i pc hi
  exact absurd hi (not_at_of_none (htasks i))

theorem Accounted.resume (hs : ∀ id, s.Accounted every id) {i : Nat} {r : Reply} {task : Task}
    (hi : s.tasks i = some task) (h : s.resume cfg i r task = some s')
    (ho : task.acts = true → s.OrderlyAt task.tenant r task.pc)
    (hheard : ∀ e, r = .lost e → every → task.acts = true → task.pc.issues = false) (id : String) :
    s'.Accounted every id := by
  obtain ⟨-, flush, file, rfl⟩ | ⟨hacts, -, rfl⟩ := resume_cases h
  · have hat : ∀ j pc, (s.setTask i { task with flush := flush }).At j id pc ↔ s.At j id pc := fun j pc => at_flush hi
    exact (hs id).congr rfl hat fun v hv => hv
  · by_cases hid : id = task.tenant
    · subst hid
      exact (hs task.tenant).step ⟨task.flush, hi⟩ (ho hacts) fun e he hevery => hheard e he hevery hacts
    · refine (hs id).congr (Function.update_of_ne hid _ _) (fun j pc => ?_) fun v hv =>
        (counted_step hv).resolve_right fun hnew => hid hnew.1
      rw [at_apply]
      constructor
      · rintro (⟨-, h, -⟩ | ⟨-, h⟩)
        · exact absurd h hid
        · exact h
      · intro hj
        refine .inr ⟨?_, hj⟩
        rintro rfl
        exact hid (hj.unique ⟨task.flush, hi⟩).1

theorem Dropped.counted {i : Nat} {task : Task} (h : Dropped cfg s s' i task) {v : VmId}
    (hv : s'.daemon.Counted every id v) : s.daemon.Counted every id v ∨
      (id = task.tenant ∧ task.pc.issues = true ∧ v = s.daemon.vms.length ∧ every) := by
  obtain hsame | ⟨r, hr, hsame⟩ := h.daemon
  · exact .inl (hsame ▸ hv)
  · refine (counted_step (hsame ▸ hv)).imp_right fun ⟨hid, hissues, hnew, hcounts⟩ => ⟨hid, hissues, hnew, ?_⟩
    exact hcounts.resolve_left (by rw [hr]; exact Bool.false_ne_true)

theorem AttendedAt.stopped (cfg : ControllerConfig) {served : Bool} {pc : Pc} (h : s.AttendedAt served pc) {v : VmId}
    (hv : pc.holds = some v ∨ pc.destroys = some v) :
    pc.issues = false ∧ (s.daemon.isRunning v = false ∨ (served = true ∧
      ∀ id now r w, (pc.step cfg id now r w).daemon = w.daemon.destroy v r)) := by
  cases pc with
  | fetchGuestIp launch u | waitForPort u ip port | started launch u ip =>
    obtain rfl := Option.some_inj.mp (hv.resolve_right nofun)
    exact ⟨rfl, .inl h⟩
  | cleanup launch u =>
    obtain rfl := Option.some_inj.mp (hv.resolve_right nofun)
    cases served with
    | false => exact ⟨rfl, .inl (h rfl)⟩
    | true => exact ⟨rfl, .inr ⟨rfl, fun _ _ _ _ => rfl⟩⟩
  | destroyDeleted u =>
    obtain rfl := Option.some_inj.mp (hv.resolve_left nofun)
    cases served with
    | false => exact ⟨rfl, .inl (h rfl)⟩
    | true => exact ⟨rfl, .inr ⟨rfl, fun _ _ _ _ => rfl⟩⟩
  | _ => exact absurd hv (by rintro (hv | hv) <;> cases hv)

theorem AttendedAt.gone {i : Nat} {served : Bool} {task : Task} (h : s.AttendedAt (task.acts && served) task.pc)
    (hdrop : s.drop cfg i served task = some s') {v : VmId}
    (hv : task.pc.holds = some v ∨ task.pc.destroys = some v) : ¬s'.daemon.Counted every id v := by
  intro hcounted
  obtain ⟨hissues, hstopped | ⟨hserved, hdestroys⟩⟩ := h.stopped cfg hv
  · obtain hold | ⟨-, hnew, -⟩ := (drop_cases hdrop).counted hcounted
    · have hrunning := hold.isRunning
      rw [hstopped] at hrunning
      cases hrunning
    · rw [hissues] at hnew
      cases hnew
  · rw [Bool.and_eq_true] at hserved
    simp only [drop, Option.ite_none_left_eq_some, Option.some_inj, hserved.1, hserved.2, if_true, hdestroys] at hdrop
    obtain ⟨-, rfl⟩ := hdrop
    exact Daemon.not_runs_destroy (r := .lost "") (fun h => by cases h) hcounted

theorem Accounted.drop (hs : ∀ id, s.Accounted every id) {i : Nat} {served : Bool} {task : Task}
    (hi : s.tasks i = some task) (h : s.drop cfg i served task = some s')
    (hattended : every ∨ s.AttendedAt (task.acts && served) task.pc) (id : String) : s'.Accounted every id := by
  have hdropped := drop_cases h
  have hat : s.At i task.tenant task.pc := ⟨task.flush, hi⟩
  have hlaunching (j : Nat) (q : Pc) (hj : s'.At j id q) (hq : q.launching = true) :
      ∃ p, s.At j id p ∧ p.launching = true := ⟨q, (hdropped.at_iff.mp hj).2, hq⟩
  have htenants : s'.tenants id = s.tenants id := congrFun hdropped.tenants id
  -- the dropped task held or was to destroy the VM, or had asked for it
  have hleft (hid : id = task.tenant) (hpc : task.pc.launching = true ∨ s.tenants id = none) : s'.Abandoned id := by
    subst hid
    refine ⟨?_, fun j q hj => ?_⟩
    · rw [htenants]
      intro t ht
      rcases hpc with hpc | hnone
      · obtain ⟨t', ht', hst⟩ := (hs task.tenant).starting i task.pc hat hpc
        exact Option.some_inj.mp (ht'.symm.trans ht) ▸ hst
      · rw [hnone] at ht
        cases ht
    · obtain ⟨hne, hj⟩ := hdropped.at_iff.mp hj
      by_contra hq
      have hq := Bool.not_eq_false _ ▸ hq
      rcases hpc with hpc | hnone
      · exact hne ((hs task.tenant).single j i q task.pc hj hat hq hpc)
      · obtain ⟨t, ht, -⟩ := (hs task.tenant).starting j q hj hq
        rw [hnone] at ht
        cases ht
  have hown (hevery : every) (hid : id = task.tenant) (hpc : task.pc.launching = true ∨ s.tenants id = none) (v : VmId) :
      s'.Owned every id v := .inr (.inr (.inr ⟨hevery, hleft hid hpc⟩))
  refine (hs id).of_launching hlaunching (by rw [htenants]; exact fun h => h) ?_ ?_
  · intro v hv
    obtain hold | ⟨hid, hissues, -, hevery⟩ := hdropped.counted hv
    · have hlost (hmine : task.pc.holds = some v ∨ task.pc.destroys = some v) : every := by
        exact hattended.resolve_right fun hattended => hattended.gone h hmine hv
      obtain ⟨t, ht, hrecord⟩ | ⟨j, q, hj, hq⟩ | ⟨hnone, j, q, hj, hq⟩ | ⟨hevery, hleft⟩ := (hs id).owned v hold
      · exact .inl ⟨t, htenants.trans ht, hrecord⟩
      · by_cases hji : j = i
        · subst hji
          obtain ⟨hid, rfl⟩ := hj.unique hat
          exact hown (hlost (.inl hq)) hid (.inl (Pc.launching_of_holds hq)) v
        · exact .inr (.inl ⟨j, q, hdropped.at_iff.mpr ⟨hji, hj⟩, hq⟩)
      · by_cases hji : j = i
        · subst hji
          obtain ⟨hid, rfl⟩ := hj.unique hat
          exact hown (hlost (.inr hq)) hid (.inr hnone) v
        · exact .inr (.inr (.inl ⟨htenants.trans hnone, j, q, hdropped.at_iff.mpr ⟨hji, hj⟩, hq⟩))
      · exact .inr (.inr (.inr ⟨hevery, hleft.of_launching (htenants ▸ hleft.starting) hlaunching⟩))
    · exact hown hevery hid (.inl (Pc.launching_of_issues hissues).1) v
  · intro v w hv hw
    have hnew {u : VmId} (hid : id = task.tenant) (hissues : task.pc.issues = true) :
        ¬s.daemon.Counted every id u := by
      subst hid
      intro hold
      obtain ⟨hlaunch, hfree⟩ := Pc.launching_of_issues hissues
      have hholds := (hs task.tenant).holder hat hlaunch hold
      rw [hfree] at hholds
      cases hholds
    obtain hv | ⟨hid, hissues, rfl, -⟩ := hdropped.counted hv
    · obtain hw | ⟨hid, hissues, -⟩ := hdropped.counted hw
      · exact (hs id).one v w hv hw
      · exact absurd hv (hnew hid hissues)
    · obtain hw | ⟨-, -, rfl, -⟩ := hdropped.counted hw
      · exact absurd hw (hnew hid hissues)
      · rfl

theorem Accounted.next (hs : ∀ id, s.Accounted every id) (h : s.next cfg a = some s') (ho : s.Orderly a)
    (hheard : every → s.Heard a) (hattended : every ∨ s.Attended a) (id : String) : s'.Accounted every id := by
  cases a with
  | request i req =>
    obtain ⟨hi, rfl⟩ := spawn_cases h
    exact (hs id).spawn hi request_launching
  | cycle i id' =>
    obtain ⟨-, -, -, hi, rfl⟩ := cycle_cases h
    exact (hs id).spawn hi rfl
  | resume i r =>
    obtain ⟨task, hi, h⟩ := Option.bind_eq_some_iff.mp h
    refine Accounted.resume hs hi h (ho task hi) ?_ id
    rintro e rfl hevery
    exact hheard hevery task hi
  | drop i served =>
    obtain ⟨task, hi, h⟩ := next_drop h
    exact Accounted.drop hs hi h (hattended.imp_right fun hattended => hattended task hi) id
  | exit v =>
    cases h
    exact (hs id).congr rfl (fun _ _ => Iff.rfl) fun w hw => Daemon.runs_stop hw
  | tick nanos =>
    cases h
    exact (hs id).congr rfl (fun _ _ => Iff.rfl) fun w hw => hw
  | restart =>
    cases h
    exact accounted_of_rest (fun _ => rfl) ho

def AtRest (s : ControllerState) : Prop :=
  (∀ i, s.tasks i = none) ∧ ∀ vm ∈ s.daemon.vms, vm.running = false

theorem accounted_of_run (cfg : ControllerConfig) {as : List Action} (hs : s.AtRest)
    (hrun : Steps (fun s a t => s.next cfg a = some t ∧ s.Orderly a ∧ (every → s.Heard a) ∧
      (every ∨ s.Attended a)) s as s') (id : String) : s'.Accounted every id :=
  hrun.invariant (P := fun s => ∀ id, s.Accounted every id)
    (fun _ _ _ h hs => Accounted.next hs h.1 h.2.1 h.2.2.1 h.2.2.2) (fun _ => accounted_of_rest hs.1 hs.2) id

def OneVm (s : ControllerState) : Prop :=
  ∀ id, (∀ v w, s.daemon.RunsFor id v → s.daemon.RunsFor id w → v = w) ∧
    ∀ i pc, s.At i id pc → pc.issues = true → ∀ v, ¬s.daemon.RunsFor id v

theorem Accounted.oneVm (hs : ∀ id, s.Accounted True id) : s.OneVm := by
  intro id
  refine ⟨fun v w hv hw => (hs id).one v w hv.counted hw.counted, ?_⟩
  intro i pc hi hpc v hv
  obtain ⟨hlaunch, hfree⟩ := Pc.launching_of_issues hpc
  have hholds := (hs id).holder hi hlaunch hv.counted
  rw [hfree] at hholds
  cases hholds

/-- In every run whose steps are orderly and in which no answer that names a new VM is lost, a tenant never
has two VMs, and no VM is asked for while one runs. -/
theorem oneVm_of_orderly (cfg : ControllerConfig) {s t : ControllerState} {as : List Action} (hs : s.AtRest)
    (hrun : Steps (fun s a t => s.next cfg a = some t ∧ s.Orderly a ∧ s.Heard a) s as t) : t.OneVm := by
  apply Accounted.oneVm
  apply accounted_of_run cfg hs
  exact hrun.mono fun _ _ _ h => ⟨h.1, h.2.1, fun _ => h.2.2, .inl trivial⟩

instance (s : ControllerState) (id : String) : Decidable (s.NoneRuns id) :=
  inferInstanceAs (Decidable (∀ vm ∈ s.daemon.vms, vm.tenant = id → vm.running = false))

instance (s : ControllerState) (id : String) (r : Reply) (pc : Pc) : Decidable (s.OrderlyAt id r pc) :=
  match pc with
  | .coldCreate | .restoreStart _ =>
    inferInstanceAs (Decidable (∀ t ∈ s.tenants id, t.status.startable = true ∧ s.namesRunning t = false))
  | .recovered | .fail false _ | .markSaving _ _ _ | .deleteTenant =>
    inferInstanceAs (Decidable (∀ t ∈ s.tenants id, t.status ≠ .starting))
  | .saveFailed _ =>
    inferInstanceAs (Decidable (∀ t ∈ s.tenants id, t.status ≠ .starting ∧ s.namesRunning t = false))
  | .writeBack new =>
    inferInstanceAs (Decidable (∀ t ∈ s.tenants id,
      t.status ≠ .starting ∧ (s.namesRunning t = true → new.status.keepsVm = true ∧ new.vmId = t.vmId)))
  | .cleanup _ v | .destroyDeleted v =>
    inferInstanceAs (Decidable (r.isRefused = true → s.daemon.isRunning v = false))
  | .waitForPort v _ _ => inferInstanceAs (Decidable (r.isOk = false → s.daemon.isRunning v = false))
  | .createTenant _ => inferInstanceAs (Decidable (s.NoneRuns id))
  | .acquire | .coldConfig | .createVm _ | .doRestore | .restoreVm _ | .fetchGuestIp _ _ | .started _ _ _
  | .recoverFromSoft | .balloonUp _ _ | .fail true _ | .touch _ | .release _ | .reconcileTenant _ | .saveVm _ _ _
  | .destroySaved _ _ _ | .destroyUnsaved _ _ | .dropCaches _ _ | .balloonDown _ _ | .noteProbe _ _ | .done _
  | .panicked => .isTrue trivial

instance (s : ControllerState) (a : Action) : Decidable (s.Orderly a) :=
  match a with
  | .resume i r =>
    inferInstanceAs (Decidable (∀ task ∈ s.tasks i, task.acts = true → s.OrderlyAt task.tenant r task.pc))
  | .restart => inferInstanceAs (Decidable (∀ vm ∈ s.daemon.vms, vm.running = false))
  | .request _ _ | .cycle _ _ | .drop _ _ | .exit _ | .tick _ => .isTrue trivial

instance (s : ControllerState) (a : Action) : Decidable (s.Heard a) :=
  match a with
  | .resume i (.lost _) =>
    inferInstanceAs (Decidable (∀ task ∈ s.tasks i, task.acts = true → task.pc.issues = false))
  | .resume _ (.ok _) | .resume _ (.refused _) | .request _ _ | .cycle _ _ | .drop _ _ | .exit _ | .tick _
  | .restart => .isTrue trivial

instance (s : ControllerState) (served : Bool) (pc : Pc) : Decidable (s.AttendedAt served pc) :=
  match pc with
  | .fetchGuestIp _ v | .waitForPort v _ _ | .started _ v _ =>
    inferInstanceAs (Decidable (s.daemon.isRunning v = false))
  | .cleanup _ v | .destroyDeleted v =>
    inferInstanceAs (Decidable (served = false → s.daemon.isRunning v = false))
  | .acquire | .coldCreate | .coldConfig | .createVm _ | .doRestore | .restoreStart _ | .restoreVm _
  | .recoverFromSoft | .balloonUp _ _ | .recovered | .fail _ _ | .touch _ | .release _ | .createTenant _
  | .deleteTenant | .reconcileTenant _ | .markSaving _ _ _ | .saveVm _ _ _ | .destroySaved _ _ _
  | .destroyUnsaved _ _ | .saveFailed _ | .dropCaches _ _ | .balloonDown _ _ | .writeBack _ | .noteProbe _ _
  | .done _ | .panicked => .isTrue trivial

instance (s : ControllerState) (a : Action) : Decidable (s.Attended a) :=
  match a with
  | .drop i served => inferInstanceAs (Decidable (∀ task ∈ s.tasks i, s.AttendedAt (task.acts && served) task.pc))
  | .request _ _ | .cycle _ _ | .resume _ _ | .exit _ | .tick _ | .restart => .isTrue trivial

theorem atRest_initial : initial.AtRest := ⟨fun _ => rfl, nofun⟩

def savedAndRestored : List Action :=
  List.flatten [[.request 0 (.create (demoTenant none))], resumes 0 3 "", [.request 1 (.acquire "demo")],
    resumes 1 13 "172.30.0.2", [.tick (300 * TenantState.nanosPerSec), .cycle 2 "demo"], resumes 2 7 "",
    [.request 3 (.acquire "demo")], resumes 3 13 "172.30.0.3", [.request 4 (.acquire "demo")], resumes 4 1 "",
    [.drop 4 false]]

theorem savedAndRestored_oneVm : ∃ t,
    Steps.trace (next .defaults) (fun s a => s.Orderly a ∧ s.Heard a) initial savedAndRestored = some t ∧ t.OneVm := by
  obtain ⟨t, ht⟩ : ∃ t, Steps.trace (next .defaults) (fun s a => s.Orderly a ∧ s.Heard a) initial savedAndRestored =
      some t := Option.isSome_iff_exists.mp (by decide)
  exact ⟨t, ht, oneVm_of_orderly .defaults atRest_initial (Steps.of_trace ht)⟩

def twoAcquires : List Action :=
  List.flatten [[.request 0 (.create (demoTenant none))], resumes 0 3 "", [.request 1 (.acquire "demo")],
    [.request 2 (.acquire "demo")], resumes 1 1 "", resumes 2 1 "", resumes 1 5 "", resumes 2 5 ""]

theorem twoAcquires_two : ∃ t, Steps (fun s a t => s.next .defaults a = some t) initial twoAcquires t ∧ ¬t.OneVm := by
  obtain ⟨t, ht⟩ : ∃ t, Steps.trace (next .defaults) (fun _ _ => True) initial twoAcquires = some t :=
    Option.isSome_iff_exists.mp (by decide)
  have hvms : (Steps.trace (next .defaults) (fun _ _ => True) initial twoAcquires).map (fun t => t.daemon.vms) =
      some [⟨"demo", true, true, none⟩, ⟨"demo", true, true, none⟩] := by decide
  rw [ht, Option.map_some, Option.some_inj] at hvms
  refine ⟨t, (Steps.of_trace ht).mono fun _ _ _ h => h.1, fun hone => ?_⟩
  have hfirst : t.daemon.RunsFor "demo" 0 := ⟨⟨"demo", true, true, none⟩, by rw [hvms]; rfl, rfl, rfl⟩
  have hsecond : t.daemon.RunsFor "demo" 1 := ⟨⟨"demo", true, true, none⟩, by rw [hvms]; rfl, rfl, rfl⟩
  exact absurd ((hone "demo").1 0 1 hfirst hsecond) Nat.zero_ne_one

/-- In every run of requests and reconcile tasks whose steps are orderly and in which no handler is dropped
with a VM, a VM that the daemon has answered with and that still runs is the one that its tenant's record
names, when no task of the tenant is in progress. -/
theorem recorded_of_orderly (cfg : ControllerConfig) {s t : ControllerState} {as : List Action} (hs : s.AtRest)
    (hrun : Steps (fun s a t => s.next cfg a = some t ∧ s.Orderly a ∧ s.Attended a) s as t) {id : String}
    (hidle : ∀ i pc, t.At i id pc → pc.finished = true) {v : VmId} (hv : t.daemon.Runs id v) :
    ∃ record, t.tenants id = some record ∧ record.vmId = some v := by
  have hs : t.Accounted False id := by
    apply accounted_of_run cfg hs
    exact hrun.mono fun _ _ _ h => ⟨h.1, h.2.1, False.elim, .inr h.2.2⟩
  obtain ⟨record, ht, -, hvm⟩ | ⟨i, pc, hi, hpc⟩ | ⟨-, i, pc, hi, hpc⟩ | ⟨hfalse, -⟩ := hs.owned v hv.counted
  · exact ⟨record, ht, hvm⟩
  · have hfinished := hidle i pc hi
    rw [Pc.not_finished_of_launching (Pc.launching_of_holds hpc)] at hfinished
    cases hfinished
  · have hfinished := hidle i pc hi
    rw [Pc.not_finished_of_destroys hpc] at hfinished
    cases hfinished
  · exact hfalse.elim

def Action.task? : Action → Option Nat
  | .request i _ | .cycle i _ | .resume i _ | .drop i _ => some i
  | .exit _ | .tick _ | .restart => none

theorem unused_next {i : Nat} (h : s.next cfg a = some s') (ha : Action.task? a ≠ some i) (hi : s.tasks i = none) :
    s'.tasks i = none := by
  have hset {j : Nat} {task : Task} (hj : j ≠ i) : (s.setTask j task).tasks i = none :=
    (Function.update_of_ne hj.symm _ _).trans hi
  cases a with
  | request j req =>
    obtain ⟨-, rfl⟩ := spawn_cases h
    exact hset fun hj => ha (congrArg some hj)
  | cycle j id =>
    obtain ⟨-, -, -, -, rfl⟩ := cycle_cases h
    exact hset fun hj => ha (congrArg some hj)
  | resume j r =>
    obtain ⟨task, -, h⟩ := Option.bind_eq_some_iff.mp h
    have hj : j ≠ i := fun hj => ha (congrArg some hj)
    obtain ⟨-, flush, file, rfl⟩ | ⟨-, -, rfl⟩ := resume_cases h
    · exact hset hj
    · exact (Function.update_of_ne hj.symm _ _).trans hi
  | drop j served =>
    obtain ⟨task, -, h⟩ := next_drop h
    have hj : j ≠ i := fun hj => ha (congrArg some hj)
    rw [(drop_cases h).tasks]
    exact (Function.update_of_ne hj.symm _ _).trans hi
  | exit v =>
    cases h
    exact hi
  | tick nanos =>
    cases h
    exact hi
  | restart =>
    cases h
    rfl

theorem unused_run {i : Nat} {as : List Action} (h : Steps (fun s a t => s.next cfg a = some t) s as s')
    (has : ∀ a ∈ as, Action.task? a ≠ some i) (hi : s.tasks i = none) : s'.tasks i = none := by
  induction h with
  | nil s => exact hi
  | cons ha _ ih =>
    rw [List.forall_mem_cons] at has
    exact ih has.2 (unused_next ha has.1 hi)

def idleBelow (s : ControllerState) (n : Nat) : Bool :=
  (List.range n).all fun i => (s.tasks i).all fun task => task.pc.finished

theorem finished_of_run {n : Nat} {as : List Action} (h : Steps (fun s a t => s.next cfg a = some t) initial as s')
    (has : (as.all fun a => (Action.task? a).all fun i => i < n) = true) (hidle : s'.idleBelow n = true) {i : Nat}
    {pc : Pc} (hi : s'.At i id pc) : pc.finished = true := by
  obtain ⟨flush, hi⟩ := hi
  by_cases hn : i < n
  · have hall := List.all_eq_true.mp hidle i (List.mem_range.mpr hn)
    rw [hi] at hall
    exact hall
  · have hnone : s'.tasks i = none := by
      refine unused_run h (fun a ha htask => ?_) rfl
      have hlt := List.all_eq_true.mp has a ha
      rw [htask, Option.all_some, decide_eq_true_eq] at hlt
      exact hn hlt
    rw [hnone] at hi
    cases hi

theorem savedAndRestored_recorded : ∃ t record,
    Steps.trace (next .defaults) (fun s a => s.Orderly a ∧ s.Attended a) initial savedAndRestored = some t ∧
      t.daemon.Runs "demo" 1 ∧
      t.tenants "demo" = some record ∧ record.vmId = some 1 := by
  obtain ⟨t, ht⟩ : ∃ t, Steps.trace (next .defaults) (fun s a => s.Orderly a ∧ s.Attended a) initial
      savedAndRestored = some t := Option.isSome_iff_exists.mp (by decide)
  have hvms : (Steps.trace (next .defaults) (fun s a => s.Orderly a ∧ s.Attended a) initial savedAndRestored).map
      (fun t => t.daemon.vms) = some [⟨"demo", false, true, none⟩, ⟨"demo", true, true, none⟩] := by decide
  have hidle : (Steps.trace (next .defaults) (fun s a => s.Orderly a ∧ s.Attended a) initial savedAndRestored).map
      (fun t => t.idleBelow 5) = some true := by decide
  rw [ht, Option.map_some, Option.some_inj] at hvms
  rw [ht, Option.map_some, Option.some_inj] at hidle
  have hruns : t.daemon.Runs "demo" 1 := ⟨⟨"demo", true, true, none⟩, by rw [hvms]; rfl, rfl, rfl, rfl⟩
  have hrun := Steps.of_trace ht
  have hfinished : ∀ i pc, t.At i "demo" pc → pc.finished = true := by
    intro i pc hi
    exact finished_of_run (hrun.mono fun _ _ _ h => h.1) (by decide) hidle hi
  obtain ⟨record, hrecord, hvm⟩ := recorded_of_orderly .defaults atRest_initial hrun hfinished hruns
  exact ⟨t, record, ht, hruns, hrecord, hvm⟩

def portNotUp : List Action :=
  List.flatten [[.request 0 (.create (demoTenant (some 80)))], resumes 0 3 "", [.request 1 (.acquire "demo")],
    resumes 1 7 "172.30.0.2", [.resume 1 (.refused "app port 80 on 172.30.0.2 not up within 15s")],
    resumes 1 3 ""]

theorem portNotUp_leaks : ∃ t, Steps (fun s a t => s.next .defaults a = some t) initial portNotUp t ∧
    (∀ i pc, t.At i "demo" pc → pc.finished = true) ∧ t.daemon.Runs "demo" 0 ∧
      (t.tenants "demo").map TenantState.vmId = some none := by
  obtain ⟨t, ht⟩ : ∃ t, Steps.trace (next .defaults) (fun _ _ => True) initial portNotUp = some t :=
    Option.isSome_iff_exists.mp (by decide)
  have hend : (Steps.trace (next .defaults) (fun _ _ => True) initial portNotUp).map
      (fun t => (t.daemon.vms, t.idleBelow 2, (t.tenants "demo").map TenantState.vmId)) =
      some ([⟨"demo", true, true, none⟩], true, some none) := by decide
  rw [ht, Option.map_some, Option.some_inj, Prod.mk.injEq, Prod.mk.injEq] at hend
  obtain ⟨hvms, hidle, hvm⟩ := hend
  have hrun : Steps (fun s a t => s.next .defaults a = some t) initial portNotUp t :=
    (Steps.of_trace ht).mono fun _ _ _ h => h.1
  have hruns : t.daemon.Runs "demo" 0 := ⟨⟨"demo", true, true, none⟩, by rw [hvms]; rfl, rfl, rfl, rfl⟩
  exact ⟨t, hrun, fun i pc hi => finished_of_run hrun (by decide) hidle hi, hruns, hvm⟩

end ControllerState

end CloneVmm.Controller
