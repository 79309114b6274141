import CloneVmm.Controller.Tenants
import CloneVmm.Lib.Run

/-!
The handlers of `api.rs` and the tasks of `reconciler.rs` as one machine. Every request and every
reconciled tenant has a task; a step takes one task from one lock or await point to the next, with the
reply to the call that it waits for. All tasks share the tenants behind one `RwLock`.
-/

namespace CloneVmm.Controller

inductive Launch
  | cold (appHealthPort : Option UInt16)
  | restore

inductive Outcome
  | coldCreate
  | restore
  | fastPath
  | recover

inductive Response
  | ok
  | created
  | acquired (ip : String) (vmId : Option VmId) (outcome : Outcome)
  | badRequest (error : String)
  | notFound (error : String)
  | conflict (error : String)
  | unavailable (error : String)
  | internal (error : String)

/-- Where a task waits, with the local variables that it still needs. In `fail`, `marked` tells whether
the helper that failed had set the status to `Starting`. -/
inductive Pc
  | acquire
  | coldCreate
  | coldConfig
  | createVm (cfg : TenantConfig)
  | doRestore
  | restoreStart (savePath : String)
  | restoreVm (savePath : String)
  | fetchGuestIp (launch : Launch) (vmId : VmId)
  | cleanup (launch : Launch) (vmId : VmId)
  | waitForPort (vmId : VmId) (ip : String) (port : UInt16)
  | started (launch : Launch) (vmId : VmId) (ip : String)
  | recoverFromSoft
  | balloonUp (vmId : VmId) (memMb : UInt32)
  | recovered
  | fail (marked : Bool) (e : String)
  | touch (outcome : Outcome)
  | release (now : Time)
  | createTenant (cfg : TenantConfig)
  | deleteTenant
  | destroyDeleted (vmId : VmId)
  | reconcileTenant (t : TenantState)
  | markSaving (t : TenantState) (vmId : VmId) (savePath : String)
  | saveVm (t : TenantState) (vmId : VmId) (savePath : String)
  | destroySaved (t : TenantState) (vmId : VmId) (savePath : String)
  | destroyUnsaved (vmId : VmId) (e : String)
  | saveFailed (e : String)
  | dropCaches (t : TenantState) (vmId : VmId)
  | balloonDown (t : TenantState) (vmId : VmId)
  | writeBack (t : TenantState)
  | noteProbe (healthFailCount : UInt32) (lastHealthOkAt : Option Time)
  | done (response : Option Response)
  | panicked

namespace Pc

def finished : Pc → Bool
  | done _ | panicked => true
  | _ => false

def locks : Pc → Bool
  | createVm _ | restoreVm _ | fetchGuestIp _ _ | cleanup _ _ | waitForPort _ _ _ | balloonUp _ _ | destroyDeleted _
  | reconcileTenant _ | saveVm _ _ _ | destroySaved _ _ _ | destroyUnsaved _ _ | dropCaches _ _ | balloonDown _ _ =>
    false
  | _ => true

def reconciles : Pc → Bool
  | reconcileTenant _ | markSaving _ _ _ | saveVm _ _ _ | destroySaved _ _ _ | destroyUnsaved _ _ | saveFailed _
  | dropCaches _ _ | balloonDown _ _ | writeBack _ | noteProbe _ _ | done none => true
  | _ => false

end Pc

structure View where
  record : Option TenantState
  daemon : Daemon

/-- What a step leaves. `persist` tells that the task goes on with a call of `persist`, `guard` that it
keeps the write lock. -/
structure Effect extends View where
  pc : Pc
  persist : Bool := false
  guard : Bool := false

namespace View

def goto (w : View) (pc : Pc) : Effect := { w with pc := pc }

def finish (w : View) (response : Response) : Effect := w.goto (.done (some response))

def modify (w : View) (f : TenantState → TenantState) (pc : Pc) : Effect :=
  { record := w.record.map f, daemon := w.daemon, pc := pc, persist := true }

def remote (w : View) (d : Daemon) (pc : Pc) : Effect := { record := w.record, daemon := d, pc := pc }

end View

def tenantNotFound (id : String) : Response := .notFound ("tenant " ++ id ++ " not found")

def acquireDecision (id : String) (t : TenantState) : Pc :=
  match t.status with
  | .notFound => .coldCreate
  | .saved => .doRestore
  | .softReclaimed => .recoverFromSoft
  | .active => .touch .fastPath
  | .starting | .saving =>
    .done (some (.unavailable ("tenant " ++ id ++ " is " ++ t.status.asStr ++ ", retry later")))
  | .failed _ => if t.savePath.isSome then .doRestore else .coldCreate

def setStatus (status : VmStatus) (t : TenantState) : TenantState := { t with status := status }

def View.launched (w : View) (id : String) (launch : Launch) (r : Reply) : Effect :=
  match w.daemon.start id r with
  | (.ok v, d) => w.remote d (.fetchGuestIp launch v)
  | (.error e, d) => w.remote d (.fail true e)

def afterGuestIp (launch : Launch) (v : VmId) : Option String → Pc
  | none => .cleanup launch v
  | some ip =>
    match launch with
    | .cold (some port) => .waitForPort v ip port
    | .cold none | .restore => .started launch v ip

def Launch.ipError : Launch → String
  | cold _ => "fetch_guest_ip"
  | restore => "fetch_guest_ip after restore"

def Launch.outcome : Launch → Outcome
  | cold _ => .coldCreate
  | restore => .restore

def afterPort (v : VmId) (ip : String) (port : UInt16) : Reply → Pc
  | .ok _ => .started (.cold (some port)) v ip
  | .refused e | .lost e => .fail true e

def Launch.record (savePath : String) (v : VmId) (ip : String) (t : TenantState) : Launch → TenantState
  | cold _ => { t with status := .active, vmId := some v, guestIp := some ip, savePath := some savePath }
  | restore => { t with status := .active, vmId := some v, guestIp := some ip }

def View.balloonedUp (w : View) (v : VmId) (memMb : UInt32) (r : Reply) : Effect :=
  match w.daemon.balloon v memMb r with
  | (.ok _, d) => w.remote d .recovered
  | (.error e, d) => w.remote d (.fail false e)

def failRecord (e : String) (t : TenantState) : TenantState := { t with status := .failed e, lastError := some e }

def touchRecord (now : Time) (t : TenantState) : TenantState :=
  { t with lastRequestAt := some now, healthFailCount := 0, lastError := none }

def releaseRecord (now : Time) (t : TenantState) : TenantState :=
  { t with lastRequestAt := some now, status := if t.status = .softReclaimed then .active else t.status }

def isWhiteSpace (c : Char) : Bool :=
  let n := c.toNat
  (0x9 ≤ n && n ≤ 0xd) || n == 0x20 || n == 0x85 || n == 0xa0 || n == 0x1680 || (0x2000 ≤ n && n ≤ 0x200a) ||
    n == 0x2028 || n == 0x2029 || n == 0x202f || n == 0x205f || n == 0x3000

def isBlank (s : String) : Bool := s.toList.all isWhiteSpace

/-- The checks that `create_tenant` makes before it takes the lock. -/
def checkConfig (cfg : TenantConfig) : Pc :=
  if isBlank cfg.tenantId then .done (some (.badRequest "tenant_id is required"))
  else if isBlank cfg.kernel || isBlank cfg.rootfs then
    .done (some (.badRequest "kernel and rootfs are required"))
  else if isBlank cfg.overlayPath then .done (some (.badRequest "overlay_path is required"))
  else .createTenant cfg

theorem checkConfig_cases (cfg : TenantConfig) :
    (∃ response, checkConfig cfg = .done (some response)) ∨ checkConfig cfg = .createTenant cfg := by
  unfold checkConfig
  split
  · exact .inl ⟨_, rfl⟩
  · split
    · exact .inl ⟨_, rfl⟩
    · split
      · exact .inl ⟨_, rfl⟩
      · exact .inr rfl

def doomedVm (t : TenantState) : Option VmId :=
  match t.status with
  | .saved | .notFound => none
  | .starting | .active | .softReclaimed | .saving | .failed _ => t.vmId

def View.deleted (w : View) (t : TenantState) : Effect :=
  match doomedVm t with
  | some v => { record := none, daemon := w.daemon, pc := .destroyDeleted v }
  | none => { record := none, daemon := w.daemon, pc := .done (some .ok), persist := true }

def probes (cfg : ControllerConfig) (t : TenantState) : Bool :=
  cfg.healthProbeEnabled && t.guestIp.isSome && t.config.appHealthPort.isSome

def probed (cfg : ControllerConfig) (now : Time) (r : Reply) (t : TenantState) : TenantState :=
  if probes cfg t then
    match r with
    | .ok _ => { t with lastRequestAt := some now, lastHealthOkAt := some now, healthFailCount := 0 }
    | .refused _ | .lost _ => { t with healthFailCount := t.healthFailCount + 1 }
  else t

def i64Max : Int := 9223372036854775807

def asI64 (n : UInt64) : Int := n.toInt64.toInt

def idleOf (t : TenantState) (now : Time) : Int := (t.idleSecs now).getD i64Max

def hardDue (cfg : ControllerConfig) (now : Time) (t : TenantState) : Bool :=
  decide ((cfg.hardReclaimAfterSecs.toNat : Int) ≤ idleOf t now) ||
    decide (cfg.healthProbeFailThreshold ≤ t.healthFailCount)

def softDue (cfg : ControllerConfig) (now : Time) (t : TenantState) : Bool :=
  decide (t.status = .active) && decide (asI64 cfg.softReclaimAfterSecs ≤ idleOf t now)

def reconcileDecision (cfg : ControllerConfig) (id : String) (now : Time) (t : TenantState) : Pc :=
  match t.vmId with
  | some v =>
    if hardDue cfg now t then .markSaving t v (t.savePath.getD (TenantState.defaultSavePath cfg.savesRoot id))
    else if softDue cfg now t then .dropCaches t v
    else if 0 < t.healthFailCount then .noteProbe t.healthFailCount t.lastHealthOkAt
    else .done none
  | none => if 0 < t.healthFailCount then .noteProbe t.healthFailCount t.lastHealthOkAt else .done none

theorem reconcileDecision_cases (cfg : ControllerConfig) (id : String) (now : Time) (t : TenantState) :
    (∃ v path, hardDue cfg now t = true ∧ reconcileDecision cfg id now t = .markSaving t v path) ∨
      (∃ v, reconcileDecision cfg id now t = .dropCaches t v) ∨
      reconcileDecision cfg id now t = .noteProbe t.healthFailCount t.lastHealthOkAt ∨
      reconcileDecision cfg id now t = .done none := by
  unfold reconcileDecision
  split
  · rename_i v _
    split
    · rename_i hhard
      exact .inl ⟨v, _, hhard, rfl⟩
    · split
      · exact .inr (.inl ⟨v, rfl⟩)
      · split
        · exact .inr (.inr (.inl rfl))
        · exact .inr (.inr (.inr rfl))
  · split
    · exact .inr (.inr (.inl rfl))
    · exact .inr (.inr (.inr rfl))

def savedRecord (savePath : String) (t : TenantState) : TenantState :=
  { t with status := .saved, vmId := none, guestIp := none, savePath := some savePath,
           reclaimCount := t.reclaimCount + 1, healthFailCount := 0 }

def softRecord (t : TenantState) : TenantState :=
  { t with status := .softReclaimed, reclaimCount := t.reclaimCount + 1 }

def unsavedRecord (e : String) (t : TenantState) : TenantState :=
  { t with status := .failed ("save: " ++ e), lastError := some e, vmId := none, guestIp := none }

def noteRecord (healthFailCount : UInt32) (lastHealthOkAt : Option Time) (t : TenantState) : TenantState :=
  { t with healthFailCount := healthFailCount, lastHealthOkAt := lastHealthOkAt }

def afterSave (t : TenantState) (v : VmId) (savePath : String) : Except String String → Pc
  | .ok _ => .destroySaved t v savePath
  | .error e => .destroyUnsaved v e

/-- One step of a task of the tenant `id`. A `get` or `get_mut` that the source unwraps panics when the
tenant is gone. -/
def Pc.step (cfg : ControllerConfig) (id : String) (now : Time) (r : Reply) (w : View) : Pc → Effect
  | acquire =>
    match w.record with
    | none => w.finish (tenantNotFound id)
    | some t => w.goto (acquireDecision id t)
  | coldCreate =>
    match w.record with
    | none => w.goto (.fail false "tenant vanished")
    | some _ => w.modify (setStatus .starting) .coldConfig
  | coldConfig =>
    match w.record with
    | none => w.goto .panicked
    | some t => w.goto (.createVm t.config)
  | createVm c => w.launched id (.cold c.appHealthPort) r
  | doRestore =>
    match w.record.map TenantState.savePath with
    | none => w.goto (.fail false "tenant vanished")
    | some none => w.goto (.fail false "no save_path; cannot restore")
    | some (some path) => w.goto (.restoreStart path)
  | restoreStart path =>
    match w.record with
    | none => w.goto .panicked
    | some _ => w.modify (setStatus .starting) (.restoreVm path)
  | restoreVm _ => w.launched id .restore r
  | fetchGuestIp launch v => w.goto (afterGuestIp launch v (w.daemon.fetchGuestIp v r))
  | cleanup launch v => w.remote (w.daemon.destroy v r) (.fail true launch.ipError)
  | waitForPort v ip port => w.goto (afterPort v ip port r)
  | started launch v ip =>
    match w.record with
    | none => w.goto .panicked
    | some _ =>
      let path := TenantState.defaultSavePath cfg.savesRoot id
      w.modify (fun t => launch.record path v ip t) (.touch launch.outcome)
  | recoverFromSoft =>
    match w.record with
    | none => w.goto .panicked
    | some t =>
      match t.vmId with
      | none => w.goto (.fail false "no vm_id; cannot recover")
      | some v => w.goto (.balloonUp v t.config.memMb)
  | balloonUp v memMb => w.balloonedUp v memMb r
  | recovered =>
    match w.record with
    | none => w.goto .panicked
    | some _ => w.modify (setStatus .active) (.touch .recover)
  | fail _ e => w.modify (failRecord e) (.done (some (.internal e)))
  | touch outcome =>
    match w.record with
    | none => w.finish (.internal "tenant vanished")
    | some t => w.modify (touchRecord now) (.done (some (.acquired (t.guestIp.getD "") t.vmId outcome)))
  | release at' =>
    match w.record with
    | none => w.finish (tenantNotFound id)
    | some _ => w.modify (releaseRecord at') (.done (some .ok))
  | createTenant c =>
    match w.record with
    | some _ => w.finish (.conflict ("tenant " ++ id ++ " already exists"))
    | none =>
      { record := some (TenantState.new c now), daemon := w.daemon, pc := .done (some .created), persist := true }
  | deleteTenant =>
    match w.record with
    | none => w.finish (tenantNotFound id)
    | some t => w.deleted t
  -- The directory of the saved state is removed too, which no record tells.
  | destroyDeleted v => { w.remote (w.daemon.destroy v r) (.done (some .ok)) with persist := true }
  | reconcileTenant t => w.goto (reconcileDecision cfg id now (probed cfg now r t))
  -- Setting `Saving` is the one change that is not persisted.
  | markSaving t v path => { w.modify (setStatus .saving) (.saveVm t v path) with persist := false }
  | saveVm t v path => w.goto (afterSave t v path (w.daemon.call v r))
  | destroySaved t v path => w.remote (w.daemon.destroy v r) (.writeBack (savedRecord path t))
  | destroyUnsaved v e => w.remote (w.daemon.destroy v r) (.saveFailed e)
  -- The guard is still alive when `persist` asks for the lock, which is then never given.
  | saveFailed e => { w.modify (unsavedRecord e) (.done none) with guard := true }
  | dropCaches t v => w.goto (.balloonDown t v)
  | balloonDown t v => w.remote (w.daemon.balloon v cfg.balloonTargetMb r).2 (.writeBack (softRecord t))
  | writeBack t => w.modify (fun _ => t) (.done none)
  | noteProbe n ok => w.modify (noteRecord n ok) (.done none)
  | done response => w.goto (.done response)
  | panicked => w.goto .panicked

inductive Flush
  | clean
  | snapshot
  | write (json : Tenants)

/-- A task makes its call of `persist` before it goes on from `pc`. -/
structure Task where
  tenant : String
  pc : Pc
  flush : Flush

def Task.acts (task : Task) : Bool :=
  match task.flush with
  | .clean => true
  | .snapshot | .write _ => false

/-- The controller and the daemon. `guard` tells that a task keeps the write lock for good. -/
structure ControllerState where
  tenants : Tenants
  guard : Bool
  stateFile : Option Tenants
  daemon : Daemon
  tasks : Nat → Option Task
  now : Time

inductive Request
  | acquire (id : String)
  | release (id : String)
  | create (cfg : TenantConfig)
  | delete (id : String)

def Request.tenant : Request → String
  | acquire id | release id | delete id => id
  | create cfg => cfg.tenantId

/-- `release` reads the clock before it waits for the lock. -/
def Request.pc (now : Time) : Request → Pc
  | acquire _ => .acquire
  | release _ => .release now
  | create cfg => checkConfig cfg
  | delete _ => .deleteTenant

/-- `cycle` is what `reconcile_cycle` does for one tenant; `exit` is the end of a VM that nobody
destroyed. With `drop` the client of a handler disconnects and `axum` drops the handler where it waits;
`served` tells whether what it waits for is carried out all the same. -/
inductive Action
  | request (task : Nat) (req : Request)
  | cycle (task : Nat) (id : String)
  | resume (task : Nat) (r : Reply)
  | drop (task : Nat) (served : Bool)
  | exit (vmId : VmId)
  | tick (nanos : Nat)
  | restart

namespace ControllerState

def setTask (s : ControllerState) (i : Nat) (task : Task) : ControllerState :=
  { s with tasks := Function.update s.tasks i (some task) }

def view (s : ControllerState) (id : String) : View := ⟨s.tenants id, s.daemon⟩

def apply (s : ControllerState) (i : Nat) (id : String) (e : Effect) : ControllerState where
  tenants := Function.update s.tenants id e.record
  guard := s.guard || e.guard
  stateFile := s.stateFile
  daemon := e.daemon
  tasks := Function.update s.tasks i (some ⟨id, e.pc, if e.persist then .snapshot else .clean⟩)
  now := s.now

def written (json : Tenants) (file : Option Tenants) : Reply → Option Tenants
  | .ok _ | .lost _ => some json
  | .refused _ => file

def resume (cfg : ControllerConfig) (s : ControllerState) (i : Nat) (r : Reply) (task : Task) :
    Option ControllerState :=
  match task.flush with
  | .snapshot => if s.guard then none else some (s.setTask i { task with flush := .write s.tenants })
  | .write json =>
    some { s.setTask i { task with flush := .clean } with stateFile := written json s.stateFile r }
  | .clean =>
    if task.pc.finished || (task.pc.locks && s.guard) then none
    else some (s.apply i task.tenant (task.pc.step cfg task.tenant s.now r (s.view task.tenant)))

def Flush.dropped (file : Option Tenants) (r : Reply) : Flush → Option Tenants
  | .write json => written json file r
  | .clean | .snapshot => file

def drop (cfg : ControllerConfig) (s : ControllerState) (i : Nat) (served : Bool) (task : Task) :
    Option ControllerState :=
  let r : Reply := if served then .lost "" else .refused ""
  if task.pc.reconciles then none
  else
    some { s with
      tasks := Function.update s.tasks i none
      stateFile := Flush.dropped s.stateFile r task.flush
      daemon :=
        if task.acts then (task.pc.step cfg task.tenant s.now r (s.view task.tenant)).daemon else s.daemon }

def reconciled (t : TenantState) : Bool := t.status = .active || t.status = .softReclaimed

def spawn (s : ControllerState) (i : Nat) (id : String) (pc : Pc) : Option ControllerState :=
  match s.tasks i with
  | some _ => none
  | none => some (s.setTask i ⟨id, pc, .clean⟩)

def next (cfg : ControllerConfig) (s : ControllerState) : Action → Option ControllerState
  | .request i req => s.spawn i req.tenant (req.pc s.now)
  | .cycle i id =>
    match s.tenants id with
    | none => none
    | some t => if reconciled t && !s.guard then s.spawn i id (.reconcileTenant t) else none
  | .resume i r => (s.tasks i).bind (s.resume cfg i r)
  | .drop i served => (s.tasks i).bind (s.drop cfg i served)
  | .exit v => some { s with daemon := s.daemon.exit v }
  | .tick nanos => some { s with now := s.now + nanos }
  | .restart =>
    some { s with tenants := load s.stateFile, guard := false, tasks := fun _ => none }

def At (s : ControllerState) (i : Nat) (id : String) (pc : Pc) : Prop := ∃ flush, s.tasks i = some ⟨id, pc, flush⟩

def initial : ControllerState := ⟨fun _ => none, false, none, ⟨[]⟩, fun _ => none, 0⟩

def demoTenant (appHealthPort : Option UInt16) : TenantConfig where
  tenantId := "demo"
  kernel := "vmlinuz-26"
  rootfs := "ubuntu-26-sshd.img"
  overlayPath := "demo.img"
  sharedDir := none
  memMb := 512
  memoryLimitMb := none
  initCmd := none
  appHealthPort := appHealthPort

def resumes (task n : Nat) (text : String) : List Action := List.replicate n (.resume task (.ok text))

section Steps

variable {cfg : ControllerConfig} {s s' : ControllerState} {i j : Nat} {id id' : String} {pc pc' : Pc} {r : Reply}
  {task : Task} {e : Effect}

theorem At.unique (h : s.At i id pc) (h' : s.At i id' pc') : id = id' ∧ pc = pc' := by
  obtain ⟨flush, h⟩ := h
  obtain ⟨flush', h'⟩ := h'
  rw [h, Option.some_inj, Task.mk.injEq] at h'
  exact ⟨h'.1, h'.2.1⟩

theorem not_at_of_none (hi : s.tasks i = none) : ¬s.At i id pc := by
  rintro ⟨flush, h⟩
  rw [hi] at h
  cases h

theorem at_setTask :
    (s.setTask i task).At j id pc ↔ (j = i ∧ id = task.tenant ∧ pc = task.pc) ∨ (j ≠ i ∧ s.At j id pc) := by
  by_cases hj : j = i
  · subst hj
    constructor
    · rintro ⟨flush, h⟩
      have hself : (s.setTask j task).tasks j = some task := Function.update_self _ _ _
      rw [hself, Option.some_inj] at h
      exact .inl ⟨rfl, by rw [h], by rw [h]⟩
    · rintro (⟨-, rfl, rfl⟩ | ⟨hne, -⟩)
      · exact ⟨task.flush, Function.update_self _ _ _⟩
      · exact absurd rfl hne
  · have hsame : (s.setTask i task).tasks j = s.tasks j := Function.update_of_ne hj _ _
    unfold At
    rw [hsame]
    simp [hj]

theorem at_apply : (s.apply i id e).At j id' pc ↔ (j = i ∧ id' = id ∧ pc = e.pc) ∨ (j ≠ i ∧ s.At j id' pc) := by
  have h : (s.setTask i ⟨id, e.pc, if e.persist then .snapshot else .clean⟩).At j id' pc ↔ _ := at_setTask
  exact h

theorem apply_tasks :
    (s.apply i id e).tasks i = some ⟨id, e.pc, if e.persist then .snapshot else .clean⟩ := Function.update_self _ _ _

theorem apply_tenants : (s.apply i id e).tenants id = e.record := Function.update_self _ _ _

theorem at_flush {flush : Flush} (h : s.tasks i = some task) :
    (s.setTask i { task with flush := flush }).At j id pc ↔ s.At j id pc := by
  rw [at_setTask]
  by_cases hj : j = i
  · subst hj
    constructor
    · rintro (⟨-, rfl, rfl⟩ | ⟨hne, -⟩)
      · exact ⟨task.flush, h⟩
      · exact absurd rfl hne
    · intro hat
      obtain ⟨rfl, rfl⟩ := hat.unique ⟨task.flush, h⟩
      exact .inl ⟨rfl, rfl, rfl⟩
  · simp [hj]

theorem resume_cases (h : s.resume cfg i r task = some s') :
    (task.acts = false ∧ ∃ flush file, s' = { s.setTask i { task with flush := flush } with stateFile := file }) ∨
      (task.acts = true ∧ task.pc.finished = false ∧
        s' = s.apply i task.tenant (task.pc.step cfg task.tenant s.now r (s.view task.tenant))) := by
  unfold resume at h
  split at h
  · rename_i hflush
    simp only [Option.ite_none_left_eq_some, Option.some_inj] at h
    exact .inl ⟨by rw [Task.acts, hflush], .write s.tenants, s.stateFile, h.2.symm⟩
  · rename_i json hflush
    cases h
    exact .inl ⟨by rw [Task.acts, hflush], .clean, written json s.stateFile r, rfl⟩
  · rename_i hflush
    simp only [Option.ite_none_left_eq_some, Option.some_inj, Bool.or_eq_true, not_or, Bool.not_eq_true] at h
    exact .inr ⟨by rw [Task.acts, hflush], h.1.1, h.2.symm⟩

theorem at_forget (htasks : s'.tasks = Function.update s.tasks i none) : s'.At j id pc ↔ j ≠ i ∧ s.At j id pc := by
  unfold At
  rw [htasks]
  by_cases hj : j = i
  · subst hj
    simp
  · simp [hj]

/-- A handler that is dropped leaves the records and the other tasks as they are. -/
structure Dropped (cfg : ControllerConfig) (s s' : ControllerState) (i : Nat) (task : Task) : Prop where
  handler : task.pc.reconciles = false
  tenants : s'.tenants = s.tenants
  now : s'.now = s.now
  tasks : s'.tasks = Function.update s.tasks i none
  daemon : s'.daemon = s.daemon ∨
    ∃ r : Reply, r.isOk = false ∧ s'.daemon = (task.pc.step cfg task.tenant s.now r (s.view task.tenant)).daemon

theorem drop_cases {served : Bool} (h : s.drop cfg i served task = some s') : Dropped cfg s s' i task := by
  simp only [drop, Option.ite_none_left_eq_some, Option.some_inj] at h
  obtain ⟨hhandler, rfl⟩ := h
  refine ⟨Bool.not_eq_true _ ▸ hhandler, rfl, rfl, rfl, ?_⟩
  cases task.acts with
  | true => exact .inr ⟨_, by cases served <;> rfl, rfl⟩
  | false => exact .inl rfl

theorem Dropped.at_iff (h : Dropped cfg s s' i task) : s'.At j id pc ↔ j ≠ i ∧ s.At j id pc := at_forget h.tasks

theorem next_drop {served : Bool} (h : s.next cfg (.drop i served) = some s') :
    ∃ task, s.tasks i = some task ∧ s.drop cfg i served task = some s' := Option.bind_eq_some_iff.mp h

theorem spawn_cases (h : s.spawn i id pc = some s') : s.tasks i = none ∧ s' = s.setTask i ⟨id, pc, .clean⟩ := by
  unfold spawn at h
  split at h
  · cases h
  · rename_i hnone
    cases h
    exact ⟨hnone, rfl⟩

theorem cycle_cases (h : s.next cfg (.cycle i id) = some s') : ∃ t, s.tenants id = some t ∧ reconciled t = true ∧
    s.tasks i = none ∧ s' = s.setTask i ⟨id, .reconcileTenant t, .clean⟩ := by
  simp only [next] at h
  split at h
  · cases h
  · rename_i t ht
    rw [Option.ite_none_right_eq_some, Bool.and_eq_true] at h
    exact ⟨t, ht, h.1.1, spawn_cases h.2⟩

theorem tasks_next {a : Action} (h : s.next cfg a = some s') (ha : ∀ r, a ≠ .resume i r) (hr : a ≠ .restart)
    (hi : s.tasks i = some task) (htask : task.pc.reconciles = true) : s'.tasks i = some task := by
  have hset {j : Nat} {other : Task} (hj : s.tasks j = none) : (s.setTask j other).tasks i = some task := by
    have hne : i ≠ j := by
      rintro rfl
      rw [hi] at hj
      cases hj
    exact (Function.update_of_ne hne _ _).trans hi
  cases a with
  | request j req =>
    obtain ⟨hj, rfl⟩ := spawn_cases h
    exact hset hj
  | cycle j id =>
    obtain ⟨-, -, -, hj, rfl⟩ := cycle_cases h
    exact hset hj
  | resume j r =>
    obtain ⟨other, -, h⟩ := Option.bind_eq_some_iff.mp h
    have hne : i ≠ j := fun hij => ha r (by rw [hij])
    obtain ⟨-, flush, file, rfl⟩ | ⟨-, -, rfl⟩ := resume_cases h
    · exact (Function.update_of_ne hne _ _).trans hi
    · exact (Function.update_of_ne hne _ _).trans hi
  | drop j served =>
    obtain ⟨other, hj, h⟩ := next_drop h
    have hdropped := drop_cases h
    have hne : i ≠ j := by
      rintro rfl
      obtain rfl := Option.some_inj.mp (hi.symm.trans hj)
      rw [hdropped.handler] at htask
      cases htask
    rw [hdropped.tasks]
    exact (Function.update_of_ne hne _ _).trans hi
  | exit v =>
    cases h
    exact hi
  | tick nanos =>
    cases h
    exact hi
  | restart => exact absurd rfl hr

end Steps

end ControllerState

section Reclaims

def Pc.writesReclaim : Pc → Bool
  | writeBack t => t.status = .saved || t.status = .softReclaimed
  | _ => true

theorem Pc.step_writesReclaim (cfg : ControllerConfig) (id : String) (now : Time) (r : Reply) (w : View) (pc : Pc) :
    (pc.step cfg id now r w).pc.writesReclaim = true := by
  cases pc with
  | createVm c => cases r <;> rfl
  | restoreVm path => cases r <;> rfl
  | fetchGuestIp launch u =>
    simp only [step, View.goto, afterGuestIp]
    split
    · rfl
    · split <;> rfl
  | waitForPort u ip port => cases r <;> rfl
  | acquire =>
    simp only [step]
    split
    · rfl
    · simp only [View.goto, acquireDecision]
      split
      case h_7 => split <;> rfl
      all_goals rfl
  | reconcileTenant t =>
    rw [step, View.goto]
    obtain ⟨_, _, -, h⟩ | ⟨_, h⟩ | h | h := reconcileDecision_cases cfg id now (probed cfg now r t)
    all_goals
      rw [h]
      rfl
  | saveVm t u path =>
    rw [step, View.goto]
    cases w.daemon.call u r <;> rfl
  | recoverFromSoft =>
    simp only [step]
    split
    · rfl
    · split <;> rfl
  | balloonUp u memMb =>
    simp only [step, View.balloonedUp]
    split <;> rfl
  | deleteTenant =>
    simp only [step]
    split
    · rfl
    · unfold View.deleted
      split <;> rfl
  | coldCreate | coldConfig | doRestore | restoreStart _ | started _ _ _ | recovered | touch _ | release _
  | createTenant _ =>
    simp only [step]
    split <;> rfl
  | cleanup _ _ | fail _ _ | destroyDeleted _ | markSaving _ _ _ | destroySaved _ _ _ | destroyUnsaved _ _
  | saveFailed _ | dropCaches _ _ | balloonDown _ _ | writeBack _ | noteProbe _ _ | done _ | panicked => rfl

theorem Request.writesReclaim (req : Request) (now : Time) : (req.pc now).writesReclaim = true := by
  cases req with
  | create c =>
    obtain ⟨response, h⟩ | h := checkConfig_cases c
    all_goals
      rw [Request.pc, h]
      rfl
  | acquire id | release id | delete id => rfl

namespace ControllerState

def Reclaims (s : ControllerState) : Prop := ∀ i id pc, s.At i id pc → pc.writesReclaim = true

variable {cfg : ControllerConfig} {s s' : ControllerState} {a : Action}

theorem reclaims_setTask {i : Nat} {task : Task} (hs : s.Reclaims) (htask : task.pc.writesReclaim = true) :
    (s.setTask i task).Reclaims := by
  intro j id pc hj
  obtain ⟨-, -, rfl⟩ | ⟨-, hj⟩ := at_setTask.mp hj
  · exact htask
  · exact hs j id pc hj

theorem reclaims_next (hs : s.Reclaims) (h : s.next cfg a = some s') : s'.Reclaims := by
  cases a with
  | request i req =>
    obtain ⟨-, rfl⟩ := spawn_cases h
    exact reclaims_setTask hs (req.writesReclaim s.now)
  | cycle i id =>
    obtain ⟨t, -, -, -, rfl⟩ := cycle_cases h
    exact reclaims_setTask hs rfl
  | resume i r =>
    obtain ⟨task, hi, h⟩ := Option.bind_eq_some_iff.mp h
    obtain ⟨-, flush, file, rfl⟩ | ⟨-, -, rfl⟩ := resume_cases h
    · have hset : (s.setTask i { task with flush := flush }).Reclaims :=
        reclaims_setTask hs (hs i task.tenant task.pc ⟨task.flush, hi⟩)
      exact hset
    · intro j id pc hj
      obtain ⟨-, -, rfl⟩ | ⟨-, hj⟩ := at_apply.mp hj
      · exact Pc.step_writesReclaim _ _ _ _ _ _
      · exact hs j id pc hj
  | drop i served =>
    obtain ⟨task, -, h⟩ := next_drop h
    intro j id pc hj
    exact hs j id pc ((drop_cases h).at_iff.mp hj).2
  | exit v =>
    cases h
    exact hs
  | tick nanos =>
    cases h
    exact hs
  | restart =>
    cases h
    intro i id pc hi
    exact absurd hi (not_at_of_none rfl)

theorem reclaims_initial : initial.Reclaims := fun _ _ _ hi => absurd hi (not_at_of_none rfl)

end ControllerState

end Reclaims

section Handlers

variable {cfg : ControllerConfig} {id : String} {now : Time} {r : Reply} {w : View} {pc : Pc} {t : TenantState}

theorem acquireDecision_reconciles : (acquireDecision id t).reconciles = false := by
  unfold acquireDecision
  split
  case h_7 => split <;> rfl
  all_goals rfl

theorem Pc.step_not_reconciles (hpc : pc.reconciles = false) : (pc.step cfg id now r w).pc.reconciles = false := by
  cases pc with
  | acquire =>
    simp only [step]
    split
    · rfl
    · exact acquireDecision_reconciles
  | createVm c =>
    simp only [step]
    cases r <;> rfl
  | restoreVm path =>
    simp only [step]
    cases r <;> rfl
  | fetchGuestIp launch v =>
    simp only [step, View.goto, afterGuestIp]
    split
    · rfl
    · split <;> rfl
  | waitForPort v ip port =>
    simp only [step]
    cases r <;> rfl
  | recoverFromSoft =>
    simp only [step]
    split
    · rfl
    · split <;> rfl
  | balloonUp v memMb =>
    simp only [step, View.balloonedUp]
    split <;> rfl
  | deleteTenant =>
    simp only [step]
    split
    · rfl
    · unfold View.deleted
      split <;> rfl
  | coldCreate | coldConfig | doRestore | restoreStart _ | started _ _ _ | recovered | touch _ | release _
  | createTenant _ =>
    simp only [step]
    split <;> rfl
  | cleanup _ _ | fail _ _ | destroyDeleted _ | panicked => rfl
  | done response => exact hpc
  | reconcileTenant _ | markSaving _ _ _ | saveVm _ _ _ | destroySaved _ _ _ | destroyUnsaved _ _ | saveFailed _
  | dropCaches _ _ | balloonDown _ _ | writeBack _ | noteProbe _ _ => cases hpc

theorem Pc.reconciles_of_step (h : (pc.step cfg id now r w).pc.reconciles = true) : pc.reconciles = true := by
  by_contra hnot
  have hstep : (pc.step cfg id now r w).pc.reconciles = false := step_not_reconciles (Bool.not_eq_true _ ▸ hnot)
  rw [hstep] at h
  cases h

end Handlers

end CloneVmm.Controller
