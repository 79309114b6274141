import CloneVmm.Control.Protocol
import CloneVmm.Control.RunState

namespace CloneVmm.Control.Status

open CloneVmm.Lib CloneVmm.Lib.Prog
open Daemon (VmRecord VmState ServerState StateFile Io)
open RunState (VcpuControl TemplateIo pauseVcpus resumeVcpus handleSnapshot)
open Protocol (ResponseBody VmSummary)

structure Vm where
  control : VcpuControl
  vcpus : UInt32
  shutdownFlag : Bool

inductive ControlRequest
  | pause (result : Except String Unit)
  | resume
  | snapshot (pause : Except String Unit) (io : TemplateIo) (outputPath : String)
  | shutdown

def Vm.run {α : Type} (vm : Vm) (call : RunState.Ctl α) : Vm := { vm with control := (call.exec vm.control).2 }

def Vm.handleShutdown (vm : Vm) : Vm :=
  let vm := { vm with shutdownFlag := true }
  if vm.control.pauseRequested then vm.run resumeVcpus else vm

def Vm.dispatch (vm : Vm) : ControlRequest → Vm
  | .pause result => vm.run (pauseVcpus result)
  | .resume => vm.run resumeVcpus
  | .snapshot pause io outputPath => vm.run (handleSnapshot pause io outputPath)
  | .shutdown => vm.handleShutdown

def Vm.state (vm : Vm) : String := if vm.control.pauseRequested then "paused" else "running"

def Vm.status {F V : Type} (vm : Vm) (pid : UInt32) : Protocol.Response F V := .ok (.status vm.state pid vm.vcpus)

def ControlRequest.Pauses : ControlRequest → Prop
  | .pause result => result = .ok ()
  | .snapshot result _ _ => result = .ok ()
  | .resume => False
  | .shutdown => False

inductive Process
  | running (vm : Vm)
  | exited (monitored : Bool)

namespace Process

def dispatch (req : ControlRequest) : Process → Process
  | running vm => running (vm.dispatch req)
  | exited monitored => exited monitored

def exit : Process → Process
  | running _ => exited false
  | exited monitored => exited monitored

def monitor : Process → Process
  | running vm => running vm
  | exited _ => exited true

/-- `shutdown_vm`, and the signal for a VM that does not answer. -/
def destroy (answers : Bool) (p : Process) : Process := if answers then p.dispatch .shutdown else p.exit

end Process

def stateName : VmState → String
  | .running => "running"
  | .stopped => "stopped"
  | .paused => "paused"

structure World where
  server : ServerState
  file : StateFile
  processes : UInt32 → Option Process

/-- What a report takes from the clock and from the metrics. -/
structure Readings (F : Type) where
  uptime : VmRecord → F
  memory : String → UInt64

namespace World

variable {F V : Type}

def modify (w : World) (pid : UInt32) (f : Process → Process) : World :=
  { w with processes := Function.update w.processes pid ((w.processes pid).map f) }

def queryVmStatus (w : World) (answers : Bool) (pid : UInt32) : Option (Protocol.Response F V) :=
  match w.processes pid with
  | some (.running vm) => if answers then some (vm.status pid) else none
  | some (.exited _) => none
  | none => none

def liveState : Protocol.Response F V → Option String
  | .ok (.vmStatus state _ _) => some state
  | _ => none

def vmStatus (w : World) (now : Readings F) (answers : Bool) (vmId : String) : Protocol.Response F V :=
  match w.server.vms.lookup vmId with
  | some record =>
    let live : Option (Protocol.Response F V) := w.queryVmStatus answers record.pid
    .ok (.vmStatus ((live.bind liveState).getD (stateName record.state)) (now.uptime record) (now.memory vmId))
  | none => .error s!"VM not found: {vmId}"

def listVms (w : World) (now : Readings F) : Protocol.Response F V :=
  .ok (.vmList (w.server.vms.map fun r => ⟨r.2.vmId, stateName r.2.state, now.uptime r.2⟩))

def gone (w : World) (pid : UInt32) : Bool := (w.processes pid).isNone

def start (stateFile : Option String) (readable : Bool) (file : StateFile) : World :=
  ⟨.new stateFile readable file, file, fun _ => none⟩

end World

inductive Action
  | start (req : Daemon.Request) (io : Io) (vcpus : UInt32)
  | destroy (vmId : String) (answers : Bool)
  | control (pid : UInt32) (req : ControlRequest)
  | exit (pid : UInt32)
  | monitor

namespace World

def started (w : World) (vcpus : UInt32) : Daemon.Response → UInt32 → Option Process
  | .vmCreated _ pid => Function.update w.processes pid (some (.running ⟨⟨false, true⟩, vcpus, false⟩))
  | .ack => w.processes
  | .error _ => w.processes

def next (w : World) : Action → World
  | .start req io vcpus =>
    let (server, file, response) := Daemon.dispatchInner w.server w.file io req
    ⟨server, file, w.started vcpus response⟩
  | .destroy vmId answers =>
    let w' := match w.server.vms.lookup vmId with
      | some record => w.modify record.pid (.destroy answers)
      | none => w
    { w' with server := (Daemon.destroyVm w.server vmId).1 }
  | .control pid req => w.modify pid (.dispatch req)
  | .exit pid => w.modify pid .exit
  | .monitor =>
    { w with server := Daemon.monitor w.server w.gone, processes := fun pid => (w.processes pid).map .monitor }

/-- The kernel gives a new process a pid that is not in use. -/
def Possible (w : World) : Action → Prop
  | .start req io _ => req.allocates = true ∧ ∀ args pid, io.spawn args = .ok pid → w.processes pid = none
  | .control pid _ => ∃ vm, w.processes pid = some (.running vm)
  | .destroy _ _ => True
  | .exit _ => True
  | .monitor => True

def Step (w : World) (a : Action) (t : World) : Prop := w.Possible a ∧ t = w.next a

structure Reported {F : Type} (V : Type) (now : Readings F) (w : World) : Prop where
  answering : ∀ vmId record vm, (vmId, record) ∈ w.server.vms → w.processes record.pid = some (.running vm) →
    w.vmStatus (V := V) now true vmId = .ok (.vmStatus vm.state (now.uptime record) (now.memory vmId))
  exited : ∀ vmId record, (vmId, record) ∈ w.server.vms → w.processes record.pid = some (.exited true) →
    (∀ answers, w.vmStatus (V := V) now answers vmId =
      .ok (.vmStatus "stopped" (now.uptime record) (now.memory vmId))) ∧
    ∃ vms, w.listVms (V := V) now = .ok (.vmList vms) ∧ ⟨record.vmId, "stopped", now.uptime record⟩ ∈ vms

def Registered (w : World) (pid : UInt32) : Prop := ∃ r ∈ w.server.vms, r.2.pid = pid

def Apparent (w : World) : Action → Prop
  | .control pid req => w.Registered pid → ¬ req.Pauses
  | .monitor => ∀ pid monitored, w.Registered pid → w.processes pid ≠ some (.exited monitored)
  | .start _ _ _ => True
  | .destroy _ _ => True
  | .exit _ => True

end World

structure World.Tracked (w : World) : Prop where
  names : (w.server.vms.map Prod.fst).Nodup
  running : ∀ r ∈ w.server.vms, r.2.state = .running
  present : ∀ r ∈ w.server.vms, (w.processes r.2.pid).isSome = true

def Process.Plain : Process → Prop
  | .running vm => vm.control.pauseRequested = false
  | .exited monitored => monitored = false

def World.Plain (w : World) : Prop := ∀ r ∈ w.server.vms, ∀ p, w.processes r.2.pid = some p → p.Plain

section Processes

variable {vm : Vm} {p : Process} {req : ControlRequest}

theorem Vm.dispatch_pauseRequested (h : vm.control.pauseRequested = false) :
    (vm.dispatch req).control.pauseRequested = false ↔ ¬ req.Pauses := by
  cases req with
  | pause result =>
    cases result with
    | ok => exact ⟨(fun h => by cases h), fun h => absurd rfl h⟩
    | error message => exact ⟨(fun _ h => by cases h), fun _ => rfl⟩
  | resume => exact ⟨fun _ h => h, fun _ => rfl⟩
  | snapshot result io outputPath =>
    cases result with
    | ok =>
      have hpaused : (vm.dispatch (.snapshot (.ok ()) io outputPath)).control.pauseRequested = true := by
        simp only [Vm.dispatch, Vm.run, handleSnapshot]
        cases RunState.saveTemplate io outputPath with
        | ok => rfl
        | error e => rfl
      rw [hpaused]
      exact ⟨(fun h => by cases h), fun h => absurd rfl h⟩
    | error message => exact ⟨(fun _ h => by cases h), fun _ => rfl⟩
  | shutdown =>
    refine ⟨fun _ h => h, fun _ => ?_⟩
    simp only [Vm.dispatch, Vm.handleShutdown, h, Bool.false_eq_true, if_false]

theorem Process.Plain.exit (h : p.Plain) : p.exit.Plain := by
  cases p with
  | running vm => rfl
  | exited monitored => exact h

theorem Process.Plain.dispatch (h : p.Plain) (hreq : ¬ req.Pauses) : (p.dispatch req).Plain := by
  cases p with
  | running vm => exact (Vm.dispatch_pauseRequested h).mpr hreq
  | exited monitored => exact h

theorem Process.Plain.destroy (h : p.Plain) (answers : Bool) : (p.destroy answers).Plain := by
  cases answers with
  | false => exact h.exit
  | true => exact h.dispatch fun hpauses => hpauses

end Processes

namespace World

variable {F V : Type} {w t : World} {a : Action} {now : Readings F} {vmId : String} {record : VmRecord}

theorem lookup_of_mem {vms : List (String × VmRecord)} (hnames : (vms.map Prod.fst).Nodup)
    (h : (vmId, record) ∈ vms) : vms.lookup vmId = some record := by
  induction vms with
  | nil => cases h
  | cons r vms ih =>
    obtain ⟨hr, hvms⟩ := List.nodup_cons.mp hnames
    rcases List.mem_cons.mp h with rfl | h
    · exact List.lookup_cons_self
    · have hne : vmId ≠ r.1 := fun heq => hr (heq ▸ List.mem_map_of_mem h)
      rw [List.lookup_cons, beq_false_of_ne hne]
      exact ih hvms h

theorem Tracked.vmStatus_eq (h : w.Tracked) (hr : (vmId, record) ∈ w.server.vms) (now : Readings F) (answers : Bool) :
    w.vmStatus (V := V) now answers vmId = .ok (.vmStatus "running" (now.uptime record) (now.memory vmId)) := by
  have hrunning : record.state = .running := h.running _ hr
  simp only [vmStatus, lookup_of_mem h.names hr, hrunning, queryVmStatus]
  cases w.processes record.pid with
  | none => rfl
  | some p =>
    cases p with
    | exited monitored => rfl
    | running vm => cases answers <;> rfl

theorem Tracked.reported_iff (h : w.Tracked) (now : Readings F) : w.Reported V now ↔ w.Plain := by
  constructor
  · rintro hreported ⟨vmId, record⟩ hr p hp
    cases p with
    | running vm =>
      have hstate := hreported.answering vmId record vm hr hp
      rw [h.vmStatus_eq hr] at hstate
      by_contra hpaused
      rw [Process.Plain, Bool.not_eq_false] at hpaused
      simp [Vm.state, hpaused] at hstate
    | exited monitored =>
      cases monitored with
      | false => rfl
      | true =>
        have hstate := (hreported.exited vmId record hr hp).1 true
        rw [h.vmStatus_eq hr] at hstate
        simp at hstate
  · intro hplain
    constructor
    · intro vmId record vm hr hp
      have hrunning : vm.control.pauseRequested = false := hplain _ hr _ hp
      rw [h.vmStatus_eq hr, Vm.state, hrunning]
      rfl
    · intro vmId record hr hp
      exact Bool.noConfusion (hplain _ hr _ hp)

theorem start_tracked (stateFile : Option String) (readable : Bool) (file : StateFile) :
    (World.start stateFile readable file).Tracked := by
  have hempty : (World.start stateFile readable file).server.vms = [] := (Daemon.new_kept stateFile readable file).1
  refine ⟨?_, ?_, ?_⟩
  · rw [hempty]
    exact List.nodup_nil
  · rw [hempty]
    exact List.forall_mem_nil _
  · rw [hempty]
    exact List.forall_mem_nil _

theorem start_plain (stateFile : Option String) (readable : Bool) (file : StateFile) :
    (World.start stateFile readable file).Plain := by
  intro r hr p hp
  cases hp

theorem insert_nodup {s : ServerState} (h : (s.vms.map Prod.fst).Nodup) (vmId : String) (record : VmRecord) :
    ((s.insert vmId record).vms.map Prod.fst).Nodup := by
  rw [ServerState.insert, List.map_cons, List.nodup_cons]
  refine ⟨fun hmem => ?_, h.sublist (List.filter_sublist.map _)⟩
  obtain ⟨r, hr, heq⟩ := List.mem_map.mp hmem
  have hne := (List.mem_filter.mp hr).2
  simp only [bne_iff_ne] at hne
  exact hne heq

theorem mem_insert {s : ServerState} {r : String × VmRecord} (h : r ∈ (s.insert vmId record).vms) :
    r = (vmId, record) ∨ r ∈ s.vms := by
  rcases List.mem_cons.mp h with heq | h
  · exact .inl heq
  · exact .inr (List.mem_of_mem_filter h)

theorem start_cases {req : Daemon.Request} {io : Io} {vcpus : UInt32} (hpossible : w.Possible (.start req io vcpus)) :
    ((w.next (.start req io vcpus)).server.vms = w.server.vms ∧
        (w.next (.start req io vcpus)).processes = w.processes) ∨
      ∃ vmId config limit pid, w.processes pid = none ∧
        (w.next (.start req io vcpus)).server.vms =
          (w.server.insert vmId ⟨vmId, pid, .running, config, limit⟩).vms ∧
        (w.next (.start req io vcpus)).processes =
          Function.update w.processes pid (some (.running ⟨⟨false, true⟩, vcpus, false⟩)) := by
  obtain ⟨hallocates, hfresh⟩ := hpossible
  obtain ⟨config, limit, failure, args, hdispatch⟩ := Daemon.dispatchInner_allocates w.server w.file io hallocates
  cases hspawn : io.spawn args with
  | error e =>
    left
    simp only [next, hdispatch, hspawn, ServerState.register]
    exact ⟨rfl, rfl⟩
  | ok pid =>
    right
    refine ⟨w.server.allocate.1.1, config, limit, pid, hfresh args pid hspawn, ?_, ?_⟩
    · simp only [next, hdispatch, hspawn, ServerState.register]
      rfl
    · simp only [next, hdispatch, hspawn, ServerState.register]
      rfl

theorem destroy_vms (w : World) (vmId : String) (answers : Bool) :
    (w.next (.destroy vmId answers)).server.vms.Sublist w.server.vms := by
  simp only [next, Daemon.destroyVm]
  cases w.server.vms.lookup vmId with
  | none => exact List.Sublist.refl _
  | some record => exact List.filter_sublist

theorem destroy_processes (w : World) (vmId : String) (answers : Bool) (pid : UInt32) :
    (w.next (.destroy vmId answers)).processes pid = w.processes pid ∨
      (w.next (.destroy vmId answers)).processes pid = (w.processes pid).map (.destroy answers) := by
  simp only [next]
  cases w.server.vms.lookup vmId with
  | none => exact .inl rfl
  | some record =>
    by_cases heq : pid = record.pid
    · subst heq
      exact .inr (Function.update_self _ _ _)
    · exact .inl (Function.update_of_ne heq _ _)

theorem modify_processes (w : World) (pid : UInt32) (f : Process → Process) (other : UInt32) :
    (w.modify pid f).processes other = if other = pid then (w.processes pid).map f else w.processes other :=
  Function.update_apply _ _ _ _

theorem Tracked.monitor_server (h : w.Tracked) : Daemon.monitor w.server w.gone = w.server := by
  have hkept : ∀ r ∈ w.server.vms,
      (r.1, if r.2.pid ≠ 0 ∧ w.gone r.2.pid then { r.2 with state := .stopped } else r.2) = r := by
    intro r hr
    rw [if_neg]
    rintro ⟨-, hgone⟩
    rw [gone, Option.isNone_iff_eq_none] at hgone
    have hpresent := h.present r hr
    rw [hgone] at hpresent
    cases hpresent
  have hvms : (Daemon.monitor w.server w.gone).vms = w.server.vms := (List.map_congr_left hkept).trans (List.map_id _)
  calc Daemon.monitor w.server w.gone = { w.server with vms := (Daemon.monitor w.server w.gone).vms } := rfl
    _ = w.server := by rw [hvms]

theorem Tracked.step (h : w.Tracked) (hstep : w.Step a t) : t.Tracked := by
  obtain ⟨hpossible, rfl⟩ := hstep
  have hmap : ∀ (f : Process → Process) (pid : UInt32),
      ((w.processes pid).map f).isSome = (w.processes pid).isSome := fun f pid => Option.isSome_map
  cases a with
  | start req io vcpus =>
    rcases start_cases hpossible with ⟨hvms, hprocesses⟩ | ⟨vmId, config, limit, pid, hfree, hvms, hprocesses⟩
    · refine ⟨?_, ?_, ?_⟩
      · rw [hvms]
        exact h.names
      · rw [hvms]
        exact h.running
      · rw [hvms, hprocesses]
        exact h.present
    · refine ⟨?_, fun r hr => ?_, fun r hr => ?_⟩
      · rw [hvms]
        exact insert_nodup h.names vmId _
      · rw [hvms] at hr
        rcases mem_insert hr with rfl | hr
        · rfl
        · exact h.running r hr
      · rw [hvms] at hr
        rw [hprocesses, Function.update_apply]
        split
        · rfl
        · rcases mem_insert hr with rfl | hr
          · contradiction
          · exact h.present r hr
  | destroy vmId answers =>
    have hvms := destroy_vms w vmId answers
    refine ⟨h.names.sublist (hvms.map _), fun r hr => h.running r (hvms.subset hr), fun r hr => ?_⟩
    have hpresent := h.present r (hvms.subset hr)
    rcases destroy_processes w vmId answers r.2.pid with hsame | hdestroyed
    · rw [hsame]
      exact hpresent
    · rw [hdestroyed, hmap]
      exact hpresent
  | control pid req =>
    refine ⟨h.names, h.running, fun r hr => ?_⟩
    simp only [next, modify_processes]
    split
    · rename_i heq
      rw [hmap, ← heq]
      exact h.present r hr
    · exact h.present r hr
  | exit pid =>
    refine ⟨h.names, h.running, fun r hr => ?_⟩
    simp only [next, modify_processes]
    split
    · rename_i heq
      rw [hmap, ← heq]
      exact h.present r hr
    · exact h.present r hr
  | monitor =>
    have hserver : (w.next .monitor).server = w.server := h.monitor_server
    refine ⟨?_, ?_, fun r hr => ?_⟩
    · rw [hserver]
      exact h.names
    · rw [hserver]
      exact h.running
    · rw [hserver] at hr
      exact (hmap _ _).trans (h.present r hr)

theorem Plain.step_iff (hplain : w.Plain) (h : w.Tracked) (hstep : w.Step a t) : t.Plain ↔ w.Apparent a := by
  obtain ⟨hpossible, rfl⟩ := hstep
  cases a with
  | start req io vcpus =>
    refine ⟨fun _ => trivial, fun _ r hr p hp => ?_⟩
    rcases start_cases hpossible with ⟨hvms, hprocesses⟩ | ⟨vmId, config, limit, pid, hfree, hvms, hprocesses⟩
    · rw [hvms] at hr
      rw [hprocesses] at hp
      exact hplain r hr p hp
    · rw [hvms] at hr
      rw [hprocesses, Function.update_apply] at hp
      split at hp
      · cases hp
        rfl
      · rcases mem_insert hr with rfl | hr
        · contradiction
        · exact hplain r hr p hp
  | destroy vmId answers =>
    refine ⟨fun _ => trivial, fun _ r hr p hp => ?_⟩
    have hold := hplain r ((destroy_vms w vmId answers).subset hr)
    rcases destroy_processes w vmId answers r.2.pid with hsame | hdestroyed
    · exact hold p (hsame ▸ hp)
    · rw [hdestroyed] at hp
      obtain ⟨p', hp', rfl⟩ := Option.map_eq_some_iff.mp hp
      exact (hold p' hp').destroy answers
  | control pid req =>
    obtain ⟨vm, hvm⟩ := hpossible
    constructor
    · rintro hafter ⟨r, hr, rfl⟩
      have hp : (w.next (.control r.2.pid req)).processes r.2.pid = some (.running (vm.dispatch req)) := by
        simp only [next, modify_processes, if_true, hvm]
        rfl
      exact (Vm.dispatch_pauseRequested (hplain r hr _ hvm)).mp (hafter r hr _ hp)
    · intro happarent r hr p hp
      simp only [next, modify_processes] at hp
      split at hp
      · rename_i heq
        rw [hvm] at hp
        cases hp
        rw [← heq] at hvm
        exact (hplain r hr _ hvm).dispatch (happarent ⟨r, hr, heq⟩)
      · exact hplain r hr p hp
  | exit pid =>
    refine ⟨fun _ => trivial, fun _ r hr p hp => ?_⟩
    simp only [next, modify_processes] at hp
    split at hp
    · rename_i heq
      obtain ⟨p', hp', rfl⟩ := Option.map_eq_some_iff.mp hp
      rw [← heq] at hp'
      exact (hplain r hr p' hp').exit
    · exact hplain r hr p hp
  | monitor =>
    have hserver : (w.next .monitor).server = w.server := h.monitor_server
    constructor
    · rintro hafter pid monitored ⟨r, hr, rfl⟩ hp
      have hp' : (w.next .monitor).processes r.2.pid = some (.exited true) := by
        simp only [next, hp]
        rfl
      rw [← hserver] at hr
      exact Bool.noConfusion (hafter r hr _ hp')
    · intro happarent r hr p hp
      rw [hserver] at hr
      obtain ⟨p', hp', rfl⟩ := Option.map_eq_some_iff.mp hp
      cases p' with
      | running vm => exact hplain r hr _ hp'
      | exited monitored => exact absurd hp' (happarent _ _ ⟨r, hr, rfl⟩)

end World

open World

/-- The states that VMs are reported in are right throughout a run exactly if no step of it pauses a VM on record and
the monitor never looks at one that has exited. -/
theorem reported_throughout_iff {F V : Type} (now : Readings F) (stateFile : Option String) (readable : Bool)
    (file : StateFile) (as : List Action) (w : World) :
    Steps (fun s a t => Step s a t ∧ Reported V now t) (.start stateFile readable file) as w ↔
      Steps (fun s a t => Step s a t ∧ s.Apparent a) (.start stateFile readable file) as w := by
  have htracked := start_tracked stateFile readable file
  apply Steps.iff_of_step (fun s a t hstep h => Tracked.step h hstep)
  · intro s a t hstep h hreported
    rw [(h.step hstep).reported_iff, Plain.step_iff ((h.reported_iff now).mp hreported) h hstep]
  · exact htracked
  · exact (htracked.reported_iff now).mpr (start_plain stateFile readable file)

def forkArgs : Daemon.ForkVm := ⟨"/snapshots/base", false, none, none, none, none, none⟩

def spawned : Io := ⟨fun _ => .ok 4711, true⟩

def startVm : Action := .start (.forkVm forkArgs) spawned 1

def noReadings : Readings Unit := ⟨fun _ => (), fun _ => 0⟩

theorem steps_next {w t : World} {as : List Action} {a : Action} (h : Steps Step w as t) (hpossible : t.Possible a) :
    Steps Step w (as ++ [a]) (t.next a) :=
  h.append (.cons ⟨hpossible, rfl⟩ (.nil _))

def empty : World := .start none true .missing

theorem startVm_run : Steps Step empty [startVm] (empty.next startVm) :=
  .cons ⟨⟨rfl, fun _ _ _ => rfl⟩, rfl⟩ (.nil _)

theorem startVm_process : (empty.next startVm).processes 4711 = some (.running ⟨⟨false, true⟩, 1, false⟩) := rfl

theorem reported_throughout_fails :
    (∃ w, Steps Step empty [startVm, .control 4711 (.pause (.ok ()))] w ∧
      w.vmStatus (V := Unit) noReadings true (Daemon.vmName 1) = .ok (.vmStatus "running" () 0) ∧
      ¬ w.Reported Unit noReadings) ∧
    ∃ w, Steps Step empty [startVm, .exit 4711, .monitor] w ∧
      w.vmStatus (V := Unit) noReadings true (Daemon.vmName 1) = .ok (.vmStatus "running" () 0) ∧
      ¬ w.Reported Unit noReadings := by
  have htracked : empty.Tracked := start_tracked none true .missing
  have hstarted := htracked.step (a := startVm) ⟨⟨rfl, fun _ _ _ => rfl⟩, rfl⟩
  constructor
  · have hpossible : (empty.next startVm).Possible (.control 4711 (.pause (.ok ()))) := ⟨_, startVm_process⟩
    have hpaused := hstarted.step ⟨hpossible, rfl⟩
    refine ⟨_, steps_next startVm_run hpossible, hpaused.vmStatus_eq List.mem_cons_self noReadings true, ?_⟩
    intro hreported
    exact Bool.noConfusion ((hpaused.reported_iff noReadings).mp hreported _ List.mem_cons_self _ rfl)
  · have hexited := hstarted.step (a := .exit 4711) ⟨trivial, rfl⟩
    have hmonitored := hexited.step (a := .monitor) ⟨trivial, rfl⟩
    refine ⟨_, steps_next (steps_next (a := .exit 4711) startVm_run trivial) (a := .monitor) trivial,
      hmonitored.vmStatus_eq List.mem_cons_self noReadings true, ?_⟩
    intro hreported
    exact Bool.noConfusion ((hmonitored.reported_iff noReadings).mp hreported _ List.mem_cons_self _ rfl)

end CloneVmm.Control.Status
