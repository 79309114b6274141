import Mathlib.Logic.Function.Basic
import Mathlib.Tactic.Common

/-!
The tenant records of `clone-controller/src/state.rs` and the clone daemon as the controller sees it.
A VM is named by the number in its `vm-{XXXX}` identifier, which the daemon counts up. Times are
nanoseconds since the epoch.
-/

namespace CloneVmm.Controller

abbrev VmId := Nat

abbrev Time := Nat

structure TenantConfig where
  tenantId : String
  kernel : String
  rootfs : String
  overlayPath : String
  sharedDir : Option String
  memMb : UInt32
  memoryLimitMb : Option UInt32
  initCmd : Option String
  appHealthPort : Option UInt16
  deriving DecidableEq

inductive VmStatus
  | notFound
  | starting
  | active
  | softReclaimed
  | saving
  | saved
  | failed (detail : String)
  deriving DecidableEq

def VmStatus.asStr : VmStatus → String
  | notFound => "not_found"
  | starting => "starting"
  | active => "active"
  | softReclaimed => "soft_reclaimed"
  | saving => "saving"
  | saved => "saved"
  | failed _ => "failed"

structure TenantState where
  config : TenantConfig
  status : VmStatus
  vmId : Option VmId
  guestIp : Option String
  savePath : Option String
  lastRequestAt : Option Time
  lastHealthOkAt : Option Time
  healthFailCount : UInt32
  createdAt : Time
  reclaimCount : UInt32
  lastError : Option String
  deriving DecidableEq

abbrev Tenants := String → Option TenantState

structure ControllerConfig where
  savesRoot : String
  softReclaimAfterSecs : UInt64
  hardReclaimAfterSecs : UInt32
  balloonTargetMb : UInt32
  healthProbeEnabled : Bool
  healthProbeFailThreshold : UInt32

def ControllerConfig.defaults : ControllerConfig where
  savesRoot := "/tmp/clone-controller-saves"
  softReclaimAfterSecs := 120
  hardReclaimAfterSecs := 300
  balloonTargetMb := 256
  healthProbeEnabled := true
  healthProbeFailThreshold := 3

namespace TenantState

def new (config : TenantConfig) (now : Time) : TenantState where
  config := config
  status := .notFound
  vmId := none
  guestIp := none
  savePath := none
  lastRequestAt := none
  lastHealthOkAt := none
  healthFailCount := 0
  createdAt := now
  reclaimCount := 0
  lastError := none

def nanosPerSec : Nat := 1000000000

/-- `num_seconds` of a difference that is not negative, the clock being monotone. -/
def idleSecs (t : TenantState) (now : Time) : Option Int :=
  t.lastRequestAt.map fun at' => (((now - at') / nanosPerSec : Nat) : Int)

def defaultSavePath (savesRoot tenantId : String) : String := savesRoot ++ "/" ++ tenantId

def reloaded (t : TenantState) : TenantState :=
  match t.status with
  | .active | .starting | .saving | .softReclaimed =>
    { t with status := .notFound, vmId := none, guestIp := none, savePath := none,
             healthFailCount := 0, lastError := none }
  | .notFound | .saved | .failed _ => { t with healthFailCount := 0, lastError := none }

end TenantState

/-- The records after a restart; without a file there are none. -/
def load : Option Tenants → Tenants
  | none => fun _ => none
  | some file => fun id => (file id).map TenantState.reloaded

/-- `answered` tells whether the answer that names the VM has reached the controller, `balloonMb` the last
target of its balloon. -/
structure Vm where
  tenant : String
  running : Bool
  answered : Bool
  balloonMb : Option UInt32
  deriving DecidableEq

def Vm.stop (vm : Vm) : Vm := { vm with running := false }

def Vm.setBalloon (mb : UInt32) (vm : Vm) : Vm := { vm with balloonMb := some mb }

structure Daemon where
  vms : List Vm

inductive Reply
  | ok (text : String)
  | refused (e : String)
  | lost (e : String)

def Reply.isOk : Reply → Bool
  | ok _ => true
  | refused _ | lost _ => false

def Reply.isRefused : Reply → Bool
  | refused _ => true
  | ok _ | lost _ => false

namespace Daemon

def isRunning (d : Daemon) (v : VmId) : Bool := d.vms[v]?.any Vm.running

def insert (d : Daemon) (vm : Vm) : Daemon := ⟨d.vms ++ [vm]⟩

def modify (d : Daemon) (v : VmId) (f : Vm → Vm) : Daemon := ⟨d.vms.modify v f⟩

def start (d : Daemon) (tenant : String) : Reply → Except String VmId × Daemon
  | .ok _ => (.ok d.vms.length, d.insert ⟨tenant, true, true, none⟩)
  | .refused e => (.error e, d)
  | .lost e => (.error e, d.insert ⟨tenant, true, false, none⟩)

def destroy (d : Daemon) (v : VmId) : Reply → Daemon
  | .ok _ | .lost _ => d.modify v Vm.stop
  | .refused _ => d

def call (d : Daemon) (v : VmId) : Reply → Except String String
  | .ok text => if d.isRunning v then .ok text else .error "VM not found"
  | .refused e | .lost e => .error e

def fetchGuestIp (d : Daemon) (v : VmId) (r : Reply) : Option String :=
  match d.call v r with
  | .ok ip => if ip = "" then none else some ip
  | .error _ => none

def balloon (d : Daemon) (v : VmId) (mb : UInt32) (r : Reply) : Except String String × Daemon :=
  match r with
  | .ok _ | .lost _ => (d.call v r, d.modify v (Vm.setBalloon mb))
  | .refused _ => (d.call v r, d)

def exit (d : Daemon) (v : VmId) : Daemon := d.modify v Vm.stop

end Daemon

end CloneVmm.Controller
