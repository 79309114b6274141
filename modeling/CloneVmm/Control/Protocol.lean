import CloneVmm.Control.Daemon
import CloneVmm.Lib.Bytes
import CloneVmm.Lib.Json

/-!
`control/protocol.rs`: requests and responses as JSON objects, and the frames that carry them. `serde_json` is a
parameter: the text of a JSON value, the values that are read from a text, and the numbers and values it has types for.
-/

namespace CloneVmm.Control.Protocol

open CloneVmm.Lib
open Daemon (CreateVm ForkVm RestoreVm)

inductive Request
  | createVm (args : CreateVm)
  | destroyVm (vmId : String)
  | vmStatus (vmId : String)
  | listVms
  | snapshot (vmId outputPath : String)
  | forkVm (args : ForkVm)
  | setBalloon (targetMb : UInt32)
  | metrics (vmId : String)
  | incrementalSnapshot (outputPath baseTemplate : String)
  | pause
  | resume
  | shutdown
  | liveMigrate (destHost : String) (destPort : UInt16)
  | branch (outputDir : Option String) (net : Bool) (sharedDir : Option String)
  | exec (command : String) (args : List String)
  | restoreVm (args : RestoreVm)

structure VmSummary (F : Type) where
  vmId : String
  state : String
  uptimeSecs : F

/-- `F` are the floating-point numbers, and `V` the values of `serde_json`. -/
inductive ResponseBody (F V : Type)
  | vmCreated (vmId : String) (pid : UInt32)
  | execResult (exitCode : Int32) (stdout stderr : String)
  | vmStatus (state : String) (uptimeSecs : F) (memoryUsageBytes : UInt64)
  | vmList (vms : List (VmSummary F))
  | metrics (metrics : V)
  | snapshotComplete (path : String)
  | status (state : String) (pid vcpus : UInt32)
  | migrationComplete (totalPagesSent : UInt64) (rounds : UInt32) (downtimeMs totalTimeMs : UInt64)
  | branchComplete (newVmId : String) (newPid : UInt32) (pauseDurationMs totalDurationMs : UInt64)
  | ack

inductive Response (F V : Type)
  | ok (body : ResponseBody F V)
  | error (message : String)

structure SerdeJson (F V : Type) where
  finite : F → Bool
  ofInt : Int → F
  ofValue : V → Json F
  toValue : Json F → V
  toVec : Json F → List UInt8
  fromSlice : List UInt8 → Option (Json F)

theorem ofNat_lower (n : Nat) : -2 ^ 63 ≤ (n : Int) := by
  omega

theorem ofNat_upper {n : Nat} (h : n < 2 ^ 64) : (n : Int) < 2 ^ 64 := by
  omega

def ofNat {F : Type} (n : Nat) (h : n < 2 ^ 64) : Json F := .int ⟨n, ofNat_lower n, ofNat_upper h⟩

theorem u16_lt (n : UInt16) : n.toNat < 2 ^ 64 := n.toNat_lt.trans (by decide)

theorem u32_lt (n : UInt32) : n.toNat < 2 ^ 64 := n.toNat_lt.trans (by decide)

theorem i32_lower (n : Int32) : -2 ^ 63 ≤ n.toInt := Int.le_trans (by decide) n.le_toInt

theorem i32_upper (n : Int32) : n.toInt < 2 ^ 64 := Int.lt_trans n.toInt_lt (by decide)

section Numbers

variable {F V : Type}

def ofU16 (n : UInt16) : Json F := ofNat n.toNat (u16_lt n)

def ofU32 (n : UInt32) : Json F := ofNat n.toNat (u32_lt n)

def ofU64 (n : UInt64) : Json F := ofNat n.toNat n.toNat_lt

def ofI32 (n : Int32) : Json F := .int ⟨n.toInt, i32_lower n, i32_upper n⟩

def nat? (bound : Nat) (j : Json F) : Option Nat :=
  j.int?.bind fun z => if 0 ≤ z ∧ z < bound then some z.toNat else none

def u16? (j : Json F) : Option UInt16 := (nat? (2 ^ 16) j).map UInt16.ofNat

def u32? (j : Json F) : Option UInt32 := (nat? (2 ^ 32) j).map UInt32.ofNat

def u64? (j : Json F) : Option UInt64 := (nat? (2 ^ 64) j).map UInt64.ofNat

def i32? (j : Json F) : Option Int32 :=
  j.int?.bind fun z => if -2 ^ 31 ≤ z ∧ z < 2 ^ 31 then some (Int32.ofInt z) else none

def ofF64 (serde : SerdeJson F V) (x : F) : Json F := if serde.finite x then .float x else .null

def f64? (serde : SerdeJson F V) : Json F → Option F
  | .float x => some x
  | .int n => some (serde.ofInt n.val)
  | _ => none

end Numbers

section Requests

variable {F : Type}

def ofStrings (args : List String) : Json F := .array (args.map .string)

def createVmFields (a : CreateVm) : List (String × Json F) :=
  [("kernel", .string a.kernel), ("initrd", .ofOption .string a.initrd), ("cmdline", .string a.cmdline),
    ("mem_mb", ofU32 a.memMb), ("vcpus", ofU32 a.vcpus), ("rootfs", .ofOption .string a.rootfs),
    ("overlay", .ofOption .string a.overlay), ("shared_dir", .ofOption .string a.sharedDir),
    ("block", .ofOption .string a.block), ("net", .bool a.net), ("tap", .ofOption .string a.tap),
    ("seccomp", .bool a.seccomp), ("jail", .ofOption .string a.jail),
    ("memory_limit_mb", .ofOption ofU32 a.memoryLimitMb)]

def readCreateVm (fields : List (String × Json F)) : Option CreateVm := do
  let kernel ← Json.required Json.string? fields "kernel"
  let initrd ← Json.optional Json.string? fields "initrd"
  let cmdline ← Json.required Json.string? fields "cmdline"
  let memMb ← Json.required u32? fields "mem_mb"
  let vcpus ← Json.required u32? fields "vcpus"
  let rootfs ← Json.optional Json.string? fields "rootfs"
  let overlay ← Json.optional Json.string? fields "overlay"
  let sharedDir ← Json.optional Json.string? fields "shared_dir"
  let block ← Json.optional Json.string? fields "block"
  let net ← Json.defaulted Json.bool? false fields "net"
  let tap ← Json.optional Json.string? fields "tap"
  let seccomp ← Json.defaulted Json.bool? false fields "seccomp"
  let jail ← Json.optional Json.string? fields "jail"
  let memoryLimitMb ← Json.optional u32? fields "memory_limit_mb"
  return ⟨kernel, initrd, cmdline, memMb, vcpus, rootfs, overlay, sharedDir, block, net, tap, seccomp, jail,
    memoryLimitMb⟩

def forkVmFields (a : ForkVm) : List (String × Json F) :=
  [("template_path", .string a.templatePath), ("net", .bool a.net), ("shared_dir", .ofOption .string a.sharedDir),
    ("mem_mb", .ofOption ofU32 a.memMb), ("vcpus", .ofOption ofU32 a.vcpus),
    ("overlay_size", .ofOption .string a.overlaySize), ("memory_limit_mb", .ofOption ofU32 a.memoryLimitMb)]

def readForkVm (fields : List (String × Json F)) : Option ForkVm := do
  let templatePath ← Json.required Json.string? fields "template_path"
  let net ← Json.defaulted Json.bool? false fields "net"
  let sharedDir ← Json.optional Json.string? fields "shared_dir"
  let memMb ← Json.optional u32? fields "mem_mb"
  let vcpus ← Json.optional u32? fields "vcpus"
  let overlaySize ← Json.optional Json.string? fields "overlay_size"
  let memoryLimitMb ← Json.optional u32? fields "memory_limit_mb"
  return ⟨templatePath, net, sharedDir, memMb, vcpus, overlaySize, memoryLimitMb⟩

def restoreVmFields (a : RestoreVm) : List (String × Json F) :=
  [("snapshot_path", .string a.snapshotPath), ("net", .bool a.net), ("shared_dir", .ofOption .string a.sharedDir),
    ("block", .ofOption .string a.block), ("memory_limit_mb", .ofOption ofU32 a.memoryLimitMb)]

def readRestoreVm (fields : List (String × Json F)) : Option RestoreVm := do
  let snapshotPath ← Json.required Json.string? fields "snapshot_path"
  let net ← Json.defaulted Json.bool? false fields "net"
  let sharedDir ← Json.optional Json.string? fields "shared_dir"
  let block ← Json.optional Json.string? fields "block"
  let memoryLimitMb ← Json.optional u32? fields "memory_limit_mb"
  return ⟨snapshotPath, net, sharedDir, block, memoryLimitMb⟩

namespace Request

def tag : Request → String
  | createVm _ => "create_vm"
  | destroyVm _ => "destroy_vm"
  | vmStatus _ => "vm_status"
  | listVms => "list_vms"
  | snapshot _ _ => "snapshot"
  | forkVm _ => "fork_vm"
  | setBalloon _ => "set_balloon"
  | metrics _ => "metrics"
  | incrementalSnapshot _ _ => "incremental_snapshot"
  | pause => "pause"
  | resume => "resume"
  | shutdown => "shutdown"
  | liveMigrate _ _ => "live_migrate"
  | branch _ _ _ => "branch"
  | exec _ _ => "exec"
  | restoreVm _ => "restore_vm"

def fields : Request → List (String × Json F)
  | createVm args => createVmFields args
  | destroyVm vmId | vmStatus vmId | metrics vmId => [("vm_id", .string vmId)]
  | listVms | pause | resume | shutdown => []
  | snapshot vmId outputPath => [("vm_id", .string vmId), ("output_path", .string outputPath)]
  | forkVm args => forkVmFields args
  | setBalloon targetMb => [("target_mb", ofU32 targetMb)]
  | incrementalSnapshot outputPath baseTemplate =>
    [("output_path", .string outputPath), ("base_template", .string baseTemplate)]
  | liveMigrate destHost destPort => [("dest_host", .string destHost), ("dest_port", ofU16 destPort)]
  | branch outputDir net sharedDir =>
    [("output_dir", .ofOption .string outputDir), ("net", .bool net), ("shared_dir", .ofOption .string sharedDir)]
  | exec command args => [("command", .string command), ("args", ofStrings args)]
  | restoreVm args => restoreVmFields args

def toJson (r : Request) : Json F := .object (("cmd", .string r.tag) :: r.fields)

def ofFields (tag : String) (fields : List (String × Json F)) : Option Request :=
  match tag with
  | "create_vm" => (readCreateVm fields).map createVm
  | "destroy_vm" => (Json.required Json.string? fields "vm_id").map destroyVm
  | "vm_status" => (Json.required Json.string? fields "vm_id").map vmStatus
  | "list_vms" => some listVms
  | "snapshot" => do
    let vmId ← Json.required Json.string? fields "vm_id"
    let outputPath ← Json.required Json.string? fields "output_path"
    return snapshot vmId outputPath
  | "fork_vm" => (readForkVm fields).map forkVm
  | "set_balloon" => (Json.required u32? fields "target_mb").map setBalloon
  | "metrics" => (Json.required Json.string? fields "vm_id").map metrics
  | "incremental_snapshot" => do
    let outputPath ← Json.required Json.string? fields "output_path"
    let baseTemplate ← Json.required Json.string? fields "base_template"
    return incrementalSnapshot outputPath baseTemplate
  | "pause" => some pause
  | "resume" => some resume
  | "shutdown" => some shutdown
  | "live_migrate" => do
    let destHost ← Json.required Json.string? fields "dest_host"
    let destPort ← Json.required u16? fields "dest_port"
    return liveMigrate destHost destPort
  | "branch" => do
    let outputDir ← Json.optional Json.string? fields "output_dir"
    let net ← Json.defaulted Json.bool? false fields "net"
    let sharedDir ← Json.optional Json.string? fields "shared_dir"
    return branch outputDir net sharedDir
  | "exec" => do
    let command ← Json.required Json.string? fields "command"
    let args ← Json.required (Json.array? Json.string?) fields "args"
    return exec command args
  | "restore_vm" => (readRestoreVm fields).map restoreVm
  | _ => none

def ofJson (j : Json F) : Option Request := (j.tagged "cmd").bind fun t => ofFields t.1 t.2

end Request

end Requests

section Responses

variable {F V : Type} (serde : SerdeJson F V)

def VmSummary.toJson (s : VmSummary F) : Json F :=
  .object [("vm_id", .string s.vmId), ("state", .string s.state), ("uptime_secs", ofF64 serde s.uptimeSecs)]

def VmSummary.ofJson : Json F → Option (VmSummary F)
  | .object fields => do
    let vmId ← Json.required Json.string? fields "vm_id"
    let state ← Json.required Json.string? fields "state"
    let uptimeSecs ← Json.required (f64? serde) fields "uptime_secs"
    return ⟨vmId, state, uptimeSecs⟩
  | _ => none

namespace ResponseBody

def fields : ResponseBody F V → List (String × Json F)
  | vmCreated vmId pid => [("vm_id", .string vmId), ("pid", ofU32 pid)]
  | execResult exitCode stdout stderr =>
    [("exit_code", ofI32 exitCode), ("stdout", .string stdout), ("stderr", .string stderr)]
  | vmStatus state uptimeSecs memoryUsageBytes =>
    [("state", .string state), ("uptime_secs", ofF64 serde uptimeSecs),
      ("memory_usage_bytes", ofU64 memoryUsageBytes)]
  | vmList vms => [("vms", .array (vms.map (VmSummary.toJson serde)))]
  | metrics value => [("metrics", serde.ofValue value)]
  | snapshotComplete path => [("path", .string path)]
  | status state pid vcpus => [("state", .string state), ("pid", ofU32 pid), ("vcpus", ofU32 vcpus)]
  | migrationComplete totalPagesSent rounds downtimeMs totalTimeMs =>
    [("total_pages_sent", ofU64 totalPagesSent), ("rounds", ofU32 rounds), ("downtime_ms", ofU64 downtimeMs),
      ("total_time_ms", ofU64 totalTimeMs)]
  | branchComplete newVmId newPid pauseDurationMs totalDurationMs =>
    [("new_vm_id", .string newVmId), ("new_pid", ofU32 newPid), ("pause_duration_ms", ofU64 pauseDurationMs),
      ("total_duration_ms", ofU64 totalDurationMs)]
  | ack => []

variable (fields : List (String × Json F))

def readVmCreated : Option (ResponseBody F V) := do
  let vmId ← Json.required Json.string? fields "vm_id"
  let pid ← Json.required u32? fields "pid"
  return vmCreated vmId pid

def readExecResult : Option (ResponseBody F V) := do
  let exitCode ← Json.required i32? fields "exit_code"
  let stdout ← Json.required Json.string? fields "stdout"
  let stderr ← Json.required Json.string? fields "stderr"
  return execResult exitCode stdout stderr

def readVmStatus : Option (ResponseBody F V) := do
  let state ← Json.required Json.string? fields "state"
  let uptimeSecs ← Json.required (f64? serde) fields "uptime_secs"
  let memoryUsageBytes ← Json.required u64? fields "memory_usage_bytes"
  return vmStatus state uptimeSecs memoryUsageBytes

def readVmList : Option (ResponseBody F V) :=
  (Json.required (Json.array? (VmSummary.ofJson serde)) fields "vms").map vmList

def readMetrics : Option (ResponseBody F V) :=
  (Json.required (fun j => some (serde.toValue j)) fields "metrics").map metrics

def readSnapshotComplete : Option (ResponseBody F V) :=
  (Json.required Json.string? fields "path").map snapshotComplete

def readStatus : Option (ResponseBody F V) := do
  let state ← Json.required Json.string? fields "state"
  let pid ← Json.required u32? fields "pid"
  let vcpus ← Json.required u32? fields "vcpus"
  return status state pid vcpus

def readMigrationComplete : Option (ResponseBody F V) := do
  let totalPagesSent ← Json.required u64? fields "total_pages_sent"
  let rounds ← Json.required u32? fields "rounds"
  let downtimeMs ← Json.required u64? fields "downtime_ms"
  let totalTimeMs ← Json.required u64? fields "total_time_ms"
  return migrationComplete totalPagesSent rounds downtimeMs totalTimeMs

def readBranchComplete : Option (ResponseBody F V) := do
  let newVmId ← Json.required Json.string? fields "new_vm_id"
  let newPid ← Json.required u32? fields "new_pid"
  let pauseDurationMs ← Json.required u64? fields "pause_duration_ms"
  let totalDurationMs ← Json.required u64? fields "total_duration_ms"
  return branchComplete newVmId newPid pauseDurationMs totalDurationMs

def ofFields : Option (ResponseBody F V) :=
  readVmCreated fields <|> readExecResult fields <|> readVmStatus serde fields <|> readVmList serde fields <|>
    readMetrics serde fields <|> readSnapshotComplete fields <|> readStatus fields <|> readMigrationComplete fields <|>
    readBranchComplete fields <|> some ack

end ResponseBody

namespace Response

def toJson : Response F V → Json F
  | ok body => .object (("status", .string "ok") :: body.fields serde)
  | error message => .object [("status", .string "error"), ("message", .string message)]

def ofJson (j : Json F) : Option (Response F V) :=
  (j.tagged "status").bind fun t =>
    match t.1 with
    | "ok" => (ResponseBody.ofFields serde t.2).map ok
    | "error" => (Json.required Json.string? t.2 "message").map error
    | _ => none

end Response

end Responses

def maxFrameSize : Nat := 2 ^ 20

inductive ProtocolError
  | io
  | json
  | frameTooLarge (len : Nat)
  | connectionClosed
  deriving DecidableEq

section Frames

variable {F V α : Type} (serde : SerdeJson F V)

def frame (out : List UInt8) (msg : Json F) : Except ProtocolError Unit × List UInt8 :=
  let json := serde.toVec msg
  let len := json.length % 2 ^ 32
  if maxFrameSize < len then (.error (.frameTooLarge len), out) else (.ok (), out ++ leBytes 4 len ++ json)

def writeFrame (out : List UInt8) (msg : Json F) : Except ProtocolError Unit × List UInt8 := frame serde out msg

def writeFrameSync (out : List UInt8) (msg : Json F) : Except ProtocolError Unit × List UInt8 := frame serde out msg

def readExact (count : Nat) (input : List UInt8) : Option (List UInt8 × List UInt8) :=
  if input.length < count then none else some (input.take count, input.drop count)

def unframe (read : Json F → Option α) (input : List UInt8) : Except ProtocolError α × List UInt8 :=
  match readExact 4 input with
  | none => (.error .connectionClosed, [])
  | some (lenBuf, rest) =>
    let len := leNat lenBuf
    if maxFrameSize < len then (.error (.frameTooLarge len), rest)
    else
      match readExact len rest with
      | none => (.error .io, [])
      | some (buf, rest) =>
        match (serde.fromSlice buf).bind read with
        | none => (.error .json, rest)
        | some msg => (.ok msg, rest)

def readFrame (read : Json F → Option α) (input : List UInt8) : Except ProtocolError α × List UInt8 :=
  unframe serde read input

def readFrameSync (read : Json F → Option α) (input : List UInt8) : Except ProtocolError α × List UInt8 :=
  unframe serde read input

end Frames

end CloneVmm.Control.Protocol
