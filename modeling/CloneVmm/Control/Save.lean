import CloneVmm.Boot.Compaction
import CloneVmm.Control.RunState

/-!
`save_vm` of `control/http.rs`: the HTTP server forwards a snapshot and then a shutdown to the control socket
of the VM. Files are known by the text of their paths. What the calls of the host give is data, and so are the
way of each forwarded request and the moment at which the HTTP client goes away.
-/

namespace CloneVmm.SaveVm

open CloneVmm.Lib CloneVmm.Boot CloneVmm.Control.RunState

abbrev Disk := String → Option (List UInt8)

/-- What the KVM calls on the file descriptor of the VM give. -/
structure VmFd where
  getIrqchip : Nat → Option (List UInt8)
  getPit2 : Option (List UInt8)
  getClock : Option Nat

structure PausedVm where
  memory : List UInt8
  capturedStates : List (Option VcpuState)
  transports : List (Option (List UInt8))
  serial : List UInt8
  vmFd : Option VmFd
  blockDevice : Option String
  overlayPath : Option String
  guestIp : Option String

/-- How `fs::write` ends; `stops` is an error after the first `count` bytes, if there are more. -/
inductive WriteIo
  | done
  | notOpened
  | stops (count : Nat)

structure SaveIo where
  pause : Except String Unit
  createDir : Except String Unit
  readMem : Except String Unit
  writeMem : WriteIo
  createMetaDir : Except String Unit
  writeMeta : WriteIo

structure VmState where
  control : VcpuControl
  shutdownRequested : Bool
  disk : Disk

inductive Response
  | snapshotComplete (path : String)
  | ack
  | error (message : String)

def metadataPath (dir : String) : String := Host.joinText dir "template.json"

def Disk.write (disk : Disk) (path : String) (data : List UInt8) : Disk := Function.update disk path (some data)

def writeFile (disk : Disk) (path : String) (data : List UInt8) : WriteIo → Bool × Disk
  | .done => (true, disk.write path data)
  | .notOpened => (false, disk)
  | .stops count =>
    if count < data.length then (false, disk.write path (data.take count)) else (true, disk.write path data)

section Save

variable (host : SnapshotHost)

def load (disk : Disk) (templateDir : String) (verify : Bool) : Except String TemplateSnapshot :=
  match disk (metadataPath templateDir) with
  | none => .error ("Failed to read template metadata: " ++ metadataPath templateDir)
  | some metaData =>
    match host.parseTemplate metaData with
    | none => .error "Failed to parse template metadata"
    | some snapshot =>
      match disk snapshot.memoryFile with
      | none => .error ("Template memory file not found: " ++ snapshot.memoryFile)
      | some memData =>
        let actualHex := hashHex (host.sha256 memData)
        if verify ∧ actualHex ≠ snapshot.memoryHash then
          .error ("Template integrity check failed: expected " ++ snapshot.memoryHash ++ ", got " ++ actualHex)
        else .ok snapshot

def deviceStates (vm : PausedVm) : DeviceStates where
  serial := some vm.serial
  transports := vm.transports.map (·.getD [])
  irqchip := (vm.vmFd.map fun fd => [0, 1, 2].filterMap fd.getIrqchip).getD []
  pit := (vm.vmFd.bind VmFd.getPit2).getD []

def templateOf (vm : PausedVm) (outputDir : String) : TemplateSnapshot where
  memoryFile := SnapshotHost.memoryPath outputDir
  vcpuStates := vm.capturedStates.map (·.getD .empty)
  deviceStates := deviceStates vm
  memorySize := vm.memory.length
  runtimeType := "snapshot"
  memoryHash := hashHex (host.sha256 vm.memory)
  blockDevice := vm.blockDevice
  clockNs := (vm.vmFd.bind VmFd.getClock).getD 0
  overlayPath := vm.overlayPath
  guestIp := vm.guestIp
  tag := none
  parentTag := none
  chainDepth := 0
  snapshotType := "full"

def saveMetadata (io : SaveIo) (snapshot : TemplateSnapshot) (dir : String) (disk : Disk) :
    Except String Unit × Disk :=
  match io.createMetaDir with
  | .error _ => (.error ("Failed to create template dir: " ++ dir), disk)
  | .ok () =>
    match host.renderTemplate snapshot with
    | none => (.error "Failed to serialize template metadata", disk)
    | some json =>
      match writeFile disk (metadataPath dir) json io.writeMeta with
      | (false, disk) => (.error ("Failed to write template metadata: " ++ metadataPath dir), disk)
      | (true, disk) => (.ok (), disk)

def saveTemplate (io : SaveIo) (vm : PausedVm) (dir : String) (disk : Disk) : Except String Unit × Disk :=
  match io.createDir with
  | .error _ => (.error ("Failed to create output dir: " ++ dir), disk)
  | .ok () =>
    match io.readMem with
    | .error e => (.error e, disk)
    | .ok () =>
      match writeFile disk (SnapshotHost.memoryPath dir) vm.memory io.writeMem with
      | (false, disk) => (.error ("Failed to write memory dump: " ++ SnapshotHost.memoryPath dir), disk)
      | (true, disk) => saveMetadata host io (templateOf host vm dir) dir disk

def handleSnapshot (io : SaveIo) (vm : PausedVm) (outputPath : String) (s : VmState) : Response × VmState :=
  match (pauseVcpus io.pause).exec s.control with
  | (.error message, control) => (.error message, { s with control })
  | (.ok (), control) =>
    match saveTemplate host io vm outputPath s.disk with
    | (.error e, disk) => (.error ("Snapshot failed: " ++ e), { s with control, disk })
    | (.ok (), disk) => (.snapshotComplete outputPath, { s with control, disk })

def handleShutdown (s : VmState) : Response × VmState :=
  let s := { s with shutdownRequested := true }
  if s.control.pauseRequested then (.ack, { s with control := (resumeVcpus.exec s.control).2 }) else (.ack, s)

structure ApiError where
  status : Nat
  message : String

def ApiError.notFound (message : String) : ApiError := ⟨404, message⟩

def ApiError.internal (message : String) : ApiError := ⟨500, message⟩

/-- The JSON of the two answers: the path of a snapshot, and `ok`. -/
inductive Payload
  | path (path : String)
  | ok

def responseToJson : Response → Except ApiError Payload
  | .snapshotComplete path => .ok (.path path)
  | .ack => .ok .ok
  | .error message => .error (.internal message)

structure HttpState where
  authToken : Option String
  vms : List (String × Nat)

def stripPrefix (text start : String) : Option String :=
  if start.toList.isPrefixOf text.toList then some (String.ofList (text.toList.drop start.length)) else none

def extractBearer (header : Option String) : Option String :=
  header.bind fun text => (stripPrefix text "Bearer ").or (stripPrefix text "bearer ")

def subtleEq (a b : String) : Bool :=
  let ab := a.toUTF8.toList
  let bb := b.toUTF8.toList
  ab.length == bb.length && (ab.zip bb).foldl (fun diff xy => diff ||| (xy.1 ^^^ xy.2)) 0 == 0

def requireAuth (token : Option String) (expected : String) : Except ApiError Unit :=
  match token with
  | some t => if subtleEq t expected then .ok () else .error ⟨401, "missing or invalid bearer token"⟩
  | none => .error ⟨401, "missing or invalid bearer token"⟩

def checkAuth (state : HttpState) (header : Option String) : Except ApiError Unit :=
  match state.authToken with
  | some expected => requireAuth (extractBearer header) expected
  | none => .ok ()

def lookupPid (state : HttpState) (vmId : String) : Except ApiError Nat :=
  match state.vms.lookup vmId with
  | some pid => .ok pid
  | none => .error (.notFound ("VM not found: " ++ vmId))

def perVmSocket (pid : Nat) : String := "/tmp/clone-" ++ toString pid ++ ".sock"

inductive Forward
  | connect (e : String)
  | setReadTimeout (e : String)
  | setWriteTimeout (e : String)
  | writeFrame (e : String)
  | readFrame (handled : Bool) (e : String)
  | answered
  deriving DecidableEq

def Forward.handled : Forward → Bool
  | .answered => true
  | .readFrame handled _ => handled
  | _ => false

def Forward.result (socket : String) (response : Response) : Forward → Except ApiError Response
  | .connect e => .error (.internal ("connect " ++ socket ++ ": " ++ e))
  | .setReadTimeout e => .error (.internal ("set_read_timeout: " ++ e))
  | .setWriteTimeout e => .error (.internal ("set_write_timeout: " ++ e))
  | .writeFrame e => .error (.internal ("write_frame: " ++ e))
  | .readFrame _ e => .error (.internal ("read_frame: " ++ e))
  | .answered => .ok response

def forwardRequestSync (socket : String) (way : Forward) (handle : VmState → Response × VmState) (s : VmState) :
    Except ApiError Response × VmState :=
  (way.result socket (handle s).1, if way.handled then (handle s).2 else s)

/-- The `.await` at which the client is found to be gone. The handler ends there, but a request that is being
forwarded is not called back. -/
inductive Await
  | lookup | snapshot | shutdown
  deriving DecidableEq

structure SaveRequest where
  header : Option String
  id : String
  outputPath : String
  gone : Option Await
  snapshot : Forward
  shutdown : Forward

def saveVm (state : HttpState) (io : SaveIo) (vm : PausedVm) (req : SaveRequest) (s : VmState) :
    Option (Except ApiError Payload) × VmState :=
  match checkAuth state req.header with
  | .error e => (some (.error e), s)
  | .ok () =>
    if req.gone = some .lookup then (none, s)
    else match lookupPid state req.id with
    | .error e => (some (.error e), s)
    | .ok pid =>
      match forwardRequestSync (perVmSocket pid) req.snapshot (handleSnapshot host io vm req.outputPath) s with
      | (snapResp, s) =>
        if req.gone = some .snapshot then (none, s)
        else match snapResp with
        | .error e => (some (.error e), s)
        | .ok snapResp =>
          match forwardRequestSync (perVmSocket pid) req.shutdown handleShutdown s with
          | (_, s) => if req.gone = some .shutdown then (none, s) else (some (responseToJson snapResp), s)

structure Describes (vm : PausedVm) (dir : String) (snapshot : TemplateSnapshot) : Prop where
  memoryFile : snapshot.memoryFile = SnapshotHost.memoryPath dir
  memorySize : snapshot.memorySize = vm.memory.length
  memoryHash : snapshot.memoryHash = hashHex (host.sha256 vm.memory)
  vcpus : snapshot.vcpuStates.map some = vm.capturedStates
  transports : snapshot.deviceStates.transports.map some = vm.transports
  serial : snapshot.deviceStates.serial = some vm.serial
  kernel : ∃ fd, vm.vmFd = some fd ∧ snapshot.deviceStates.irqchip.map some = [0, 1, 2].map fd.getIrqchip ∧
    fd.getPit2 = some snapshot.deviceStates.pit ∧ fd.getClock = some snapshot.clockNs
  blockDevice : snapshot.blockDevice = vm.blockDevice
  overlayPath : snapshot.overlayPath = vm.overlayPath
  guestIp : snapshot.guestIp = vm.guestIp

def SavedAt (disk : Disk) (vm : PausedVm) (dir : String) : Prop :=
  ∃ snapshot, load host disk dir true = .ok snapshot ∧ disk snapshot.memoryFile = some vm.memory ∧
    Describes host vm dir snapshot

def VmState.Runs (s : VmState) : Prop := s.control.Running ∧ s.shutdownRequested = false

def VmState.ShutDown (s : VmState) : Prop := s.control.Running ∧ s.shutdownRequested = true

def NotLost (s : VmState) (vm : PausedVm) (dir : String) : Prop := s.Runs ∨ (s.ShutDown ∧ SavedAt host s.disk vm dir)

inductive Stage
  | beforeMemory | inMemory | beforeMetadata | inMetadata | done
  deriving DecidableEq

def WriteIo.stage (before inside after : Stage) (length : Nat) : WriteIo → Stage
  | .done => after
  | .notOpened => before
  | .stops count => if count < length then inside else after

def metadataStage (io : SaveIo) (vm : PausedVm) (dir : String) : Stage :=
  match io.createMetaDir, host.renderTemplate (templateOf host vm dir) with
  | .ok (), some json => io.writeMeta.stage .beforeMetadata .inMetadata .done json.length
  | _, _ => .beforeMetadata

def stage (io : SaveIo) (vm : PausedVm) (dir : String) : Stage :=
  match io.pause, io.createDir, io.readMem with
  | .ok (), .ok (), .ok () =>
    io.writeMem.stage .beforeMemory .inMemory (metadataStage host io vm dir) vm.memory.length
  | _, _, _ => .beforeMemory

structure PausedVm.Full (vm : PausedVm) : Prop where
  vcpus : ∀ state ∈ vm.capturedStates, state ≠ none
  transports : ∀ state ∈ vm.transports, state ≠ none
  kernel : ∃ fd, vm.vmFd = some fd ∧ (∀ id ∈ [0, 1, 2], fd.getIrqchip id ≠ none) ∧ fd.getPit2 ≠ none ∧
    fd.getClock ≠ none

def DescribedIn (disk : Disk) (vm : PausedVm) (dir : String) : Prop :=
  ∃ data snapshot, disk (metadataPath dir) = some data ∧ host.parseTemplate data = some snapshot ∧
    Describes host vm dir snapshot

def Stage.Kept (disk : Disk) (vm : PausedVm) (dir : String) : Stage → Prop
  | .done => vm.Full
  | .beforeMetadata => DescribedIn host disk vm dir
  | .beforeMemory => disk (SnapshotHost.memoryPath dir) = some vm.memory ∧ DescribedIn host disk vm dir
  | .inMemory | .inMetadata => False

def Snapshotted (io : SaveIo) (disk : Disk) (vm : PausedVm) (dir : String) : Prop :=
  (stage host io vm dir).Kept host disk vm dir

def Forwards (state : HttpState) (req : SaveRequest) : Prop :=
  checkAuth state req.header = .ok () ∧ req.gone ≠ some .lookup ∧ ∃ pid, state.vms.lookup req.id = some pid

def HandlesSnapshot (state : HttpState) (req : SaveRequest) : Prop := Forwards state req ∧ req.snapshot.handled = true

def HandlesShutdown (state : HttpState) (req : SaveRequest) : Prop :=
  Forwards state req ∧ req.snapshot = .answered ∧ req.gone ≠ some .snapshot ∧ req.shutdown.handled = true

structure Serde : Prop where
  roundTrips : RoundTrips host
  breaksOff : ∀ snapshot json count, host.renderTemplate snapshot = some json → count < json.length →
    host.parseTemplate (json.take count) = none

end Save

section Files

variable {host : SnapshotHost} {disk : Disk} {vm : PausedVm} {dir : String} {io : SaveIo}

@[simp] theorem write_same (disk : Disk) (path : String) (data : List UInt8) : disk.write path data path = some data :=
  Function.update_self _ _ _

theorem write_other {path path' : String} (h : path' ≠ path) (data : List UInt8) :
    disk.write path data path' = disk path' := Function.update_of_ne h _ _

theorem metadataPath_ne (dir : String) : metadataPath dir ≠ SnapshotHost.memoryPath dir := by
  have hne : ∀ base : String, base ++ "template.json" ≠ base ++ "memory.raw" := by
    intro base heq
    have hlist := congrArg String.toList heq
    rw [String.toList_append, String.toList_append] at hlist
    exact absurd (List.append_cancel_left hlist) (by simp)
  have htemplate : "template.json".toList.head? ≠ some '/' := by simp
  have hmemory : "memory.raw".toList.head? ≠ some '/' := by simp
  rw [metadataPath, SnapshotHost.memoryPath, Host.joinText, Host.joinText, if_neg htemplate, if_neg hmemory]
  split
  · exact hne dir
  · exact hne (dir ++ "/")

theorem load_eq_ok {templateDir : String} {verify : Bool} {snapshot : TemplateSnapshot}
    (h : load host disk templateDir verify = .ok snapshot) :
    ∃ data, disk (metadataPath templateDir) = some data ∧ host.parseTemplate data = some snapshot := by
  unfold load at h
  split at h
  · cases h
  · rename_i data hdata
    split at h
    · cases h
    · rename_i parsed hparse
      split at h
      · cases h
      · dsimp only at h
        split at h
        · cases h
        · cases h
          exact ⟨data, hdata, hparse⟩

theorem savedAt_iff : SavedAt host disk vm dir ↔
    disk (SnapshotHost.memoryPath dir) = some vm.memory ∧ DescribedIn host disk vm dir := by
  constructor
  · rintro ⟨snapshot, hload, hmem, hdesc⟩
    obtain ⟨data, hdata, hparse⟩ := load_eq_ok hload
    exact ⟨hdesc.memoryFile ▸ hmem, data, snapshot, hdata, hparse, hdesc⟩
  · rintro ⟨hmem, data, snapshot, hdata, hparse, hdesc⟩
    refine ⟨snapshot, ?_, by rw [hdesc.memoryFile, hmem], hdesc⟩
    rw [load, hdata]
    dsimp only
    rw [hparse]
    dsimp only
    rw [hdesc.memoryFile, hmem]
    dsimp only
    rw [if_neg]
    rintro ⟨-, hhash⟩
    exact hhash hdesc.memoryHash.symm

theorem map_some_getD {α : Type} {xs : List (Option α)} {d : α} :
    (xs.map (·.getD d)).map some = xs ↔ ∀ x ∈ xs, x ≠ none := by
  induction xs with
  | nil => simp
  | cons x xs ih =>
    rw [List.map_cons, List.map_cons, List.cons.injEq, ih, List.forall_mem_cons]
    refine and_congr_left fun _ => ?_
    cases x with
    | none => simp
    | some a => simp

theorem map_some_filterMap {α β : Type} {f : α → Option β} {xs : List α} :
    (xs.filterMap f).map some = xs.map f ↔ ∀ x ∈ xs, f x ≠ none := by
  induction xs with
  | nil => simp
  | cons x xs ih =>
    rw [List.filterMap_cons, List.map_cons, List.forall_mem_cons]
    cases hx : f x with
    | none =>
      refine iff_of_false (fun h => ?_) fun h => h.1 rfl
      have hmem : none ∈ (xs.filterMap f).map some := h ▸ List.mem_cons_self
      obtain ⟨b, -, hb⟩ := List.mem_map.mp hmem
      cases hb
    | some b =>
      dsimp only
      rw [List.map_cons, List.cons.injEq, ih]
      exact and_congr_left fun _ => by simp

theorem describes_templateOf : Describes host vm dir (templateOf host vm dir) ↔ vm.Full := by
  constructor
  · intro h
    refine ⟨map_some_getD.mp h.vcpus, map_some_getD.mp h.transports, ?_⟩
    obtain ⟨fd, hfd, hirqchip, hpit, hclock⟩ := h.kernel
    refine ⟨fd, hfd, map_some_filterMap.mp ?_, ?_, ?_⟩
    · rw [← hirqchip, templateOf, deviceStates, hfd]
      rfl
    · rw [hpit]
      exact Option.some_ne_none _
    · rw [hclock]
      exact Option.some_ne_none _
  · intro h
    obtain ⟨fd, hfd, hirqchip, hpit, hclock⟩ := h.kernel
    obtain ⟨pit, hpit⟩ := Option.ne_none_iff_exists'.mp hpit
    obtain ⟨clock, hclock⟩ := Option.ne_none_iff_exists'.mp hclock
    refine ⟨rfl, rfl, rfl, map_some_getD.mpr h.vcpus, map_some_getD.mpr h.transports, rfl, ?_, rfl, rfl, rfl⟩
    refine ⟨fd, hfd, ?_, ?_, ?_⟩
    · rw [← map_some_filterMap.mpr hirqchip, templateOf, deviceStates, hfd]
      rfl
    · rw [hpit, templateOf, deviceStates, hfd]
      simp [hpit]
    · rw [hclock, templateOf, hfd]
      simp [hclock]

end Files

section Stages

variable {host : SnapshotHost} {disk : Disk} {vm : PausedVm} {dir : String} {io : SaveIo}

theorem describedIn_congr {disk' : Disk} (h : disk' (metadataPath dir) = disk (metadataPath dir)) :
    DescribedIn host disk' vm dir ↔ DescribedIn host disk vm dir := by
  rw [DescribedIn, DescribedIn, h]

theorem kept_congr {disk' : Disk} {st : Stage}
    (h : DescribedIn host disk' vm dir ↔ DescribedIn host disk vm dir) (hst : st ≠ .beforeMemory) :
    st.Kept host disk' vm dir ↔ st.Kept host disk vm dir := by
  cases st with
  | beforeMemory => exact absurd rfl hst
  | beforeMetadata => exact h
  | inMemory => exact Iff.rfl
  | inMetadata => exact Iff.rfl
  | done => exact Iff.rfl

theorem stage_ne {before inside after st : Stage} {length : Nat} (write : WriteIo) (hbefore : before ≠ st)
    (hinside : inside ≠ st) (hafter : after ≠ st) : write.stage before inside after length ≠ st := by
  cases write with
  | done => exact hafter
  | notOpened => exact hbefore
  | stops count =>
    rw [WriteIo.stage]
    split
    · exact hinside
    · exact hafter

theorem metadataStage_ne : metadataStage host io vm dir ≠ .beforeMemory := by
  unfold metadataStage
  split
  · exact stage_ne _ (by decide) (by decide) (by decide)
  · decide

theorem stage_of_done (hpause : io.pause = .ok ()) (hdir : io.createDir = .ok ()) (hread : io.readMem = .ok ())
    (hwrite : io.writeMem = .done) : stage host io vm dir = metadataStage host io vm dir := by
  rw [stage, hpause, hdir, hread, hwrite]
  rfl

theorem saveMetadata_saved (hserde : Serde host) (hmem : disk (SnapshotHost.memoryPath dir) = some vm.memory) :
    SavedAt host (saveMetadata host io (templateOf host vm dir) dir disk).2 vm dir ↔
      (metadataStage host io vm dir).Kept host disk vm dir := by
  have hbefore : SavedAt host disk vm dir ↔ DescribedIn host disk vm dir := savedAt_iff.trans (and_iff_right hmem)
  have hother := @write_other disk _ _ (metadataPath_ne dir).symm
  unfold saveMetadata metadataStage
  cases io.createMetaDir with
  | error e => exact hbefore
  | ok =>
    cases hrender : host.renderTemplate (templateOf host vm dir) with
    | none => exact hbefore
    | some json =>
      have hdone : SavedAt host (disk.write (metadataPath dir) json) vm dir ↔ vm.Full := by
        rw [savedAt_iff, hother, and_iff_right hmem, DescribedIn, write_same, ← @describes_templateOf host vm dir]
        have hparse := hserde.roundTrips _ _ hrender
        constructor
        · rintro ⟨data, snapshot, hdata, hread, hdesc⟩
          cases hdata
          rw [hparse, Option.some_inj] at hread
          exact hread ▸ hdesc
        · intro hdesc
          exact ⟨json, _, rfl, hparse, hdesc⟩
      cases hwrite : io.writeMeta with
      | done => exact hdone
      | notOpened => exact hbefore
      | stops count =>
        dsimp only [writeFile, WriteIo.stage]
        by_cases hcount : count < json.length
        · rw [if_pos hcount, if_pos hcount]
          dsimp only
          rw [savedAt_iff]
          refine iff_of_false ?_ id
          rintro ⟨-, data, snapshot, hdata, hread, -⟩
          rw [write_same] at hdata
          cases hdata
          rw [hserde.breaksOff _ _ _ hrender hcount] at hread
          cases hread
        · rw [if_neg hcount, if_neg hcount]
          exact hdone

theorem saveTemplate_saved (hserde : Serde host) (hpause : io.pause = .ok ()) :
    SavedAt host (saveTemplate host io vm dir disk).2 vm dir ↔ Snapshotted host io disk vm dir := by
  have hbefore := @savedAt_iff host disk vm dir
  unfold saveTemplate Snapshotted stage
  rw [hpause]
  cases io.createDir with
  | error e => exact hbefore
  | ok =>
    cases io.readMem with
    | error e => exact hbefore
    | ok =>
      have hwritten : SavedAt host (saveMetadata host io (templateOf host vm dir) dir
          (disk.write (SnapshotHost.memoryPath dir) vm.memory)).2 vm dir ↔
          (metadataStage host io vm dir).Kept host disk vm dir := by
        rw [saveMetadata_saved hserde (write_same _ _ _)]
        exact kept_congr (describedIn_congr (write_other (metadataPath_ne dir) _)) metadataStage_ne
      cases hwrite : io.writeMem with
      | done => exact hwritten
      | notOpened => exact hbefore
      | stops count =>
        dsimp only [writeFile, WriteIo.stage]
        by_cases hcount : count < vm.memory.length
        · rw [if_pos hcount, if_pos hcount]
          dsimp only
          rw [savedAt_iff, write_same]
          refine iff_of_false ?_ id
          rintro ⟨hmem, -⟩
          have hlength := congrArg List.length (Option.some.inj hmem)
          rw [List.length_take] at hlength
          omega
        · rw [if_neg hcount, if_neg hcount]
          exact hwritten

end Stages

section Save

variable {host : SnapshotHost} {vm : PausedVm} {io : SaveIo} {state : HttpState} {req : SaveRequest} {s : VmState}

theorem handleSnapshot_control (host : SnapshotHost) (io : SaveIo) (vm : PausedVm) (dir : String) (s : VmState) :
    (handleSnapshot host io vm dir s).2.control = ((pauseVcpus io.pause).exec s.control).2 ∧
      (handleSnapshot host io vm dir s).2.shutdownRequested = s.shutdownRequested := by
  unfold handleSnapshot
  cases hpause : (pauseVcpus io.pause).exec s.control with
  | mk result control =>
    cases result with
    | error message => exact ⟨rfl, rfl⟩
    | ok =>
      dsimp only
      cases hsave : saveTemplate host io vm dir s.disk with
      | mk saved disk =>
        cases saved with
        | error e => exact ⟨rfl, rfl⟩
        | ok => exact ⟨rfl, rfl⟩

theorem handleSnapshot_runs (hs : s.Runs) (dir : String) :
    (handleSnapshot host io vm dir s).2.Runs ↔ io.pause ≠ .ok () := by
  obtain ⟨hcontrol, hshutdown⟩ := handleSnapshot_control host io vm dir s
  rw [VmState.Runs, hcontrol, hshutdown, and_iff_left hs.2]
  cases io.pause with
  | error message => exact iff_of_true ⟨rfl, rfl⟩ (by simp)
  | ok =>
    refine iff_of_false (fun h => ?_) fun h => h rfl
    cases h.1

theorem handleSnapshot_saved (hserde : Serde host) (dir : String) :
    SavedAt host (handleSnapshot host io vm dir s).2.disk vm dir ↔ Snapshotted host io s.disk vm dir := by
  unfold handleSnapshot
  cases hpause : io.pause with
  | error message =>
    have hstage : stage host io vm dir = .beforeMemory := by rw [stage, hpause]
    rw [Snapshotted, hstage]
    exact savedAt_iff
  | ok =>
    rw [← saveTemplate_saved hserde hpause]
    have hexec : (pauseVcpus (.ok ())).exec s.control = (.ok (), ⟨true, false⟩) := rfl
    rw [hexec]
    dsimp only
    cases saveTemplate host io vm dir s.disk with
    | mk saved disk =>
      cases saved with
      | error e => exact Iff.rfl
      | ok => exact Iff.rfl

theorem handleShutdown_shutDown (s : VmState) (h : s.control.Running ∨ s.control.pauseRequested = true) :
    (handleShutdown s).2.ShutDown := by
  unfold handleShutdown
  dsimp only
  split
  · exact ⟨⟨rfl, rfl⟩, rfl⟩
  · rename_i hpaused
    exact ⟨h.resolve_right hpaused, rfl⟩

theorem handleShutdown_disk (s : VmState) : (handleShutdown s).2.disk = s.disk := by
  unfold handleShutdown
  dsimp only
  split
  · rfl
  · rfl

theorem not_shutDown_of_not_requested (h : s.shutdownRequested = false) : ¬ s.ShutDown := by
  rintro ⟨-, hrequested⟩
  rw [h] at hrequested
  cases hrequested

theorem HandlesShutdown.handlesSnapshot (h : HandlesShutdown state req) : HandlesSnapshot state req :=
  ⟨h.1, by rw [h.2.1, Forward.handled]⟩

theorem result_eq_error {socket : String} {response : Response} {way : Forward} (h : way ≠ .answered) :
    ∃ e, way.result socket response = .error e := by
  cases way with
  | answered => exact absurd rfl h
  | _ => exact ⟨_, rfl⟩

theorem saveVm_eq_self (h : ¬ Forwards state req) : (saveVm host state io vm req s).2 = s := by
  unfold saveVm
  split
  · rfl
  · rename_i hauth
    split
    · rfl
    · rename_i hgone
      split
      · rfl
      · rename_i pid hpid
        refine absurd ⟨hauth, hgone, pid, ?_⟩ h
        unfold lookupPid at hpid
        split at hpid
        · cases hpid
          assumption
        · cases hpid

theorem saveVm_forwards (h : Forwards state req) : (saveVm host state io vm req s).2 =
    let s := if req.snapshot.handled then (handleSnapshot host io vm req.outputPath s).2 else s
    if req.snapshot = .answered ∧ req.gone ≠ some .snapshot ∧ req.shutdown.handled = true then (handleShutdown s).2
    else s := by
  obtain ⟨hauth, hgone, pid, hpid⟩ := h
  have hlookup : lookupPid state req.id = .ok pid := by rw [lookupPid, hpid]
  rw [saveVm, hauth]
  dsimp only
  rw [if_neg hgone, hlookup]
  dsimp only [forwardRequestSync]
  generalize (if req.snapshot.handled = true then (handleSnapshot host io vm req.outputPath s).2 else s) = t
  generalize (handleSnapshot host io vm req.outputPath s).1 = response
  by_cases hleft : req.gone = some .snapshot
  · rw [if_pos hleft, if_neg fun h : _ ∧ _ => h.2.1 hleft]
  · rw [if_neg hleft]
    by_cases hanswered : req.snapshot = .answered
    · have hresult : req.snapshot.result (perVmSocket pid) response = .ok response := by rw [hanswered, Forward.result]
      have hshutdown : (req.snapshot = .answered ∧ req.gone ≠ some .snapshot ∧ req.shutdown.handled = true) ↔
          req.shutdown.handled = true := by rw [and_iff_right hanswered, and_iff_right hleft]
      rw [hresult]
      simp only [hshutdown]
      split
      · rfl
      · rfl
    · obtain ⟨e, he⟩ := @result_eq_error (perVmSocket pid) response _ hanswered
      rw [he, if_neg fun h : _ ∧ _ => hanswered h.1]

theorem saveVm_gone (h : Forwards state req) (hhandled : req.snapshot.handled = true)
    (hgone : req.gone = some .snapshot) :
    (saveVm host state io vm req s).2 = (handleSnapshot host io vm req.outputPath s).2 := by
  rw [saveVm_forwards h]
  dsimp only
  rw [if_neg fun h : _ ∧ _ => h.2.1 hgone, if_pos hhandled]

/-- After a save the VM is not lost exactly if its snapshot was made whenever it is shut down, and it was not paused
whenever it is not. -/
theorem saveVm_notLost_iff (hserde : Serde host) (hs : s.Runs) :
    NotLost host (saveVm host state io vm req s).2 vm req.outputPath ↔
      (HandlesShutdown state req → Snapshotted host io s.disk vm req.outputPath) ∧
      (HandlesSnapshot state req → ¬ HandlesShutdown state req → io.pause ≠ .ok ()) := by
  by_cases hforwards : Forwards state req
  · rw [saveVm_forwards hforwards]
    dsimp only
    by_cases hshutdown : HandlesShutdown state req
    · have hhandled := hshutdown.handlesSnapshot.2
      rw [if_pos hhandled, if_pos hshutdown.2]
      have hcontrol : (handleSnapshot host io vm req.outputPath s).2.control.Running ∨
          (handleSnapshot host io vm req.outputPath s).2.control.pauseRequested = true := by
        rw [(handleSnapshot_control host io vm req.outputPath s).1]
        cases io.pause with
        | error message => exact .inl ⟨rfl, rfl⟩
        | ok => exact .inr rfl
      have hdown := handleShutdown_shutDown _ hcontrol
      rw [NotLost, or_iff_right fun h => not_shutDown_of_not_requested h.2 hdown, and_iff_right hdown,
        handleShutdown_disk, handleSnapshot_saved hserde]
      exact ⟨fun h => ⟨fun _ => h, fun _ hnot => absurd hshutdown hnot⟩, fun h => h.1 hshutdown⟩
    · rw [if_neg fun h => hshutdown ⟨hforwards, h⟩]
      have hclear : ∀ t : VmState, t.shutdownRequested = false →
          (NotLost host t vm req.outputPath ↔ t.Runs) := fun t ht =>
        or_iff_left fun h => not_shutDown_of_not_requested ht h.1
      by_cases hhandled : req.snapshot.handled = true
      · have hflag := (handleSnapshot_control host io vm req.outputPath s).2.trans hs.2
        rw [if_pos hhandled, hclear _ hflag, handleSnapshot_runs hs]
        exact ⟨fun h => ⟨fun h' => absurd h' hshutdown, fun _ _ => h⟩, fun h => h.2 ⟨hforwards, hhandled⟩ hshutdown⟩
      · rw [if_neg hhandled, hclear _ hs.2]
        exact iff_of_true hs ⟨fun h => absurd h hshutdown, fun h => absurd h.2 hhandled⟩
  · rw [saveVm_eq_self hforwards]
    exact iff_of_true (.inl hs) ⟨fun h => absurd h.1 hforwards, fun h => absurd h.1 hforwards⟩

end Save

def savedVm : PausedVm where
  memory := dirtyPage
  capturedStates := [some {}]
  transports := []
  serial := []
  vmFd := some ⟨fun _ => some [], some [], some 0⟩
  blockDevice := none
  overlayPath := none
  guestIp := none

def savedTemplate : TemplateSnapshot :=
  { memoryFile := "/snap/memory.raw", vcpuStates := [{}],
    deviceStates := { serial := some [], irqchip := [[], [], []] }, memorySize := 4096, runtimeType := "snapshot",
    memoryHash := hashHex dirtyPageHash, blockDevice := none, clockNs := 0, overlayPath := none, guestIp := none,
    tag := none, parentTag := none, chainDepth := 0, snapshotType := "full" }

def savedJson : List UInt8 := asciiBytes
  ("\x7b\n  \"memory_file\": \"/snap/memory.raw\",\n  \"vcpu_states\": [\n    \x7b\n" ++
    "      \"regs\": [],\n      \"sregs\": [],\n      \"lapic\": [],\n      \"fpu\": [],\n" ++
    "      \"xsave\": [],\n      \"xcrs\": [],\n      \"mp_state\": [],\n      \"vcpu_events\": [],\n" ++
    "      \"debug_regs\": [],\n      \"msrs\": [],\n      \"tsc_khz\": 0,\n      \"cpuid\": []\n" ++
    "    \x7d\n  ],\n  \"device_states\": \x7b\n    \"serial\": [],\n    \"virtio_configs\": \x7b\x7d,\n" ++
    "    \"transports\": [],\n    \"irqchip\": [\n      [],\n      [],\n      []\n    ],\n" ++
    "    \"pit\": []\n  \x7d,\n  \"memory_size\": 4096,\n  \"runtime_type\": \"snapshot\",\n" ++
    "  \"memory_hash\": \"c9ac7b0624824f844f6c7f3d50fab9741a8914e878467e8daaedca143a34d90b\",\n" ++
    "  \"block_device\": null,\n  \"clock_ns\": 0,\n  \"overlay_path\": null,\n  \"guest_ip\": null,\n" ++
    "  \"tag\": null,\n  \"parent_tag\": null,\n  \"chain_depth\": 0,\n  \"snapshot_type\": \"full\"\n" ++
    "\x7d")

def savedHost : SnapshotHost where
  cwd := []
  parseTemplate data := if data = savedJson then some savedTemplate else none
  parseIncremental _ := none
  renderTemplate snapshot := if snapshot = savedTemplate then some savedJson else none
  sha256 data := if data = dirtyPage then dirtyPageHash else []

def savedState : VmState := ⟨running, false, fun _ => none⟩

def savedHttp : HttpState := ⟨none, [("vm-1", 4242)]⟩

def goodIo : SaveIo := ⟨.ok (), .ok (), .ok (), .done, .ok (), .done⟩

def deniedIo : SaveIo := { goodIo with createDir := .error "Permission denied (os error 13)" }

def saveRequest : SaveRequest := ⟨none, "vm-1", "/snap", none, .answered, .answered⟩

theorem savedHost_serde : Serde savedHost where
  roundTrips := by
    intro snapshot json hrender
    simp only [savedHost] at hrender ⊢
    split at hrender
    · obtain rfl := Option.some.inj hrender
      rw [if_pos rfl]
      exact congrArg some (Eq.symm ‹_›)
    · cases hrender
  breaksOff := by
    intro snapshot json count hrender hcount
    simp only [savedHost] at hrender ⊢
    split at hrender
    · obtain rfl := Option.some.inj hrender
      refine if_neg fun heq => ?_
      have hlength := congrArg List.length heq
      rw [List.length_take] at hlength
      omega
    · cases hrender

theorem savedTemplate_eq : templateOf savedHost savedVm "/snap" = savedTemplate := by
  have hhash : savedHost.sha256 dirtyPage = dirtyPageHash := by simp only [savedHost, if_true]
  have hpath : SnapshotHost.memoryPath "/snap" = "/snap/memory.raw" := by decide
  rw [templateOf, hpath]
  simp only [savedVm, hhash, dirtyPage_length]
  rfl

theorem saveRequest_handled : HandlesShutdown savedHttp saveRequest :=
  ⟨⟨rfl, by decide, 4242, by decide⟩, rfl, by decide, rfl⟩

theorem saveVm_kept :
    NotLost savedHost (saveVm savedHost savedHttp goodIo savedVm saveRequest savedState).2 savedVm "/snap" := by
  refine (saveVm_notLost_iff savedHost_serde ⟨⟨rfl, rfl⟩, rfl⟩).mpr
    ⟨fun _ => ?_, fun _ hnot => absurd saveRequest_handled hnot⟩
  have hrender : savedHost.renderTemplate (templateOf savedHost savedVm "/snap") = some savedJson := by
    rw [savedTemplate_eq]
    simp only [savedHost, if_true]
  have hmeta : metadataStage savedHost goodIo savedVm "/snap" = .done := by
    rw [metadataStage, hrender]
    rfl
  have hstage : stage savedHost goodIo savedVm "/snap" = .done := (stage_of_done rfl rfl rfl rfl).trans hmeta
  change Stage.Kept savedHost savedState.disk savedVm "/snap" (stage savedHost goodIo savedVm "/snap")
  rw [hstage]
  refine ⟨by decide, by decide, _, rfl, by decide, by decide, by decide⟩

theorem saveVm_loses : savedState.Runs ∧
    (saveVm savedHost savedHttp deniedIo savedVm saveRequest savedState).1 =
      some (.error (.internal "Snapshot failed: Failed to create output dir: /snap")) ∧
    (saveVm savedHost savedHttp deniedIo savedVm saveRequest savedState).2.ShutDown ∧
    (∀ verify, load savedHost (saveVm savedHost savedHttp deniedIo savedVm saveRequest savedState).2.disk "/snap"
      verify = .error "Failed to read template metadata: /snap/template.json") ∧
    ¬ NotLost savedHost (saveVm savedHost savedHttp deniedIo savedVm saveRequest savedState).2 savedVm "/snap" ∧
    (saveVm savedHost savedHttp goodIo savedVm { saveRequest with gone := some .snapshot } savedState).2.control =
      ⟨true, false⟩ ∧
    ¬ NotLost savedHost (saveVm savedHost savedHttp goodIo savedVm { saveRequest with gone := some .snapshot }
      savedState).2 savedVm "/snap" := by
  have hdown : (saveVm savedHost savedHttp deniedIo savedVm saveRequest savedState).2.ShutDown := ⟨⟨rfl, rfl⟩, rfl⟩
  have hload : ∀ verify, load savedHost
      (saveVm savedHost savedHttp deniedIo savedVm saveRequest savedState).2.disk "/snap" verify =
      .error "Failed to read template metadata: /snap/template.json" := by
    intro verify
    have hdisk : (saveVm savedHost savedHttp deniedIo savedVm saveRequest savedState).2.disk =
        savedState.disk := rfl
    have hpath : metadataPath "/snap" = "/snap/template.json" := by decide
    rw [load, hdisk, hpath]
    rfl
  have hpaused : (saveVm savedHost savedHttp goodIo savedVm { saveRequest with gone := some .snapshot }
      savedState).2 = (handleSnapshot savedHost goodIo savedVm "/snap" savedState).2 :=
    saveVm_gone ⟨rfl, by decide, saveRequest_handled.1.2.2⟩ rfl rfl
  have hcontrol := handleSnapshot_control savedHost goodIo savedVm "/snap" savedState
  rw [hpaused]
  refine ⟨⟨⟨rfl, rfl⟩, rfl⟩, ?_, hdown, hload, ?_, hcontrol.1, ?_⟩
  · have hresult : (saveVm savedHost savedHttp deniedIo savedVm saveRequest savedState).1 =
        some (.error (.internal ("Snapshot failed: " ++ ("Failed to create output dir: " ++ "/snap")))) := rfl
    have htext : "Snapshot failed: " ++ ("Failed to create output dir: " ++ "/snap") =
        "Snapshot failed: Failed to create output dir: /snap" := by simp
    rw [hresult, htext]
  · rintro (hruns | ⟨-, snapshot, haccepted, -⟩)
    · exact not_shutDown_of_not_requested hruns.2 hdown
    · rw [hload] at haccepted
      cases haccepted
  · rintro (hruns | hshut)
    · exact (handleSnapshot_runs ⟨⟨rfl, rfl⟩, rfl⟩ "/snap").mp hruns rfl
    · exact not_shutDown_of_not_requested hcontrol.2 hshut.1

end CloneVmm.SaveVm
