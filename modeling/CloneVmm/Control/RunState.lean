import CloneVmm.Boot.Chain
import CloneVmm.Lib.Prog
import CloneVmm.Migration.Precopy

namespace CloneVmm.Control.RunState

open CloneVmm.Lib CloneVmm.Lib.Prog CloneVmm.Boot CloneVmm.Migration

/-- `notified`: the vCPUs were woken since a pause was last requested. -/
structure VcpuControl where
  pauseRequested : Bool
  notified : Bool
  deriving DecidableEq

def VcpuControl.Running (s : VcpuControl) : Prop := s.pauseRequested = false ∧ s.notified = true

abbrev Ctl (α : Type) := Prog String VcpuControl α

def context {α : Type} (message : String) : Except String α → Except String α
  | .ok a => .ok a
  | .error _ => .error message

def call {α : Type} : Except String α → Ctl α
  | .ok a => pure a
  | .error e => throw e

def setControl (pauseRequested notified : Bool) : Ctl Unit := modifyGet fun _ => ((), ⟨pauseRequested, notified⟩)

def pauseVcpus (result : Except String Unit) : Ctl Unit := do
  setControl true false
  match result with
  | .ok () => pure ()
  | .error message =>
    setControl false true
    throw message

def resumeVcpus : Ctl Unit := setControl false true

structure MetadataIo where
  createDir : Except String Unit
  serialize : Except String Unit
  write : Except String Unit

structure TemplateIo where
  createDir : Except String Unit
  readMem : Except String Unit
  writeMem : Except String Unit
  metadata : MetadataIo

def saveTemplate (io : TemplateIo) (dir : String) : Except String Unit := do
  context ("Failed to create output dir: " ++ dir) io.createDir
  io.readMem
  context ("Failed to write memory dump: " ++ Host.joinText dir "memory.raw") io.writeMem
  context ("Failed to create template dir: " ++ dir) io.metadata.createDir
  context "Failed to serialize template metadata" io.metadata.serialize
  context ("Failed to write template metadata: " ++ Host.joinText dir "template.json") io.metadata.write

structure IncrementalIo where
  collect : Except String Unit
  createDir : Except String Unit
  writePages : Except String Unit
  metadata : MetadataIo

def saveIncremental (io : IncrementalIo) (dir : String) : Except String Unit := do
  io.collect
  context ("Failed to create output dir: " ++ dir) io.createDir
  context ("Failed to write dirty pages: " ++ Host.joinText dir "dirty_pages.raw") io.writePages
  context ("Failed to create output dir: " ++ dir) io.metadata.createDir
  context "Failed to serialize incremental snapshot metadata" io.metadata.serialize
  context ("Failed to write metadata: " ++ Host.joinText dir "incremental.json") io.metadata.write

def handleSnapshot (pause : Except String Unit) (io : TemplateIo) (outputPath : String) : Ctl Unit := do
  pauseVcpus pause
  match saveTemplate io outputPath with
  | .ok () => pure ()
  | .error e => throw ("Snapshot failed: " ++ e)

def handleIncrementalSnapshot (hasVmFd : Bool) (pause : Except String Unit) (io : IncrementalIo) (outputPath : String) :
    Ctl Unit :=
  if hasVmFd then do
    pauseVcpus pause
    let result := saveIncremental io outputPath
    resumeVcpus
    match result with
    | .ok () => pure ()
    | .error e => throw ("Incremental snapshot failed: " ++ e)
  else throw "VM fd not available for dirty page tracking"

def msgReady : UInt8 := 10

structure SenderIo where
  vmFd : Except String Unit
  connect : Except String Unit
  setNodelay : Except String Unit
  helloJson : Except String Unit
  writeHello : Except String Unit
  readReady : Except String UInt8
  nonZeroPages : Nat
  writeInitial : Nat → Except String Unit
  fetch : Nat → Except String Nat
  writeRound : Nat → Nat → Except String Unit
  pause : Except String Unit
  writeFinalRound : Except String Unit
  fetchFinal : Except String Nat
  writeFinal : Nat → Except String Unit
  numVcpus : Nat
  writeVcpu : Nat → Except String Unit
  deviceJson : Except String Unit
  writeDevice : Except String Unit
  writeComplete : Except String Unit
  readAck : Except String UInt8

def batches (pages : Nat) : Nat := (pages + batchSize - 1) / batchSize

def sendAll (write : Nat → Except String Unit) : Nat → Except String Unit
  | 0 => .ok ()
  | count + 1 => do
    sendAll write count
    write count

def expectMsg (name : String) (expected : UInt8) (read : Except String UInt8) : Except String Unit := do
  let msgType ← read
  if msgType = expected then .ok ()
  else .error ("Expected " ++ name ++ " from receiver, got type " ++ toString msgType.toNat)

def converged (config : MigrationSenderConfig) (round dirty : Nat) : Prop :=
  dirty < config.dirtyThreshold ∨ round ≥ config.maxRounds

instance (config : MigrationSenderConfig) (round dirty : Nat) : Decidable (converged config round dirty) :=
  inferInstanceAs (Decidable (_ ∨ _))

def dirtyRounds (config : MigrationSenderConfig) (io : SenderIo) : Nat → Nat → Except String Unit
  | 0, _ => .ok ()
  | left + 1, round => do
    let dirty ← io.fetch round
    if converged config round dirty then .ok ()
    else do
      sendAll (io.writeRound round) (batches dirty)
      dirtyRounds config io left (round + 1)

def sendRunning (config : MigrationSenderConfig) (addr : String) (io : SenderIo) : Except String Unit := do
  context "VM fd not available for migration" io.vmFd
  context ("Failed to connect to receiver at " ++ addr) io.connect
  io.setNodelay
  io.helloJson
  io.writeHello
  expectMsg "Ready" msgReady io.readReady
  sendAll io.writeInitial (batches io.nonZeroPages)
  dirtyRounds config io (config.maxRounds + 1) 1

def sendPaused (io : SenderIo) : Except String Unit := do
  io.writeFinalRound
  let dirty ← io.fetchFinal
  sendAll io.writeFinal (batches dirty)
  sendAll io.writeVcpu io.numVcpus
  io.deviceJson
  io.writeDevice
  io.writeComplete
  expectMsg "AckFinal" msgAckFinal io.readAck

def pauseForFinalRound (pause : Except String Unit) : Except String Unit :=
  match pause with
  | .ok () => .ok ()
  | .error e => .error ("Failed to pause vCPUs for final round: " ++ e)

def runSender (config : MigrationSenderConfig) (addr : String) (io : SenderIo) : Ctl Unit := do
  call (sendRunning config addr io)
  pauseVcpus (pauseForFinalRound io.pause)
  call (sendPaused io)
  resumeVcpus

inductive Operation
  | snapshot (pause : Except String Unit) (io : TemplateIo) (outputPath : String)
  | incremental (hasVmFd : Bool) (pause : Except String Unit) (io : IncrementalIo) (outputPath : String)
  | migrate (config : MigrationSenderConfig) (addr : String) (io : SenderIo)

def Operation.run : Operation → Ctl Unit
  | snapshot pause io outputPath => handleSnapshot pause io outputPath
  | incremental hasVmFd pause io outputPath => handleIncrementalSnapshot hasVmFd pause io outputPath
  | migrate config addr io => runSender config addr io

def MetadataIo.Succeeds (io : MetadataIo) : Prop :=
  io.createDir = .ok () ∧ io.serialize = .ok () ∧ io.write = .ok ()

def TemplateIo.Succeeds (io : TemplateIo) : Prop :=
  io.createDir = .ok () ∧ io.readMem = .ok () ∧ io.writeMem = .ok () ∧ io.metadata.Succeeds

def SenderIo.RoundSent (config : MigrationSenderConfig) (io : SenderIo) (round : Nat) : Prop :=
  ∃ dirty, io.fetch round = .ok dirty ∧ ¬ converged config round dirty ∧
    ∀ k < batches dirty, io.writeRound round k = .ok ()

def SenderIo.RoundLast (config : MigrationSenderConfig) (io : SenderIo) (round : Nat) : Prop :=
  ∃ dirty, io.fetch round = .ok dirty ∧ converged config round dirty

structure SenderIo.ReachesPause (config : MigrationSenderConfig) (io : SenderIo) : Prop where
  vmFd : io.vmFd = .ok ()
  connect : io.connect = .ok ()
  setNodelay : io.setNodelay = .ok ()
  helloJson : io.helloJson = .ok ()
  writeHello : io.writeHello = .ok ()
  readReady : io.readReady = .ok msgReady
  writeInitial : ∀ k < batches io.nonZeroPages, io.writeInitial k = .ok ()
  rounds : ∃ last, 1 ≤ last ∧ (∀ round, 1 ≤ round → round < last → io.RoundSent config round) ∧
    io.RoundLast config last

structure SenderIo.Finishes (io : SenderIo) : Prop where
  writeFinalRound : io.writeFinalRound = .ok ()
  final : ∃ dirty, io.fetchFinal = .ok dirty ∧ ∀ k < batches dirty, io.writeFinal k = .ok ()
  writeVcpu : ∀ k < io.numVcpus, io.writeVcpu k = .ok ()
  deviceJson : io.deviceJson = .ok ()
  writeDevice : io.writeDevice = .ok ()
  writeComplete : io.writeComplete = .ok ()
  readAck : io.readAck = .ok msgAckFinal

def Operation.Resumes : Operation → Prop
  | snapshot pause io _ => pause = .ok () → io.Succeeds
  | incremental _ _ _ _ => True
  | migrate config _ io => io.ReachesPause config → io.pause = .ok () → io.Finishes

section Calls

theorem context_eq_ok {α : Type} {message : String} {result : Except String α} {a : α} :
    context message result = .ok a ↔ result = .ok a := by
  cases result with
  | ok b => rfl
  | error e => simp [context]

theorem andThen_eq_ok {x y : Except String Unit} : (do x; y) = .ok () ↔ x = .ok () ∧ y = .ok () := by
  rw [exceptBind_eq_ok]
  constructor
  · rintro ⟨⟨⟩, hx, hy⟩
    exact ⟨hx, hy⟩
  · rintro ⟨hx, hy⟩
    exact ⟨(), hx, hy⟩

theorem sendAll_eq_ok {write : Nat → Except String Unit} {count : Nat} :
    sendAll write count = .ok () ↔ ∀ k < count, write k = .ok () := by
  induction count with
  | zero => simp [sendAll]
  | succ count ih =>
    rw [sendAll, andThen_eq_ok, ih]
    constructor
    · rintro ⟨hbefore, hlast⟩ k hk
      by_cases heq : k = count
      · exact heq ▸ hlast
      · exact hbefore k (by omega)
    · intro h
      exact ⟨fun k hk => h k (by omega), h count (by omega)⟩

theorem expectMsg_eq_ok {name : String} {expected : UInt8} {read : Except String UInt8} :
    expectMsg name expected read = .ok () ↔ read = .ok expected := by
  rw [expectMsg, exceptBind_eq_ok]
  constructor
  · rintro ⟨msgType, hread, hcheck⟩
    split at hcheck
    · subst expected
      exact hread
    · cases hcheck
  · intro hread
    exact ⟨expected, hread, if_pos rfl⟩

theorem saveTemplate_eq_ok {io : TemplateIo} {dir : String} : saveTemplate io dir = .ok () ↔ io.Succeeds := by
  simp only [saveTemplate, andThen_eq_ok, context_eq_ok]
  rfl

theorem dirtyRounds_eq_ok {config : MigrationSenderConfig} {io : SenderIo} {left round : Nat} (hleft : 0 < left)
    (hmax : config.maxRounds < round + left) :
    dirtyRounds config io left round = .ok () ↔
      ∃ last, round ≤ last ∧ (∀ r, round ≤ r → r < last → io.RoundSent config r) ∧ io.RoundLast config last := by
  induction left generalizing round with
  | zero => omega
  | succ left ih =>
    rw [dirtyRounds, exceptBind_eq_ok]
    constructor
    · rintro ⟨dirty, hfetch, hrest⟩
      split at hrest
      · rename_i hconverged
        exact ⟨round, Nat.le_refl _, fun r hle hlt => by omega, dirty, hfetch, hconverged⟩
      · rename_i hmore
        have hround : round < config.maxRounds := Nat.not_le.mp fun hge => hmore (.inr hge)
        obtain ⟨hsent, hrest⟩ := andThen_eq_ok.mp hrest
        obtain ⟨last, hle, hbefore, hlast⟩ := (ih (by omega) (by omega)).mp hrest
        refine ⟨last, by omega, fun r hr hlt => ?_, hlast⟩
        by_cases heq : r = round
        · exact heq ▸ ⟨dirty, hfetch, hmore, sendAll_eq_ok.mp hsent⟩
        · exact hbefore r (by omega) hlt
    · rintro ⟨last, hle, hbefore, hlast⟩
      by_cases heq : round = last
      · subst heq
        obtain ⟨dirty, hfetch, hconverged⟩ := hlast
        exact ⟨dirty, hfetch, if_pos hconverged⟩
      · obtain ⟨dirty, hfetch, hmore, hsent⟩ := hbefore round (Nat.le_refl _) (by omega)
        have hround : round < config.maxRounds := Nat.not_le.mp fun hge => hmore (.inr hge)
        refine ⟨dirty, hfetch, ?_⟩
        rw [if_neg hmore]
        refine andThen_eq_ok.mpr ⟨sendAll_eq_ok.mpr hsent, (ih (by omega) (by omega)).mpr ?_⟩
        exact ⟨last, by omega, fun r hr hlt => hbefore r (by omega) hlt, hlast⟩

theorem sendRunning_eq_ok {config : MigrationSenderConfig} {addr : String} {io : SenderIo} :
    sendRunning config addr io = .ok () ↔ io.ReachesPause config := by
  simp only [sendRunning, andThen_eq_ok, context_eq_ok, expectMsg_eq_ok, sendAll_eq_ok]
  rw [dirtyRounds_eq_ok (by omega) (by omega)]
  constructor
  · rintro ⟨h1, h2, h3, h4, h5, h6, h7, h8⟩
    exact ⟨h1, h2, h3, h4, h5, h6, h7, h8⟩
  · rintro ⟨h1, h2, h3, h4, h5, h6, h7, h8⟩
    exact ⟨h1, h2, h3, h4, h5, h6, h7, h8⟩

theorem sendPaused_eq_ok {io : SenderIo} : sendPaused io = .ok () ↔ io.Finishes := by
  rw [sendPaused, andThen_eq_ok, exceptBind_eq_ok]
  simp only [andThen_eq_ok, expectMsg_eq_ok, sendAll_eq_ok]
  constructor
  · rintro ⟨h1, dirty, h2, h3, h4, h5, h6, h7, h8⟩
    exact ⟨h1, ⟨dirty, h2, h3⟩, h4, h5, h6, h7, h8⟩
  · rintro ⟨h1, ⟨dirty, h2, h3⟩, h4, h5, h6, h7, h8⟩
    exact ⟨h1, dirty, h2, h3, h4, h5, h6, h7, h8⟩

end Calls

section Runs

variable {s : VcpuControl}

theorem handleSnapshot_running (s : VcpuControl) (pause : Except String Unit) (io : TemplateIo) (outputPath : String) :
    (∀ e t, (handleSnapshot pause io outputPath).exec s = (.error e, t) → t.Running) ↔ (pause = .ok () → io.Succeeds) := by
  rw [← @saveTemplate_eq_ok io outputPath]
  cases pause with
  | error message =>
    refine ⟨(fun _ h => nomatch h), fun _ e t hexec => ?_⟩
    cases hexec
    exact ⟨rfl, rfl⟩
  | ok =>
    cases hsave : saveTemplate io outputPath with
    | ok =>
      have hexec : (handleSnapshot (.ok ()) io outputPath).exec s = (.ok (), ⟨true, false⟩) := by
        rw [handleSnapshot, hsave]
        rfl
      refine ⟨fun _ _ => rfl, fun _ e t herror => ?_⟩
      rw [hexec] at herror
      cases herror
    | error e =>
      have hexec : (handleSnapshot (.ok ()) io outputPath).exec s =
          (.error ("Snapshot failed: " ++ e), ⟨true, false⟩) := by
        rw [handleSnapshot, hsave]
        rfl
      refine ⟨fun h => ?_, fun h => nomatch h rfl⟩
      cases (h _ _ hexec).1

theorem handleIncrementalSnapshot_running (hs : s.Running) (hasVmFd : Bool) (pause : Except String Unit)
    (io : IncrementalIo) (outputPath : String) (e : String) (t : VcpuControl)
    (hexec : (handleIncrementalSnapshot hasVmFd pause io outputPath).exec s = (.error e, t)) : t.Running := by
  cases hasVmFd with
  | false =>
    cases hexec
    exact hs
  | true =>
    cases pause with
    | error message =>
      cases hexec
      exact ⟨rfl, rfl⟩
    | ok =>
      cases hsave : saveIncremental io outputPath with
      | ok =>
        rw [handleIncrementalSnapshot, hsave] at hexec
        cases hexec
      | error message =>
        rw [handleIncrementalSnapshot, hsave] at hexec
        cases hexec
        exact ⟨rfl, rfl⟩

theorem runSender_running (hs : s.Running) (config : MigrationSenderConfig) (addr : String) (io : SenderIo) :
    (∀ e t, (runSender config addr io).exec s = (.error e, t) → t.Running) ↔
      (io.ReachesPause config → io.pause = .ok () → io.Finishes) := by
  rw [← @sendRunning_eq_ok config addr io, ← sendPaused_eq_ok]
  cases hrunning : sendRunning config addr io with
  | error e =>
    refine ⟨(fun _ h => nomatch h), fun _ e t hexec => ?_⟩
    rw [runSender, hrunning] at hexec
    cases hexec
    exact hs
  | ok =>
    cases hpause : io.pause with
    | error message =>
      refine ⟨(fun _ _ h => nomatch h), fun _ e t hexec => ?_⟩
      rw [runSender, hrunning, hpause] at hexec
      cases hexec
      exact ⟨rfl, rfl⟩
    | ok =>
      cases hpaused : sendPaused io with
      | ok =>
        refine ⟨fun _ _ _ => rfl, fun _ e t hexec => ?_⟩
        rw [runSender, hrunning, hpause, hpaused] at hexec
        cases hexec
      | error e =>
        have hexec : (runSender config addr io).exec s = (.error e, ⟨true, false⟩) := by
          rw [runSender, hrunning, hpause, hpaused]
          rfl
        refine ⟨fun h => ?_, fun h => nomatch h rfl rfl⟩
        cases (h _ _ hexec).1

/-- An operation that fails leaves a running VM running exactly if it does not fail after its pause, or
resumes all the same. -/
theorem failed_running_iff (op : Operation) (hs : s.Running) :
    (∀ e t, op.run.exec s = (.error e, t) → t.Running) ↔ op.Resumes := by
  cases op with
  | snapshot pause io outputPath => exact handleSnapshot_running s pause io outputPath
  | incremental hasVmFd pause io outputPath =>
    exact ⟨fun _ => trivial, fun _ => handleIncrementalSnapshot_running hs hasVmFd pause io outputPath⟩
  | migrate config addr io => exact runSender_running hs config addr io

end Runs

def running : VcpuControl := ⟨false, true⟩

def fullDisk : TemplateIo where
  createDir := .ok ()
  readMem := .ok ()
  writeMem := .error "No space left on device (os error 28)"
  metadata := ⟨.ok (), .ok (), .ok ()⟩

def hangUp : SenderIo where
  vmFd := .ok ()
  connect := .ok ()
  setNodelay := .ok ()
  helloJson := .ok ()
  writeHello := .ok ()
  readReady := .ok msgReady
  nonZeroPages := 100
  writeInitial _ := .ok ()
  fetch _ := .ok 10
  writeRound _ _ := .ok ()
  pause := .ok ()
  writeFinalRound := .ok ()
  fetchFinal := .ok 1
  writeFinal _ := .ok ()
  numVcpus := 1
  writeVcpu _ := .ok ()
  deviceJson := .ok ()
  writeDevice := .ok ()
  writeComplete := .ok ()
  readAck := .error "failed to fill whole buffer"

theorem failed_paused :
    (Operation.snapshot (.ok ()) fullDisk "/snap").run.exec running =
      (.error "Snapshot failed: Failed to write memory dump: /snap/memory.raw", ⟨true, false⟩) ∧
    (Operation.migrate {} "127.0.0.1:14242" hangUp).run.exec running =
      (.error "failed to fill whole buffer", ⟨true, false⟩) ∧
    running.Running ∧ ¬ VcpuControl.Running ⟨true, false⟩ := by
  refine ⟨by decide, by decide, ⟨rfl, rfl⟩, ?_⟩
  rintro ⟨hrequest, -⟩
  cases hrequest

theorem failed_running_timeout : running.Running ∧
    ∀ e t, (Operation.snapshot (.error "Timeout waiting for vCPUs to pause (got 0/1)") fullDisk "/snap").run.exec running =
      (.error e, t) → t.Running :=
  ⟨⟨rfl, rfl⟩, (failed_running_iff _ ⟨rfl, rfl⟩).mpr fun h => nomatch h⟩

end CloneVmm.Control.RunState
