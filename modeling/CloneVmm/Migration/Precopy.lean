import CloneVmm.Lib.Run
import CloneVmm.Control.VmHandle
import CloneVmm.Migration.Wire

/-!
`migration/mod.rs`: `run_sender` from the clearing of the dirty log on, `run_receiver`'s message
loop, and the guest that keeps writing meanwhile. A page batch holds slices of live guest memory,
so its bytes are read one at a time when the batch is encoded.
-/

namespace CloneVmm.Migration

open CloneVmm.Lib CloneVmm.Memory CloneVmm.Boot CloneVmm.Control

def batchSize : Nat := 64

structure MigrationSenderConfig where
  maxRounds : Nat := 30
  dirtyThreshold : Nat := 256

structure MigrationStats where
  totalPagesSent : Nat := 0
  rounds : Nat := 0
  finalDirtyPages : Nat := 0

structure Env where
  vm : VmHandle
  config : MigrationSenderConfig
  capturedStates : List (Option VcpuState)
  deviceJson : List UInt8
  parseDeviceStates : List UInt8 → Bool
  /-- of the receiver's allocator -/
  blockLimit : Nat

inductive Pass
  | initial
  | round (n : Nat) (bitmap : List UInt8)
  | final (bitmap : List UInt8)

inductive Phase
  | clear
  | scan (pass : Pass) (pageIdx : Nat) (batch : List Nat)
  | probe (pageIdx byte : Nat) (batch : List Nat)
  | encode (pass : Pass) (pageIdx : Nat) (pages : List (Nat × List UInt8)) (page : List UInt8)
      (todo : List Nat)
  | fetch (round : Nat)
  | converged (bitmap : List UInt8)
  | paused
  | vcpu (i : Nat)
  | device
  | awaitAck
  | complete
  | failed (error : String)

inductive ReceiverStatus
  | receiving
  | complete
  | failed (error : String)
  | aborted

def Failure.status : Failure → ReceiverStatus
  | .error text => .failed text
  | .aborted => .aborted

structure Receiver where
  mem : ByteStore := fun _ => 0
  pagesReceived : Nat := 0
  vcpuStates : List VcpuState := []
  deviceStates : Option (List UInt8) := none
  gotFinal : Bool := false
  status : ReceiverStatus := .receiving

/-- `mem` is the source's guest memory and `atPause` what it held when the vCPUs were paused. -/
structure Sys where
  mem : ByteStore
  atPause : ByteStore := fun _ => 0
  kvm : DirtyLog
  phase : Phase := .clear
  stats : MigrationStats := {}
  wire : List UInt8 := []
  back : List UInt8 := []
  receiver : Receiver := {}

def guardSize : Nat := 128 * 2 ^ 20

def Env.allocSize (env : Env) : Nat := env.vm.memSize + guardSize

def Pass.marks : Pass → Nat → Bool
  | .initial, _ => true
  | .round _ bitmap, page => pageDirty bitmap page
  | .final bitmap, page => pageDirty bitmap page

def Pass.next : Pass → Phase
  | .initial => .fetch 1
  | .round n _ => .fetch (n + 1)
  | .final _ => .vcpu 0

def Phase.vcpusPaused : Phase → Bool
  | .paused | .scan (.final _) _ _ | .encode (.final _) _ _ _ _ | .vcpu _ | .device | .awaitAck
  | .failed _ => true
  | _ => false

def pushPage (pass : Pass) (pageIdx : Nat) (batch : List Nat) : Phase :=
  let batch := batch ++ [pageIdx * pageSize]
  if batchSize ≤ batch.length then .encode pass (pageIdx + 1) [] [] batch
  else .scan pass (pageIdx + 1) batch

def dirtyCount (usablePages : Nat) (bitmap : List UInt8) : Nat :=
  (List.range usablePages).countP (pageDirty bitmap)

def Env.hasConverged (env : Env) (round : Nat) (bitmap : List UInt8) : Bool :=
  decide (dirtyCount env.vm.totalPages bitmap < env.config.dirtyThreshold) ||
    decide (env.config.maxRounds ≤ round)

def Sys.send (s : Sys) (msgType : UInt8) (payload : List UInt8) : Sys :=
  { s with wire := s.wire ++ writeMsg msgType payload }

def MigrationStats.pushed (stats : MigrationStats) : Pass → MigrationStats
  | .final _ => { stats with finalDirtyPages := stats.finalDirtyPages + 1 }
  | _ => stats

def MigrationStats.sent (stats : MigrationStats) (pages : Nat) : MigrationStats :=
  { stats with totalPagesSent := stats.totalPagesSent + pages }

def scanStep (env : Env) (s : Sys) (pass : Pass) (pageIdx : Nat) (batch : List Nat) : Sys :=
  if pageIdx < env.vm.totalPages then
    match pass with
    | .initial => { s with phase := .probe pageIdx 0 batch }
    | _ =>
      if pass.marks pageIdx then
        { s with phase := pushPage pass pageIdx batch, stats := s.stats.pushed pass }
      else { s with phase := .scan pass (pageIdx + 1) batch }
  else if batch = [] then { s with phase := pass.next }
  else { s with phase := .encode pass pageIdx [] [] batch }

def probeStep (s : Sys) (pageIdx byte : Nat) (batch : List Nat) : Sys :=
  if byte < pageSize then
    if s.mem (pageIdx * pageSize + byte) = 0 then { s with phase := .probe pageIdx (byte + 1) batch }
    else { s with phase := pushPage .initial pageIdx batch }
  else { s with phase := .scan .initial (pageIdx + 1) batch }

def encodeStep (s : Sys) (pass : Pass) (pageIdx : Nat) (pages : List (Nat × List UInt8))
    (page : List UInt8) (todo : List Nat) : Sys :=
  match todo with
  | [] =>
    { s.send msgMemoryPageBatch (encodePageBatch pages) with
      phase := .scan pass pageIdx [], stats := s.stats.sent pages.length }
  | offset :: rest =>
    if page.length < pageSize then
      { s with phase := .encode pass pageIdx pages (page ++ [s.mem (offset + page.length)]) todo }
    else { s with phase := .encode pass pageIdx (pages ++ [(offset, page)]) [] rest }

def fetchStep (env : Env) (s : Sys) (round : Nat) : Sys :=
  let (bitmap, kvm) := env.vm.getDirtyBitmap s.kvm
  { s with
    kvm
    phase := if env.hasConverged round bitmap then .converged bitmap else .scan (.round round bitmap) 0 []
    stats := { s.stats with rounds := round } }

def pausedStep (env : Env) (s : Sys) : Sys :=
  let (bitmap, kvm) := env.vm.getDirtyBitmap s.kvm
  { s.send msgFinalRound [] with kvm, phase := .scan (.final bitmap) 0 [] }

def vcpuStep (env : Env) (s : Sys) (i : Nat) : Sys :=
  match env.capturedStates[i]? with
  | some state => { s.send msgVcpuState (encodeVcpuState i (state.getD .empty)) with phase := .vcpu (i + 1) }
  | none => { s.send msgDeviceState env.deviceJson with phase := .device }

def ackStep (s : Sys) : Option Sys :=
  match readMsg s.back with
  | none => none
  | some ((msgType, _), rest) =>
    if msgType = msgAckFinal then some { s with back := rest, phase := .complete }
    else
      let got := msgType.toNat
      some { s with back := rest, phase := .failed s!"Expected AckFinal from receiver, got type {got}" }

def senderStep (env : Env) (s : Sys) : Option Sys :=
  match s.phase with
  | .clear => some { s with kvm := (env.vm.getDirtyBitmap s.kvm).2, phase := .scan .initial 0 [] }
  | .scan pass pageIdx batch => some (scanStep env s pass pageIdx batch)
  | .probe pageIdx byte batch => some (probeStep s pageIdx byte batch)
  | .encode pass pageIdx pages page todo => some (encodeStep s pass pageIdx pages page todo)
  | .fetch round => some (fetchStep env s round)
  | .converged _ => some { s with phase := .paused, atPause := s.mem }
  | .paused => some (pausedStep env s)
  | .vcpu i => some (vcpuStep env s i)
  | .device => some { s.send msgComplete [] with phase := .awaitAck }
  | .awaitAck => ackStep s
  | .complete | .failed _ => none

def applyPage (allocSize : Nat) (r : Receiver) (page : Nat × List UInt8) : Receiver :=
  if (page.1 + pageSize) % 2 ^ 64 ≤ allocSize then
    { r with mem := writeBytes r.mem page.1 page.2, pagesReceived := r.pagesReceived + 1 }
  else r

def Receiver.onMsg (env : Env) (r : Receiver) (msg : UInt8 × List UInt8) : Receiver :=
  if msg.1 = msgMemoryPageBatch then
    match decodePageBatch env.blockLimit msg.2 with
    | .error e => { r with status := e.status }
    | .ok pages => pages.foldl (applyPage env.allocSize) r
  else if msg.1 = msgFinalRound then { r with gotFinal := true }
  else if msg.1 = msgVcpuState then
    match decodeVcpuState msg.2 with
    | .error e => { r with status := .failed e }
    | .ok state => { r with vcpuStates := r.vcpuStates ++ [state] }
  else if msg.1 = msgDeviceState then
    if env.parseDeviceStates msg.2 then { r with deviceStates := some msg.2 }
    else { r with status := .failed "device states" }
  else if msg.1 = msgComplete then
    if r.gotFinal then { r with status := .complete }
    else { r with status := .failed "Never received FinalRound marker" }
  else r

def receiverStep (env : Env) (s : Sys) : Option Sys :=
  match s.receiver.status, readMsg s.wire with
  | .receiving, some (msg, rest) =>
    let receiver := s.receiver.onMsg env msg
    match receiver.status with
    | .complete => some { s with wire := rest, receiver, back := s.back ++ writeMsg msgAckFinal [] }
    | _ => some { s with wire := rest, receiver }
  | _, _ => none

inductive Action
  | guestWrite (addr : Nat) (value : UInt8)
  | sender
  | clearFailed
  | receiver

def step (env : Env) (s : Sys) : Action → Option Sys
  | .guestWrite addr value =>
    if s.phase.vcpusPaused then none
    else some { s with mem := writeBytes s.mem addr [value], kvm := s.kvm.mark (addr / pageSize) }
  | .sender => senderStep env s
  | .clearFailed =>
    match s.phase with
    | .clear => some { s with phase := .scan .initial 0 [] }
    | _ => none
  | .receiver => receiverStep env s

def start (mem : ByteStore) (kvm : DirtyLog) : Sys := { mem, kvm }

end CloneVmm.Migration
