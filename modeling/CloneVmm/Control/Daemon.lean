import Mathlib.Data.List.Nodup
import Mathlib.Tactic.Ring
import CloneVmm.Lib.Run

/-!
`control/mod.rs` and `control/daemon.rs`: the daemon's registry of VMs, the identifiers that it hands out
and the state file that outlives it. A request holds the lock from its first step to its last, so the
requests of all connections are one sequence.
-/

namespace CloneVmm.Control.Daemon

open CloneVmm.Lib

structure CreateVm where
  kernel : String
  initrd : Option String
  cmdline : String
  memMb : UInt32
  vcpus : UInt32
  rootfs : Option String
  overlay : Option String
  sharedDir : Option String
  block : Option String
  net : Bool
  tap : Option String
  seccomp : Bool
  jail : Option String
  memoryLimitMb : Option UInt32

structure ForkVm where
  templatePath : String
  net : Bool
  sharedDir : Option String
  memMb : Option UInt32
  vcpus : Option UInt32
  overlaySize : Option String
  memoryLimitMb : Option UInt32

structure RestoreVm where
  snapshotPath : String
  net : Bool
  sharedDir : Option String
  block : Option String
  memoryLimitMb : Option UInt32

inductive Request
  | createVm (args : CreateVm)
  | forkVm (args : ForkVm)
  | restoreVm (args : RestoreVm)
  | destroyVm (vmId : String)

inductive Response
  | vmCreated (vmId : String) (pid : UInt32)
  | ack
  | error (message : String)

def flag (name : String) (given : Bool) : List String := if given then [name] else []

def option (name : String) : Option String → List String
  | some value => [name, value]
  | none => []

def number (n : UInt32) : String := toString n.toNat

def cidArg (cid : UInt64) : List String := ["--cid", toString cid.toNat]

def spawnVm (args : CreateVm) (cmdline : String) (cid : UInt64) : List String :=
  List.flatten
    [["run", "--kernel", args.kernel, "--cmdline", cmdline, "--mem-mb", number args.memMb, "--vcpus",
      number args.vcpus],
      option "--initrd" args.initrd, option "--rootfs" args.rootfs, option "--overlay" args.overlay,
      option "--shared-dir" args.sharedDir, option "--block" args.block, flag "--net" args.net,
      option "--tap" args.tap, flag "--seccomp" args.seccomp, option "--jail" args.jail, cidArg cid]

def spawnFork (args : ForkVm) (cid : UInt64) : List String :=
  List.flatten
    [["fork", "--template", args.templatePath], flag "--net" args.net, option "--shared-dir" args.sharedDir,
      cidArg cid, option "--mem-mb" (args.memMb.map number), option "--vcpus" (args.vcpus.map number),
      option "--overlay-size" args.overlaySize]

def spawnRestore (args : RestoreVm) (cid : UInt64) : List String :=
  List.flatten
    [["restore", "--snapshot", args.snapshotPath], flag "--net" args.net, option "--shared-dir" args.sharedDir,
      option "--block" args.block, cidArg cid]

structure VmRecordConfig where
  kernel : String
  initrd : Option String
  cmdline : String
  memMb : UInt32
  vcpus : UInt32

def VmRecordConfig.unknown : VmRecordConfig := ⟨"", none, "", 0, 0⟩

inductive VmState
  | running
  | stopped
  | paused
  deriving DecidableEq

structure VmRecord where
  vmId : String
  pid : UInt32
  state : VmState
  config : VmRecordConfig
  memoryLimitMb : Option UInt32

structure PersistedState where
  nextId : UInt64
  nextCid : UInt64

structure ServerState where
  vms : List (String × VmRecord)
  nextId : UInt64
  nextCid : UInt64
  stateFile : Option String

inductive StateFile
  | missing
  | garbled
  | holds (state : PersistedState)

def vmName (n : UInt64) : String :=
  let digits := Nat.toDigits 10 n.toNat
  "vm-" ++ String.ofList (List.replicate (4 - digits.length) '0' ++ digits)

namespace ServerState

def loadFromFile (s : ServerState) (readable : Bool) : StateFile → ServerState
  | .holds p => if readable then { s with nextId := max p.nextId 1, nextCid := max p.nextCid 3 } else s
  | .missing | .garbled => s

def new (stateFile : Option String) (readable : Bool) (file : StateFile) : ServerState :=
  let state : ServerState := ⟨[], 1, 3, stateFile⟩
  if stateFile.isSome then state.loadFromFile readable file else state

def persist (s : ServerState) (written : Bool) (file : StateFile) : StateFile :=
  if s.stateFile.isSome ∧ written then .holds ⟨s.nextId, s.nextCid⟩ else file

def allocId (s : ServerState) : String × ServerState := (vmName s.nextId, { s with nextId := s.nextId + 1 })

def allocate (s : ServerState) : (String × UInt64) × ServerState :=
  let (vmId, s) := s.allocId
  ((vmId, s.nextCid), { s with nextCid := s.nextCid + 1 })

def insert (s : ServerState) (vmId : String) (record : VmRecord) : ServerState :=
  { s with vms := (vmId, record) :: s.vms.filter fun r => r.1 != vmId }

def register (s : ServerState) (vmId : String) (config : VmRecordConfig) (memoryLimitMb : Option UInt32)
    (failure : String) : Except String UInt32 → ServerState × Response
  | .ok pid => (s.insert vmId ⟨vmId, pid, .running, config, memoryLimitMb⟩, .vmCreated vmId pid)
  | .error e => (s, .error s!"{failure}: {e}")

end ServerState

def effectiveCmdline (args : CreateVm) (cid : UInt64) : String :=
  let vmIndex := cid - 3
  let cmdline := args.cmdline ++ " clone.agent_port=9999"
  if args.net then
    let hostPart := 2 + vmIndex
    let guestIp := s!"172.30.{(hostPart / 256).toNat}.{(hostPart % 256).toNat}"
    cmdline ++ s!" clone.net_ip={guestIp} clone.net_gw=172.30.0.1 clone.net_mask=16"
  else cmdline

structure Io where
  spawn : List String → Except String UInt32
  written : Bool

def createVm (s : ServerState) (file : StateFile) (io : Io) (args : CreateVm) : ServerState × StateFile × Response :=
  let ((vmId, cid), s) := s.allocate
  let file := s.persist io.written file
  let cmdline := effectiveCmdline args cid
  let config : VmRecordConfig := ⟨args.kernel, args.initrd, cmdline, args.memMb, args.vcpus⟩
  let (s, response) :=
    s.register vmId config args.memoryLimitMb "Failed to spawn VM" (io.spawn (spawnVm args cmdline cid))
  (s, file, response)

def forkVm (s : ServerState) (file : StateFile) (io : Io) (args : ForkVm) : ServerState × StateFile × Response :=
  let ((vmId, cid), s) := s.allocate
  let file := s.persist io.written file
  let (s, response) := s.register vmId .unknown args.memoryLimitMb "Fork failed" (io.spawn (spawnFork args cid))
  (s, file, response)

def restoreVm (s : ServerState) (file : StateFile) (io : Io) (args : RestoreVm) :
    ServerState × StateFile × Response :=
  let ((vmId, cid), s) := s.allocate
  let file := s.persist io.written file
  let (s, response) := s.register vmId .unknown args.memoryLimitMb "Restore failed" (io.spawn (spawnRestore args cid))
  (s, file, response)

def destroyVm (s : ServerState) (vmId : String) : ServerState × Response :=
  match s.vms.lookup vmId with
  | some _ => ({ s with vms := s.vms.filter fun r => r.1 != vmId }, .ack)
  | none => (s, .error s!"VM not found: {vmId}")

def dispatchInner (s : ServerState) (file : StateFile) (io : Io) : Request → ServerState × StateFile × Response
  | .createVm args => createVm s file io args
  | .forkVm args => forkVm s file io args
  | .restoreVm args => restoreVm s file io args
  | .destroyVm vmId =>
    let (s, response) := destroyVm s vmId
    (s, file, response)

def monitor (s : ServerState) (dead : UInt32 → Bool) : ServerState :=
  let mark (r : VmRecord) : VmRecord := if r.pid ≠ 0 ∧ dead r.pid then { r with state := .stopped } else r
  { s with vms := s.vms.map fun (vmId, r) => (vmId, mark r) }

def Request.allocates : Request → Bool
  | .destroyVm _ => false
  | _ => true

/-- `issued` are the identifiers handed out so far, the last one first; `overwrote` tells whether a
record was ever put in the place of another. -/
structure World where
  server : ServerState
  file : StateFile
  issued : List (String × UInt64)
  overwrote : Bool

inductive Action
  | request (req : Request) (io : Io)
  | monitor (dead : UInt32 → Bool)
  | restart (readable : Bool)

def World.fresh (stateFile : String) : World :=
  ⟨.new (some stateFile) true .missing, .missing, [], false⟩

def overwrites (s : ServerState) : Response → Bool
  | .vmCreated vmId _ => (s.vms.lookup vmId).isSome
  | _ => false

def World.next (w : World) : Action → World
  | .request req io =>
    let (server, file, response) := dispatchInner w.server w.file io req
    ⟨server, file, if req.allocates then w.server.allocate.1 :: w.issued else w.issued,
      w.overwrote || overwrites w.server response⟩
  | .monitor dead => { w with server := Daemon.monitor w.server dead }
  | .restart readable => { w with server := .new w.server.stateFile readable w.file }

structure World.Unique (w : World) : Prop where
  vmIds : (w.issued.map Prod.fst).Nodup
  cids : (w.issued.map Prod.snd).Nodup
  guestCids : ∀ id ∈ w.issued, 3 ≤ id.2
  kept : w.overwrote = false

def Action.Written : Action → Prop
  | .request _ io => io.written = true
  | _ => True

def Action.Reliable : Action → Prop
  | .request _ io => io.written = true
  | .monitor _ => True
  | .restart readable => readable = true

def capacity : Nat := 2 ^ 64 - 3

def issuedUpTo : Nat → List (String × UInt64)
  | 0 => []
  | n + 1 => (vmName (UInt64.ofNat (n + 1)), UInt64.ofNat (n + 3)) :: issuedUpTo n

theorem vmName_inj {m n : UInt64} : vmName m = vmName n ↔ m = n := by
  constructor
  · intro h
    have hchars := congrArg String.toList h
    simp only [vmName, String.toList_append, String.toList_ofList, List.append_cancel_left_eq] at hchars
    have hvalue := congrArg (fun digits => Nat.ofDigitChars 10 digits 0) hchars
    simp only [Nat.ofDigitChars_append, Nat.ofDigitChars_replicate_zero, Nat.mul_zero,
      Nat.ofDigitChars_toDigits (b := 10) (by decide) (by decide)] at hvalue
    exact UInt64.toNat_inj.mp hvalue
  · rintro rfl
    rfl

theorem uint64_ofNat_inj {m n : Nat} (hm : m < 2 ^ 64) (hn : n < 2 ^ 64) (h : UInt64.ofNat m = UInt64.ofNat n) :
    m = n := by
  have htoNat := congrArg UInt64.toNat h
  rwa [UInt64.toNat_ofNat_of_lt' hm, UInt64.toNat_ofNat_of_lt' hn] at htoNat

theorem mem_issuedUpTo {n : Nat} {id : String × UInt64} (h : id ∈ issuedUpTo n) :
    ∃ i < n, id = (vmName (UInt64.ofNat (i + 1)), UInt64.ofNat (i + 3)) := by
  induction n with
  | zero => cases h
  | succ n ih =>
    rcases List.mem_cons.mp h with rfl | h
    · exact ⟨n, Nat.lt_succ_self n, rfl⟩
    · obtain ⟨i, hi, rfl⟩ := ih h
      exact ⟨i, Nat.lt_succ_of_lt hi, rfl⟩

theorem vmName_notMem_issuedUpTo {n : Nat} (h : n + 1 < 2 ^ 64) :
    vmName (UInt64.ofNat (n + 1)) ∉ (issuedUpTo n).map Prod.fst := by
  intro hmem
  obtain ⟨id, hid, heq⟩ := List.mem_map.mp hmem
  obtain ⟨i, hi, rfl⟩ := mem_issuedUpTo hid
  have hsame := uint64_ofNat_inj (by omega) h (vmName_inj.mp heq)
  omega

theorem cid_notMem_issuedUpTo {n : Nat} (h : n + 3 < 2 ^ 64) :
    UInt64.ofNat (n + 3) ∉ (issuedUpTo n).map Prod.snd := by
  intro hmem
  obtain ⟨id, hid, heq⟩ := List.mem_map.mp hmem
  obtain ⟨i, hi, rfl⟩ := mem_issuedUpTo hid
  have hsame := uint64_ofNat_inj (by omega) h heq
  omega

theorem issuedUpTo_vmIds_nodup {n : Nat} (h : n ≤ capacity) : ((issuedUpTo n).map Prod.fst).Nodup := by
  induction n with
  | zero => exact List.nodup_nil
  | succ n ih =>
    have hn : n + 3 < 2 ^ 64 := by
      simp only [capacity] at h
      omega
    exact List.nodup_cons.mpr ⟨vmName_notMem_issuedUpTo (by omega), ih (by omega)⟩

theorem issuedUpTo_cids_nodup {n : Nat} (h : n ≤ capacity) : ((issuedUpTo n).map Prod.snd).Nodup := by
  induction n with
  | zero => exact List.nodup_nil
  | succ n ih =>
    have hn : n + 3 < 2 ^ 64 := by
      simp only [capacity] at h
      omega
    exact List.nodup_cons.mpr ⟨cid_notMem_issuedUpTo hn, ih (by omega)⟩

theorem three_le_of_mem_issuedUpTo {n : Nat} (h : n ≤ capacity) : ∀ id ∈ issuedUpTo n, 3 ≤ id.2 := by
  intro id hid
  obtain ⟨i, hi, rfl⟩ := mem_issuedUpTo hid
  simp only [capacity] at h
  rw [UInt64.le_iff_toNat_le, UInt64.toNat_ofNat_of_lt' (by simp only [UInt64.size]; omega)]
  exact Nat.le_add_left 3 i

section Requests

variable {req : Request}

theorem dispatchInner_allocates (s : ServerState) (file : StateFile) (io : Io) (h : req.allocates = true) :
    ∃ config limit failure args,
      let done := s.allocate.2.register s.allocate.1.1 config limit failure (io.spawn args)
      dispatchInner s file io req = (done.1, s.allocate.2.persist io.written file, done.2) := by
  cases req with
  | createVm args => exact ⟨_, _, _, _, rfl⟩
  | forkVm args => exact ⟨_, _, _, _, rfl⟩
  | restoreVm args => exact ⟨_, _, _, _, rfl⟩
  | destroyVm vmId => cases h

theorem register_cases (s : ServerState) (vmId : String) (config : VmRecordConfig) (limit : Option UInt32)
    (failure : String) (result : Except String UInt32) :
    (∃ record pid, s.register vmId config limit failure result = (s.insert vmId record, .vmCreated vmId pid)) ∨
      ∃ message, s.register vmId config limit failure result = (s, .error message) := by
  cases result with
  | error e => exact .inr ⟨_, rfl⟩
  | ok pid => exact .inl ⟨_, pid, rfl⟩

theorem destroyVm_cases (s : ServerState) (vmId : String) :
    (∃ vms, vms ⊆ s.vms ∧ destroyVm s vmId = ({ s with vms := vms }, .ack)) ∨
      ∃ message, destroyVm s vmId = (s, .error message) := by
  unfold destroyVm
  split
  · exact .inl ⟨_, List.filter_sublist.subset, rfl⟩
  · exact .inr ⟨_, rfl⟩

end Requests

structure World.Counted (w : World) : Prop where
  stateFile : w.server.stateFile.isSome = true
  issued : w.issued = issuedUpTo w.issued.length
  kept : w.overwrote = false
  keys : ∀ r ∈ w.server.vms, r.1 ∈ w.issued.map Prod.fst
  counters : w.issued.length < capacity → w.server.nextId = UInt64.ofNat (w.issued.length + 1) ∧
    w.server.nextCid = UInt64.ofNat (w.issued.length + 3)
  file : w.issued.length < capacity →
    w.file = .holds ⟨UInt64.ofNat (w.issued.length + 1), UInt64.ofNat (w.issued.length + 3)⟩ ∨
      w.issued.length = 0 ∧ w.file = .missing

section Runs

variable {w : World} {a : Action}

theorem counted_fresh (stateFile : String) : (World.fresh stateFile).Counted :=
  ⟨rfl, rfl, rfl, List.forall_mem_nil _, fun _ => ⟨rfl, rfl⟩, fun _ => .inr ⟨rfl, rfl⟩⟩

theorem World.Counted.unique (h : w.Counted) (hfew : w.issued.length ≤ capacity) : w.Unique := by
  refine ⟨?_, ?_, ?_, h.kept⟩
  · rw [h.issued]
    exact issuedUpTo_vmIds_nodup hfew
  · rw [h.issued]
    exact issuedUpTo_cids_nodup hfew
  · rw [h.issued]
    exact three_le_of_mem_issuedUpTo hfew

theorem allocate_counters {n : Nat} {s : ServerState} (hid : s.nextId = UInt64.ofNat (n + 1))
    (hcid : s.nextCid = UInt64.ofNat (n + 3)) :
    s.allocate = ((vmName (UInt64.ofNat (n + 1)), UInt64.ofNat (n + 3)),
      { s with nextId := UInt64.ofNat (n + 2), nextCid := UInt64.ofNat (n + 4) }) := by
  simp only [ServerState.allocate, ServerState.allocId, hid, hcid]
  rw [show UInt64.ofNat (n + 2) = UInt64.ofNat (n + 1) + 1 from UInt64.ofNat_add (n + 1) 1,
    show UInt64.ofNat (n + 4) = UInt64.ofNat (n + 3) + 1 from UInt64.ofNat_add (n + 3) 1]

theorem next_allocates (w : World) (io : Io) {req : Request} (h : req.allocates = true) :
    ∃ config limit failure args,
      let done := w.server.allocate.2.register w.server.allocate.1.1 config limit failure (io.spawn args)
      w.next (.request req io) = ⟨done.1, w.server.allocate.2.persist io.written w.file,
        w.server.allocate.1 :: w.issued, w.overwrote || overwrites w.server done.2⟩ := by
  obtain ⟨config, limit, failure, args, hdispatch⟩ := dispatchInner_allocates w.server w.file io h
  refine ⟨config, limit, failure, args, ?_⟩
  simp only [World.next, hdispatch, h, if_true]

theorem lookup_eq_none {vmId : String} {vms : List (String × VmRecord)} (h : ∀ r ∈ vms, r.1 ≠ vmId) :
    vms.lookup vmId = none := by
  induction vms with
  | nil => rfl
  | cons r vms ih =>
    obtain ⟨hr, hvms⟩ := List.forall_mem_cons.mp h
    rw [List.lookup_cons, beq_false_of_ne (Ne.symm hr)]
    exact ih hvms

theorem World.Counted.allocates (h : w.Counted) {req : Request} {io : Io} (hreq : req.allocates = true)
    (hwritten : io.written = true) (hfew : w.issued.length < capacity) :
    (w.next (.request req io)).Counted := by
  obtain ⟨hid, hcid⟩ := h.counters hfew
  have hlt : w.issued.length + 3 < 2 ^ 64 := by
    simp only [capacity] at hfew
    omega
  obtain ⟨config, limit, failure, args, hnext⟩ := next_allocates w io hreq
  rw [allocate_counters hid hcid] at hnext
  have hissued : (vmName (UInt64.ofNat (w.issued.length + 1)), UInt64.ofNat (w.issued.length + 3)) :: w.issued =
      issuedUpTo (w.issued.length + 1) := by
    rw [issuedUpTo, ← h.issued]
  have hfresh : ∀ r ∈ w.server.vms, r.1 ≠ vmName (UInt64.ofNat (w.issued.length + 1)) := by
    intro r hr heq
    have hold := h.keys r hr
    rw [h.issued, heq] at hold
    exact vmName_notMem_issuedUpTo (by omega) hold
  dsimp only at hnext
  rw [hnext]
  obtain ⟨record, pid, hregister⟩ | ⟨message, hregister⟩ := register_cases
    { w.server with
      nextId := UInt64.ofNat (w.issued.length + 2)
      nextCid := UInt64.ofNat (w.issued.length + 4) }
    (vmName (UInt64.ofNat (w.issued.length + 1))) config limit failure (io.spawn args)
  · rw [hregister]
    refine ⟨h.stateFile, hissued, ?_, ?_, fun _ => ⟨rfl, rfl⟩, fun _ => .inl ?_⟩
    · simp only [overwrites, h.kept, lookup_eq_none hfresh, Option.isSome_none, Bool.or_false]
    · intro r hr
      rcases List.mem_cons.mp hr with rfl | hr
      · exact List.mem_cons_self
      · exact List.mem_cons_of_mem _ (h.keys r (List.mem_of_mem_filter hr))
    · simp only [ServerState.persist, h.stateFile, hwritten, and_self, if_true, List.length_cons]
  · rw [hregister]
    refine ⟨h.stateFile, hissued, ?_, ?_, fun _ => ⟨rfl, rfl⟩, fun _ => .inl ?_⟩
    · simp only [overwrites, h.kept, Bool.or_false]
    · exact fun r hr => List.mem_cons_of_mem _ (h.keys r hr)
    · simp only [ServerState.persist, h.stateFile, hwritten, and_self, if_true, List.length_cons]

theorem World.Counted.destroy (h : w.Counted) (vmId : String) (io : Io) :
    (w.next (.request (.destroyVm vmId) io)).Counted := by
  obtain ⟨vms, hvms, hdestroy⟩ | ⟨message, hdestroy⟩ := destroyVm_cases w.server vmId
  · simp only [World.next, dispatchInner, hdestroy, overwrites, Request.allocates, Bool.or_false]
    exact ⟨h.stateFile, h.issued, h.kept, fun r hr => h.keys r (hvms hr), h.counters, h.file⟩
  · simp only [World.next, dispatchInner, hdestroy, overwrites, Request.allocates, Bool.or_false]
    exact h

theorem loadFromFile_kept (s : ServerState) (readable : Bool) (file : StateFile) :
    (s.loadFromFile readable file).vms = s.vms ∧ (s.loadFromFile readable file).stateFile = s.stateFile := by
  cases file with
  | holds p => cases readable <;> exact ⟨rfl, rfl⟩
  | missing => exact ⟨rfl, rfl⟩
  | garbled => exact ⟨rfl, rfl⟩

theorem new_kept (stateFile : Option String) (readable : Bool) (file : StateFile) :
    (ServerState.new stateFile readable file).vms = [] ∧
      (ServerState.new stateFile readable file).stateFile = stateFile := by
  simp only [ServerState.new]
  split
  · exact loadFromFile_kept _ readable file
  · exact ⟨rfl, rfl⟩

theorem max_ofNat {m k : Nat} (hk : k ≤ m) (hm : m < 2 ^ 64) :
    max (UInt64.ofNat m) (UInt64.ofNat k) = UInt64.ofNat m := by
  change (if UInt64.ofNat m ≤ UInt64.ofNat k then UInt64.ofNat k else UInt64.ofNat m) = UInt64.ofNat m
  split
  · next hle =>
    rw [UInt64.le_iff_toNat_le, UInt64.toNat_ofNat_of_lt' hm,
      UInt64.toNat_ofNat_of_lt' (Nat.lt_of_le_of_lt hk hm)] at hle
    rw [Nat.le_antisymm hk hle]
  · rfl

theorem World.Counted.restart (h : w.Counted) : (w.next (.restart true)).Counted := by
  refine ⟨?_, h.issued, h.kept, ?_, fun hfew => ?_, h.file⟩
  · simp only [World.next, (new_kept _ _ _).2, h.stateFile]
  · simp only [World.next, (new_kept _ _ _).1]
    exact List.forall_mem_nil _
  · have hlt : w.issued.length + 3 < 2 ^ 64 := by
      simp only [World.next, capacity] at hfew
      omega
    simp only [World.next, ServerState.new, h.stateFile, if_true]
    rcases h.file hfew with hfile | ⟨hzero, hfile⟩
    · simp only [hfile, ServerState.loadFromFile, if_true]
      exact ⟨max_ofNat (Nat.le_add_left 1 _) (by omega), max_ofNat (Nat.le_add_left 3 _) hlt⟩
    · simp only [hfile, ServerState.loadFromFile, hzero]
      exact ⟨rfl, rfl⟩

theorem World.Counted.next (h : w.Counted) (ha : a.Reliable) (hfew : (w.next a).issued.length ≤ capacity) :
    (w.next a).Counted := by
  cases a with
  | request req io =>
    cases hreq : req.allocates with
    | true =>
      obtain ⟨config, limit, failure, args, hnext⟩ := next_allocates w io hreq
      rw [hnext] at hfew
      exact h.allocates hreq ha hfew
    | false =>
      cases req with
      | destroyVm vmId => exact h.destroy vmId io
      | _ => cases hreq
  | monitor dead =>
    refine ⟨h.stateFile, h.issued, h.kept, fun r hr => ?_, h.counters, h.file⟩
    obtain ⟨r', hr', rfl⟩ := List.mem_map.mp hr
    exact h.keys r' hr'
  | restart readable =>
    have hreadable : readable = true := ha
    subst hreadable
    exact h.restart

theorem issued_length_le_next (w : World) (a : Action) : w.issued.length ≤ (w.next a).issued.length := by
  cases a with
  | request req io =>
    simp only [World.next]
    split_ifs
    · exact Nat.le_succ _
    · exact Nat.le_refl _
  | _ => exact Nat.le_refl _

def World.Step (w : World) (a : Action) (w' : World) : Prop := w' = w.next a

theorem identifiers_unique {stateFile : String} {as : List Action}
    (hrun : Steps (fun s a t => World.Step s a t ∧ a.Reliable) (.fresh stateFile) as w)
    (hfew : w.issued.length ≤ capacity) : w.Unique := by
  have hcounted : w.issued.length ≤ capacity → w.Counted := by
    refine hrun.invariant (P := fun w => w.issued.length ≤ capacity → w.Counted) ?_ fun _ => counted_fresh stateFile
    rintro s a t ⟨rfl, ha⟩ hs hfew
    exact (hs (Nat.le_trans (issued_length_le_next s a) hfew)).next ha hfew
  exact (hcounted hfew).unique hfew

theorem steps_foldl {C : Action → Prop} {as : List Action} (h : ∀ a ∈ as, C a) (w : World) :
    Steps (fun s a t => World.Step s a t ∧ C a) w as (as.foldl World.next w) := by
  induction as generalizing w with
  | nil => exact .nil w
  | cons a as ih =>
    obtain ⟨ha, has⟩ := List.forall_mem_cons.mp h
    exact .cons ⟨rfl, ha⟩ (ih has (w.next a))

end Runs

def demoCreate : Request :=
  .createVm ⟨"/boot/vmlinux", none, "console=ttyS0", 512, 1, none, none, none, none, true, none, false, none, none⟩

def demoFork : Request := .forkVm ⟨"/templates/base", false, none, none, none, none, none⟩

def demoIo : Io := ⟨fun _ => .ok 4711, true⟩

def demoFile : String := "/tmp/clone-daemon-state.json"

def demoActions : List Action :=
  [.request demoCreate demoIo, .request demoFork ⟨fun _ => .error "no such file", true⟩, .restart true,
    .request demoCreate demoIo, .request (.destroyVm "vm-0003") demoIo, .request demoFork demoIo]

theorem demo_unique : (demoActions.foldl World.next (.fresh demoFile)).Unique :=
  identifiers_unique (steps_foldl (by simp [demoActions, Action.Reliable, demoIo]) _) (by decide)

def unreadActions : List Action := [.request demoCreate demoIo, .restart false, .request demoCreate demoIo]

theorem unread_vmIds :
    (unreadActions.foldl World.next (.fresh demoFile)).issued.map Prod.fst = ["vm-0001", "vm-0001"] := by decide

theorem demoCreate_allocates : demoCreate.allocates = true := rfl

theorem register_counters (s : ServerState) (vmId : String) (config : VmRecordConfig) (limit : Option UInt32)
    (failure : String) (result : Except String UInt32) :
    (s.register vmId config limit failure result).1.nextId = s.nextId ∧
      (s.register vmId config limit failure result).1.nextCid = s.nextCid := by
  cases result with
  | error e => exact ⟨rfl, rfl⟩
  | ok pid => exact ⟨rfl, rfl⟩

theorem next_counters {w : World} {n : Nat} (io : Io) {req : Request} (hreq : req.allocates = true)
    (hid : w.server.nextId = UInt64.ofNat (n + 1)) (hcid : w.server.nextCid = UInt64.ofNat (n + 3)) :
    (w.next (.request req io)).server.nextId = UInt64.ofNat (n + 2) ∧
      (w.next (.request req io)).server.nextCid = UInt64.ofNat (n + 4) ∧
      (w.next (.request req io)).issued =
        (vmName (UInt64.ofNat (n + 1)), UInt64.ofNat (n + 3)) :: w.issued := by
  obtain ⟨config, limit, failure, args, hnext⟩ := next_allocates w io hreq
  rw [allocate_counters hid hcid] at hnext
  dsimp only at hnext
  rw [hnext]
  exact ⟨(register_counters _ _ _ _ _ _).1, (register_counters _ _ _ _ _ _).2, rfl⟩

/-- As many creations without a restart. The counters wrap. -/
def creations (n : Nat) : List Action := List.replicate n (.request demoCreate demoIo)

theorem creations_succ (n : Nat) :
    (creations (n + 1)).foldl World.next (.fresh demoFile) =
      ((creations n).foldl World.next (.fresh demoFile)).next (.request demoCreate demoIo) := by
  rw [creations, List.replicate_succ', List.foldl_append]
  rfl

theorem creations_counters (n : Nat) :
    ((creations n).foldl World.next (.fresh demoFile)).server.nextId = UInt64.ofNat (n + 1) ∧
      ((creations n).foldl World.next (.fresh demoFile)).server.nextCid = UInt64.ofNat (n + 3) := by
  induction n with
  | zero => exact ⟨rfl, rfl⟩
  | succ n ih =>
    rw [creations_succ]
    have hnext := next_counters demoIo demoCreate_allocates ih.1 ih.2
    exact ⟨hnext.1, hnext.2.1⟩

theorem creations_issued (n : Nat) :
    ((creations (n + 1)).foldl World.next (.fresh demoFile)).issued.head?.map Prod.snd =
      some (UInt64.ofNat (n + 3)) := by
  obtain ⟨hid, hcid⟩ := creations_counters n
  rw [creations_succ, (next_counters demoIo demoCreate_allocates hid hcid).2.2]
  rfl

theorem creations_written (n : Nat) : ∀ a ∈ creations n, a.Reliable := by
  intro a ha
  rw [List.eq_of_mem_replicate ha]
  rfl

theorem identifiers_reused :
    (∃ as w, Steps (fun s a t => World.Step s a t ∧ a.Written) (.fresh demoFile) as w ∧ ¬ w.Unique) ∧
      ∃ as w, Steps (fun s a t => World.Step s a t ∧ a.Reliable) (.fresh demoFile) as w ∧ ¬ w.Unique := by
  constructor
  · refine ⟨unreadActions, _, steps_foldl (by simp [unreadActions, Action.Written, demoIo]) _, fun hunique => ?_⟩
    have hnodup := hunique.vmIds
    rw [unread_vmIds] at hnodup
    exact absurd hnodup (by decide)
  · refine ⟨creations (capacity + 1), _, steps_foldl (creations_written _) _, fun hunique => ?_⟩
    obtain ⟨id, hid, hcid⟩ := Option.map_eq_some_iff.mp (creations_issued capacity)
    have hthree := hunique.guestCids id (List.mem_of_head? hid)
    rw [hcid] at hthree
    exact absurd hthree (by decide)

end CloneVmm.Control.Daemon
