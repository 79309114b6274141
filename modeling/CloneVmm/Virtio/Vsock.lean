import CloneVmm.Virtio.RawQueue
import Mathlib.Logic.Function.Basic

/-!
`virtio/vsock.rs`: the packets of the guest, the one connection they belong to, and the socket to the agent listener. The
device keeps its end of the socket pair open for as long as it lives.
-/

namespace CloneVmm.Virtio.Vsock

open CloneVmm.Lib Raw

def rxQueue : Nat := 0
def txQueue : Nat := 1
def eventQueue : Nat := 2

def hdrSize : Nat := 44
def vsockHostCid : UInt64 := 2
def vsockTypeStream : UInt16 := 1

def opRequest : UInt16 := 1
def opResponse : UInt16 := 2
def opRst : UInt16 := 3
def opShutdown : UInt16 := 4
def opRw : UInt16 := 5
def opCreditUpdate : UInt16 := 6
def opCreditRequest : UInt16 := 7

structure VsockHdr where
  srcCid : UInt64 := 0
  dstCid : UInt64 := 0
  srcPort : UInt32 := 0
  dstPort : UInt32 := 0
  len : UInt32 := 0
  type : UInt16 := 0
  op : UInt16 := 0
  flags : UInt32 := 0
  bufAlloc : UInt32 := 0
  fwdCnt : UInt32 := 0

namespace VsockHdr

def field (data : List UInt8) (offset width : Nat) : Nat := leNat ((data.drop offset).take width)

def readFrom (data : List UInt8) : Option VsockHdr :=
  if data.length < hdrSize then none
  else some {
    srcCid := .ofNat (field data 0 8)
    dstCid := .ofNat (field data 8 8)
    srcPort := .ofNat (field data 16 4)
    dstPort := .ofNat (field data 20 4)
    len := .ofNat (field data 24 4)
    type := .ofNat (field data 28 2)
    op := .ofNat (field data 30 2)
    flags := .ofNat (field data 32 4)
    bufAlloc := .ofNat (field data 36 4)
    fwdCnt := .ofNat (field data 40 4) }

def toBytes (h : VsockHdr) : List UInt8 :=
  leBytes 8 h.srcCid.toNat ++ leBytes 8 h.dstCid.toNat ++ leBytes 4 h.srcPort.toNat ++ leBytes 4 h.dstPort.toNat ++
    leBytes 4 h.len.toNat ++ leBytes 2 h.type.toNat ++ leBytes 2 h.op.toNat ++ leBytes 4 h.flags.toNat ++
    leBytes 4 h.bufAlloc.toNat ++ leBytes 4 h.fwdCnt.toNat

theorem toBytes_length (h : VsockHdr) : h.toBytes.length = hdrSize := by
  simp only [toBytes, List.length_append, leBytes_length]
  rfl

theorem field_here (width value : Nat) (rest : List UInt8) :
    field (leBytes width value ++ rest) 0 width = value % 256 ^ width := by
  have htake : (leBytes width value ++ rest).take width = leBytes width value :=
    List.take_left' (leBytes_length width value)
  rw [field, List.drop_zero, htake, leNat_leBytes]

theorem field_later {n offset : Nat} (width value : Nat) (rest : List UInt8) (h : n ≤ offset) :
    field (leBytes n value ++ rest) offset width = field rest (offset - n) width := by
  have hdrop : (leBytes n value ++ rest).drop offset = rest.drop (offset - n) := by
    rw [List.drop_append, leBytes_length, List.drop_eq_nil_of_le (by rwa [leBytes_length]), List.nil_append]
  rw [field, field, hdrop]

theorem readFrom_toBytes (h : VsockHdr) (rest : List UInt8) : readFrom (h.toBytes ++ rest) = some h := by
  have hlength : ¬ (h.toBytes ++ rest).length < hdrSize := by
    rw [List.length_append, toBytes_length]
    omega
  have h64 : ∀ x : UInt64, UInt64.ofNat (x.toNat % 256 ^ 8) = x := by
    intro x
    have hlt : x.toNat < 256 ^ 8 := x.toNat_lt
    rw [Nat.mod_eq_of_lt hlt, UInt64.ofNat_toNat]
  have h32 : ∀ x : UInt32, UInt32.ofNat (x.toNat % 256 ^ 4) = x := by
    intro x
    have hlt : x.toNat < 256 ^ 4 := x.toNat_lt
    rw [Nat.mod_eq_of_lt hlt, UInt32.ofNat_toNat]
  have h16 : ∀ x : UInt16, UInt16.ofNat (x.toNat % 256 ^ 2) = x := by
    intro x
    have hlt : x.toNat < 256 ^ 2 := x.toNat_lt
    rw [Nat.mod_eq_of_lt hlt, UInt16.ofNat_toNat]
  unfold readFrom
  rw [if_neg hlength]
  simp (disch := decide) only [toBytes, List.append_assoc, field_here, field_later, Nat.reduceSub, h64, h32, h16]

end VsockHdr

structure VsockConn where
  guestPort : UInt32
  hostPort : UInt32
  peerBufAlloc : UInt32
  peerFwdCnt : UInt32
  txCnt : UInt32
  bufAlloc : UInt32
  fwdCnt : UInt32
  deriving DecidableEq

def saturatingSub (a b : UInt32) : UInt32 := if b ≤ a then a - b else 0

def VsockConn.peerFree (conn : VsockConn) : UInt32 := saturatingSub conn.peerBufAlloc (conn.txCnt - conn.peerFwdCnt)

structure Chunk where
  bytes : List UInt8
  pos : 0 < bytes.length
  le : bytes.length ≤ 4096

/-- `incoming` is what the next reads of the socket give until one would block; `accepts` is how much the next writes
take, where one that takes nothing has failed. `written` went into the socket so far, and `signals` counts the
interrupts. -/
structure VirtioVsock where
  guestCid : UInt64
  activated : Bool
  queueConfigs : List QueueInfo
  layout : GuestLayout
  lastAvail : Nat → UInt16
  lastUsed : Nat → UInt16
  conn : Option VsockConn
  pendingRx : List (List UInt8)
  incoming : List Chunk
  accepts : List Nat
  written : List UInt8
  signals : Nat

namespace VirtioVsock

def makeHdr (d : VirtioVsock) (conn : VsockConn) (op : UInt16) (payloadLen : UInt32) : VsockHdr where
  srcCid := vsockHostCid
  dstCid := d.guestCid
  srcPort := conn.hostPort
  dstPort := conn.guestPort
  len := payloadLen
  type := vsockTypeStream
  op := op
  bufAlloc := conn.bufAlloc
  fwdCnt := conn.fwdCnt

def pushBack (d : VirtioVsock) (pkt : List UInt8) : VirtioVsock := { d with pendingRx := d.pendingRx ++ [pkt] }

def enqueueHdr (d : VirtioVsock) (op : UInt16) : VirtioVsock :=
  match d.conn with
  | some conn => d.pushBack (d.makeHdr conn op 0).toBytes
  | none => d

def rstHdr (d : VirtioVsock) (guestPort hostPort : UInt32) : VsockHdr where
  srcCid := vsockHostCid
  dstCid := d.guestCid
  srcPort := hostPort
  dstPort := guestPort
  type := vsockTypeStream
  op := opRst

def enqueueRstFor (d : VirtioVsock) (guestPort hostPort : UInt32) : VirtioVsock :=
  d.pushBack (d.rstHdr guestPort hostPort).toBytes

def writeAll : List Nat → List UInt8 → List UInt8 × List Nat
  | [], _ => ([], [])
  | n :: accepts, payload =>
    if payload.isEmpty then ([], n :: accepts)
    else if n = 0 then ([], accepts)
    else
      let (taken, accepts) := writeAll accepts (payload.drop n)
      (payload.take n ++ taken, accepts)

def forward (d : VirtioVsock) (payload : List UInt8) : VirtioVsock :=
  let (taken, accepts) := writeAll d.accepts payload
  { d with written := d.written ++ taken, accepts }

def connect (d : VirtioVsock) (guestPort hostPort : UInt32) (hdr : VsockHdr) : VirtioVsock :=
  { d with
    pendingRx := []
    incoming := []
    conn := some {
      guestPort, hostPort
      peerBufAlloc := hdr.bufAlloc
      peerFwdCnt := hdr.fwdCnt
      txCnt := 0
      bufAlloc := 64 * 1024
      fwdCnt := 0 } }

def receiveRw (d : VirtioVsock) (guestPort hostPort : UInt32) (payload : List UInt8) (hdr : VsockHdr) : VirtioVsock :=
  match d.conn with
  | some conn =>
    if conn.guestPort ≠ guestPort then d.enqueueRstFor guestPort hostPort
    else
      let conn := { conn with
        peerBufAlloc := hdr.bufAlloc
        peerFwdCnt := hdr.fwdCnt
        fwdCnt := conn.fwdCnt + .ofNat payload.length }
      { d with conn := some conn }.forward payload
  | none => d.enqueueRstFor guestPort hostPort

def disconnect (d : VirtioVsock) (guestPort hostPort : UInt32) : VirtioVsock :=
  match d.conn with
  | some conn =>
    if conn.guestPort = guestPort then { d.enqueueRstFor guestPort hostPort with conn := none } else d
  | none => d

def creditUpdate (d : VirtioVsock) (hdr : VsockHdr) : VirtioVsock :=
  { d with conn := d.conn.map fun conn => { conn with peerBufAlloc := hdr.bufAlloc, peerFwdCnt := hdr.fwdCnt } }

def handleTxOp (d : VirtioVsock) (op : UInt16) (guestPort hostPort : UInt32) (payload : List UInt8) (hdr : VsockHdr) :
    VirtioVsock :=
  if op = opRequest then (d.connect guestPort hostPort hdr).enqueueHdr opResponse
  else if op = opRw then d.receiveRw guestPort hostPort payload hdr
  else if op = opShutdown ∨ op = opRst then d.disconnect guestPort hostPort
  else if op = opCreditUpdate then d.creditUpdate hdr
  else if op = opCreditRequest then d.enqueueHdr opCreditUpdate
  else d

def payloadOf (hdr : VsockHdr) (data : List UInt8) : List UInt8 :=
  if hdrSize + hdr.len.toNat ≤ data.length then (data.drop hdrSize).take hdr.len.toNat else []

def receive (d : VirtioVsock) (data : List UInt8) : VirtioVsock :=
  match VsockHdr.readFrom data with
  | some hdr => d.handleTxOp hdr.op hdr.srcPort hdr.dstPort (payloadOf hdr data) hdr
  | none => d

def readChunk (d : VirtioVsock) (conn : VsockConn) (chunk : Chunk) (rest : List Chunk) : VirtioVsock :=
  let d := { d with incoming := rest }
  let canSend := min conn.peerFree.toNat chunk.bytes.length
  if canSend = 0 then d.enqueueHdr opCreditRequest
  else
    let send := chunk.bytes.take canSend
    let pkt := (d.makeHdr conn opRw (.ofNat send.length)).toBytes ++ send
    { d.pushBack pkt with conn := some { conn with txCnt := conn.txCnt + .ofNat send.length } }

def readChunks : Nat → VirtioVsock → VirtioVsock
  | 0, d => d
  | left + 1, d =>
    match d.conn, d.incoming with
    | some conn, chunk :: rest =>
      if min conn.peerFree.toNat chunk.bytes.length = 0 then d.readChunk conn chunk rest
      else readChunks left (d.readChunk conn chunk rest)
    | _, _ => d

def readAgentData (d : VirtioVsock) : VirtioVsock := readChunks d.incoming.length d

def setLastAvail (d : VirtioVsock) (qi : Nat) (idx : UInt16) : VirtioVsock :=
  { d with lastAvail := Function.update d.lastAvail qi idx }

def setLastUsed (d : VirtioVsock) (qi : Nat) (idx : UInt16) : VirtioVsock :=
  { d with lastUsed := Function.update d.lastUsed qi idx }

def gather : Visit (List UInt8) where
  needs desc _ := if desc.flags &&& vringDescFWrite = 0 then desc.len else 0
  copy offset desc s := if desc.flags &&& vringDescFWrite = 0 then (s.1, s.2 ++ readBytes s.1 offset desc.len) else s

def roomFor (desc : Descriptor) (remaining : List UInt8) : Nat := min remaining.length desc.len

def scatter : Visit (List UInt8 × UInt32) where
  needs desc p := if desc.flags &&& vringDescFWrite ≠ 0 ∧ p.1 ≠ [] then roomFor desc p.1 else 0
  copy offset desc s :=
    if desc.flags &&& vringDescFWrite ≠ 0 ∧ s.2.1 ≠ [] then
      let n := roomFor desc s.2.1
      (writeBytes s.1 offset (s.2.1.take n), s.2.1.drop n, s.2.2 + .ofNat n)
    else s

structure State where
  dev : VirtioVsock
  mem : ByteStore

def complete (d : VirtioVsock) (qi : Nat) (q : QueueInfo) (mem : ByteStore) (descIdx len : Nat) : Except Raw.Fault State := do
  let mem ← pushUsed d.layout q mem (d.lastUsed qi).toNat descIdx len
  return ⟨d.setLastUsed qi (d.lastUsed qi + 1), mem⟩

def txTurn (q : QueueInfo) (fuel : Nat) (s : State) : Option (Except Raw.Fault State) :=
  match readAvailRingEntry s.dev.layout q s.mem (s.dev.lastAvail txQueue).toNat with
  | .error fault => some (.error fault)
  | .ok descIdx =>
    let dev := s.dev.setLastAvail txQueue (s.dev.lastAvail txQueue + 1)
    match walk dev.layout q gather fuel descIdx (s.mem, []) with
    | none => none
    | some (.error fault) => some (.error fault)
    | some (.ok (mem, data)) =>
      some ((dev.complete txQueue q mem descIdx 0).map fun s => { s with dev := s.dev.receive data })

def processTx (fuel : Nat) (s : State) : Option (Except Raw.Fault State) :=
  match s.dev.queueConfigs[txQueue]? with
  | none => some (.ok s)
  | some q =>
    match readAvailIdx s.dev.layout q s.mem with
    | .error fault => some (.error fault)
    | .ok availIdx => Loop.run (fun s => (s.dev.lastAvail txQueue).toNat != availIdx) (txTurn q) fuel s

def rxTurn (q : QueueInfo) (fuel : Nat) (s : State) : Option (Except Raw.Fault State) :=
  match readAvailRingEntry s.dev.layout q s.mem (s.dev.lastAvail rxQueue).toNat with
  | .error fault => some (.error fault)
  | .ok descIdx =>
    let dev := { s.dev.setLastAvail rxQueue (s.dev.lastAvail rxQueue + 1) with pendingRx := s.dev.pendingRx.tail }
    match walk dev.layout q scatter fuel descIdx (s.mem, s.dev.pendingRx.headD [], 0) with
    | none => none
    | some (.error fault) => some (.error fault)
    | some (.ok (mem, _, totalWritten)) => some (dev.complete rxQueue q mem descIdx totalWritten.toNat)

def processRx (fuel : Nat) (s : State) : Option (Except Raw.Fault State) :=
  match s.dev.queueConfigs[rxQueue]? with
  | none => some (.ok s)
  | some q =>
    let s := { s with dev := s.dev.readAgentData }
    match readAvailIdx s.dev.layout q s.mem with
    | .error fault => some (.error fault)
    | .ok availIdx =>
      Loop.run (fun s => (s.dev.lastAvail rxQueue).toNat != availIdx && !s.dev.pendingRx.isEmpty) (rxTurn q) fuel s

def signalGuest (d : VirtioVsock) : VirtioVsock := { d with signals := d.signals + 1 }

/-- After the transmit queue the guest is signalled in either case of the source. -/
def processQueue (fuel : Nat) (s : State) (queueIdx : Nat) : Option (Except Raw.Fault State) :=
  if !s.dev.activated || !s.dev.layout.hasMem then some (.ok s)
  else if queueIdx = txQueue then
    match processTx fuel s with
    | none => none
    | some (.error fault) => some (.error fault)
    | some (.ok s) => (processRx fuel s).map fun result => result.map fun s => { s with dev := s.dev.signalGuest }
  else if queueIdx = rxQueue then
    match processRx fuel s with
    | none => none
    | some (.error fault) => some (.error fault)
    | some (.ok s) =>
      match s.dev.queueConfigs[rxQueue]? with
      | none => some (.error .noQueue)
      | some q =>
        some ((readAvailIdx s.dev.layout q s.mem).map fun availIdx =>
          if (s.dev.lastUsed rxQueue).toNat ≠ availIdx then { s with dev := s.dev.signalGuest } else s)
  else some (.ok s)

def new (guestCid : UInt64) : VirtioVsock where
  guestCid
  activated := false
  queueConfigs := []
  layout := ⟨false, 0, 0, 0⟩
  lastAvail _ := 0
  lastUsed _ := 0
  conn := none
  pendingRx := []
  incoming := []
  accepts := []
  written := []
  signals := 0

def setMemoryHole (d : VirtioVsock) (holeStart holeEnd : Nat) : VirtioVsock :=
  { d with layout := { d.layout with holeStart, holeEnd } }

def prepareQueue (mem : ByteStore) (d : VirtioVsock) (entry : QueueInfo × Nat) : Except Raw.Fault VirtioVsock :=
  let (q, qi) := entry
  if qi < 3 ∧ d.layout.hasMem ∧ q.availAddr ≠ 0 then do
    let availIdx ← readAvailIdx d.layout q mem
    let usedIdx ← readUsedIdx d.layout q mem
    return (d.setLastUsed qi (.ofNat usedIdx)).setLastAvail qi (.ofNat (if qi = txQueue then availIdx else usedIdx))
  else return d

def prepareActivate (d : VirtioVsock) (queues : List QueueInfo) (hasMem : Bool) (memSize : Nat) (mem : ByteStore) :
    Except Raw.Fault VirtioVsock :=
  queues.zipIdx.foldlM (prepareQueue mem)
    { d with queueConfigs := queues, layout := { d.layout with hasMem, guestMemSize := memSize } }

def activate (d : VirtioVsock) : VirtioVsock := { d with activated := true }

def reset (d : VirtioVsock) : VirtioVsock := { d with activated := false, conn := none, pendingRx := [] }

def writeReset (l : GuestLayout) (mem : ByteStore) (desc : Descriptor) : Except Raw.Fault ByteStore :=
  if desc.flags &&& vringDescFWrite ≠ 0 ∧ 4 ≤ desc.len then store l mem (gpaToPtr l desc.addr) (leBytes 4 0)
  else return mem

def sendTransportReset (s : State) : Except Raw.Fault State :=
  match s.dev.layout.hasMem, s.dev.queueConfigs[eventQueue]? with
  | true, some q => do
    let l := s.dev.layout
    let availIdx ← readAvailIdx l q s.mem
    if (s.dev.lastAvail eventQueue).toNat = availIdx then return s
    else
      let descIdx ← readAvailRingEntry l q s.mem (s.dev.lastAvail eventQueue).toNat
      let dev := s.dev.setLastAvail eventQueue (s.dev.lastAvail eventQueue + 1)
      let desc ← readDescriptor l q s.mem descIdx
      let mem ← writeReset l s.mem desc
      let t ← dev.complete eventQueue q mem descIdx 4
      return { t with dev := { t.dev with conn := none, pendingRx := [] } }
  | _, _ => return s

end VirtioVsock

end CloneVmm.Virtio.Vsock
