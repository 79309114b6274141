import CloneVmm.Lib.Run
import CloneVmm.Virtio.PrivateWalks

namespace CloneVmm.Virtio.Vsock

open CloneVmm.Lib Raw CloneVmm.Virtio.Vsock.VirtioVsock

/-- `read` came out of the socket, and of it `delivered` went into buffers of the guest. `sent` is what the guest sent, and
the socket has taken what it was written after the first `mark` bytes. -/
structure Session where
  dev : VirtioVsock
  mem : ByteStore
  read : List UInt8
  delivered : List UInt8
  sent : List UInt8
  mark : Nat

inductive Action
  | guest (mem : ByteStore)
  | agent (incoming : List Chunk) (accepts : List Nat)
  | setMemoryHole (holeStart holeEnd : Nat)
  | prepareActivate (queues : List QueueInfo) (hasMem : Bool) (memSize : Nat)
  | activate
  | reset
  | sendTransportReset
  | read
  | place (fuel : Nat)
  | take (fuel : Nat)
  | signalGuest

namespace Session

def start (guestCid : UInt64) (mem : ByteStore) : Session := ⟨.new guestCid, mem, [], [], [], 0⟩

def core (s : Session) : State := ⟨s.dev, s.mem⟩

def withCore (s : Session) (t : State) : Session := { s with dev := t.dev, mem := t.mem }

def handed (s : Session) : List UInt8 := s.dev.written.drop s.mark

def gathered (s : Session) (q : QueueInfo) (fuel : Nat) : List UInt8 :=
  match walk s.dev.layout q gather fuel (entryOf s.dev.layout q s.mem (s.dev.lastAvail txQueue).toNat) (s.mem, []) with
  | some (.ok (_, data)) => data
  | _ => []

def buffers (s : Session) (q : QueueInfo) (fuel : Nat) : List Descriptor :=
  descriptors s.dev.layout q scatter fuel (entryOf s.dev.layout q s.mem (s.dev.lastAvail rxQueue).toNat)
    (s.mem, s.dev.pendingRx.headD [], 0)

def placed (s : Session) (q : QueueInfo) (fuel : Nat) : List UInt8 :=
  let pkt := s.dev.pendingRx.headD []
  match walk s.dev.layout q scatter fuel (entryOf s.dev.layout q s.mem (s.dev.lastAvail rxQueue).toNat)
    (s.mem, pkt, 0) with
  | some (.ok (_, rest, _)) => pkt.take (pkt.length - rest.length)
  | _ => []

def ofConn (conn : VsockConn) (hdr : VsockHdr) : Prop := conn.guestPort = hdr.srcPort ∧ conn.hostPort = hdr.dstPort

instance (conn : VsockConn) (hdr : VsockHdr) : Decidable (ofConn conn hdr) := inferInstanceAs (Decidable (_ ∧ _))

def onPacket (s : Session) (t : State) (data : List UInt8) : Session :=
  match VsockHdr.readFrom data with
  | none => s.withCore t
  | some hdr =>
    if hdr.op = opRequest then ⟨t.dev, t.mem, [], [], [], t.dev.written.length⟩
    else if hdr.op = opRw ∧ s.dev.conn.any (fun conn => decide (ofConn conn hdr)) then
      { s.withCore t with sent := s.sent ++ payloadOf hdr data }
    else s.withCore t

def next (s : Session) : Action → Option Session
  | .guest mem => some { s with mem }
  | .agent incoming accepts => some { s with dev := { s.dev with incoming, accepts } }
  | .setMemoryHole holeStart holeEnd => some { s with dev := s.dev.setMemoryHole holeStart holeEnd }
  | .prepareActivate queues hasMem memSize =>
    match s.dev.prepareActivate queues hasMem memSize s.mem with
    | .ok dev => some { s with dev }
    | .error _ => none
  | .activate => some { s with dev := s.dev.activate }
  | .reset => some { s with dev := s.dev.reset }
  | .sendTransportReset =>
    match VirtioVsock.sendTransportReset s.core with
    | .ok t => some (s.withCore t)
    | .error _ => none
  | .read =>
    match s.dev.conn, s.dev.incoming with
    | some conn, chunk :: rest =>
      some { s with dev := s.dev.readChunk conn chunk rest, read := s.read ++ chunk.bytes }
    | _, _ => none
  | .place fuel =>
    match s.dev.queueConfigs[rxQueue]?, s.dev.pendingRx with
    | some q, _ :: _ =>
      match rxTurn q fuel s.core with
      | some (.ok t) => some { s.withCore t with delivered := s.delivered ++ (s.placed q fuel).drop hdrSize }
      | _ => none
    | _, _ => none
  | .take fuel =>
    match s.dev.queueConfigs[txQueue]? with
    | some q =>
      match txTurn q fuel s.core with
      | some (.ok t) => some (s.onPacket t (s.gathered q fuel))
      | _ => none
    | none => none
  | .signalGuest => some { s with dev := s.dev.signalGuest }

end Session

namespace VirtioVsock

structure SameStreams (d e : VirtioVsock) : Prop where
  conn : e.conn = d.conn
  pendingRx : e.pendingRx = d.pendingRx
  written : e.written = d.written

theorem SameStreams.trans {d e f : VirtioVsock} (h : SameStreams d e) (h' : SameStreams e f) : SameStreams d f :=
  ⟨h'.1.trans h.1, h'.2.trans h.2, h'.3.trans h.3⟩

def Synced (d : VirtioVsock) : Prop := d.lastUsed rxQueue = d.lastAvail rxQueue

theorem prepareQueue_ok {mem : ByteStore} {d e : VirtioVsock} {entry : QueueInfo × Nat}
    (h : prepareQueue mem d entry = .ok e) : SameStreams d e ∧ (d.Synced → e.Synced) := by
  obtain ⟨q, qi⟩ := entry
  unfold prepareQueue at h
  dsimp only at h
  split at h
  · simp only [exceptBind_eq_ok, pure, Except.pure, Except.ok.injEq] at h
    obtain ⟨availIdx, -, usedIdx, -, rfl⟩ := h
    refine ⟨⟨rfl, rfl, rfl⟩, fun hsynced => ?_⟩
    unfold Synced at hsynced ⊢
    by_cases hqi : rxQueue = qi
    · subst hqi
      simp [setLastAvail, setLastUsed, rxQueue, txQueue]
    · simpa [setLastAvail, setLastUsed, Function.update_of_ne hqi] using hsynced
  · cases h
    exact ⟨⟨rfl, rfl, rfl⟩, id⟩

theorem prepareActivate_ok {d e : VirtioVsock} {queues : List QueueInfo} {hasMem : Bool} {memSize : Nat}
    {mem : ByteStore} (h : d.prepareActivate queues hasMem memSize mem = .ok e) :
    SameStreams d e ∧ (d.Synced → e.Synced) := by
  unfold prepareActivate at h
  have hfold : ∀ (entries : List (QueueInfo × Nat)) (d e : VirtioVsock),
      entries.foldlM (prepareQueue mem) d = .ok e → SameStreams d e ∧ (d.Synced → e.Synced) := by
    intro entries
    induction entries with
    | nil =>
      rintro d e h
      cases h
      exact ⟨⟨rfl, rfl, rfl⟩, id⟩
    | cons entry entries ih =>
      intro d e h
      rw [List.foldlM_cons, exceptBind_eq_ok] at h
      obtain ⟨f, hf, hrest⟩ := h
      have hhead := prepareQueue_ok hf
      have htail := ih f e hrest
      exact ⟨hhead.1.trans htail.1, htail.2 ∘ hhead.2⟩
  obtain ⟨⟨hconn, hpending, hwritten⟩, hsynced⟩ := hfold _ _ e h
  exact ⟨⟨hconn, hpending, hwritten⟩, hsynced⟩

theorem sendTransportReset_ok {s t : State} (h : sendTransportReset s = .ok t) :
    (t = s ∨ t.dev.conn = none ∧ t.dev.written = s.dev.written) ∧ (s.dev.Synced → t.dev.Synced) := by
  unfold sendTransportReset at h
  split at h
  · simp only [exceptBind_eq_ok] at h
    obtain ⟨availIdx, -, h⟩ := h
    split at h
    · cases h
      exact ⟨.inl rfl, id⟩
    · simp only [exceptBind_eq_ok, complete_eq_ok] at h
      obtain ⟨descIdx, -, desc, -, mem, -, u, ⟨mem', -, rfl⟩, hlast⟩ := h
      cases hlast
      refine ⟨.inr ⟨rfl, rfl⟩, fun hsynced => ?_⟩
      simpa [Synced, setLastAvail, setLastUsed, rxQueue, eventQueue] using hsynced
  · cases h
    exact ⟨.inl rfl, id⟩

theorem rxTurn_dev {s t : State} {q : QueueInfo} {fuel : Nat} (h : rxTurn q fuel s = some (.ok t)) :
    t.dev = { s.dev with
      pendingRx := s.dev.pendingRx.tail
      lastAvail := Function.update s.dev.lastAvail rxQueue (s.dev.lastAvail rxQueue + 1)
      lastUsed := Function.update s.dev.lastUsed rxQueue (s.dev.lastUsed rxQueue + 1) } := by
  obtain ⟨head, rest, totalWritten, mem, -, -, hdone⟩ := rxTurn_eq_ok.mp h
  obtain ⟨mem', -, rfl⟩ := complete_eq_ok.mp hdone
  rfl

theorem receive_withIndices (d : VirtioVsock) (lastAvail lastUsed : Nat → UInt16) (data : List UInt8) :
    receive { d with lastAvail, lastUsed } data = { d.receive data with lastAvail, lastUsed } := by
  have henqueue : ∀ (d : VirtioVsock) (op : UInt16),
      enqueueHdr { d with lastAvail, lastUsed } op = { d.enqueueHdr op with lastAvail, lastUsed } := by
    rintro ⟨guestCid, activated, queueConfigs, layout, avail, used, conn, pendingRx, incoming, accepts, written, signals⟩ op
    cases conn with
    | none => rfl
    | some conn => rfl
  unfold receive
  cases VsockHdr.readFrom data with
  | none => rfl
  | some hdr =>
    dsimp only
    unfold handleTxOp
    split_ifs
    · exact henqueue (d.connect hdr.srcPort hdr.dstPort hdr) opResponse
    · obtain ⟨guestCid, activated, queueConfigs, layout, avail, used, conn, pendingRx, incoming, accepts, written,
        signals⟩ := d
      unfold receiveRw
      cases conn with
      | none => rfl
      | some conn =>
        dsimp only
        split
        · rfl
        · rfl
    · obtain ⟨guestCid, activated, queueConfigs, layout, avail, used, conn, pendingRx, incoming, accepts, written,
        signals⟩ := d
      unfold disconnect
      cases conn with
      | none => rfl
      | some conn =>
        dsimp only
        split
        · rfl
        · rfl
    · rfl
    · exact henqueue d opCreditUpdate
    · rfl

end VirtioVsock

namespace Session

variable {s : Session} {t : State} {q : QueueInfo} {fuel : Nat}

theorem txTurn_dev (h : txTurn q fuel s.core = some (.ok t)) :
    t.dev = { s.dev.receive (s.gathered q fuel) with
      lastAvail := Function.update s.dev.lastAvail txQueue (s.dev.lastAvail txQueue + 1)
      lastUsed := Function.update s.dev.lastUsed txQueue (s.dev.lastUsed txQueue + 1) } := by
  obtain ⟨head, data, mem, u, hhead, hwalk, hdone, rfl⟩ := txTurn_eq_ok.mp h
  obtain ⟨mem', -, rfl⟩ := complete_eq_ok.mp hdone
  obtain ⟨-, rfl⟩ := readAvailRingEntry_eq_ok.mp hhead
  have hdata : s.gathered q fuel = data := by
    unfold gathered
    unfold core at hwalk
    rw [hwalk]
  rw [hdata]
  exact receive_withIndices s.dev _ _ data

theorem rxTurn_dev (h : rxTurn q fuel s.core = some (.ok t)) :
    t.dev = { s.dev with
      pendingRx := s.dev.pendingRx.tail
      lastAvail := Function.update s.dev.lastAvail rxQueue (s.dev.lastAvail rxQueue + 1)
      lastUsed := Function.update s.dev.lastUsed rxQueue (s.dev.lastUsed rxQueue + 1) } :=
  VirtioVsock.rxTurn_dev h

def moves : Action → Bool
  | .read | .place _ | .take _ => true
  | _ => false

inductive Effect (s : Session) : Action → Session → Prop
  | same {a : Action} {dev : VirtioVsock} {mem : ByteStore} (ha : moves a = false) (hsame : SameStreams s.dev dev)
      (hsynced : s.dev.Synced → dev.Synced) : Effect s a { s with dev, mem }
  | closed {a : Action} {dev : VirtioVsock} {mem : ByteStore} (ha : moves a = false) (hconn : dev.conn = none)
      (hwritten : dev.written = s.dev.written) (hsynced : s.dev.Synced → dev.Synced) : Effect s a { s with dev, mem }
  | read {conn : VsockConn} {chunk : Chunk} {rest : List Chunk} (hconn : s.dev.conn = some conn)
      (hincoming : s.dev.incoming = chunk :: rest) :
      Effect s .read { s with dev := s.dev.readChunk conn chunk rest, read := s.read ++ chunk.bytes }
  | place {fuel : Nat} {q : QueueInfo} {pkt : List UInt8} {rest : List (List UInt8)} {u : State}
      (hq : s.dev.queueConfigs[rxQueue]? = some q) (hpending : s.dev.pendingRx = pkt :: rest)
      (hturn : rxTurn q fuel s.core = some (.ok u)) :
      Effect s (.place fuel) { s.withCore u with delivered := s.delivered ++ (s.placed q fuel).drop hdrSize }
  | take {fuel : Nat} {q : QueueInfo} {u : State} (hq : s.dev.queueConfigs[txQueue]? = some q)
      (hturn : txTurn q fuel s.core = some (.ok u)) : Effect s (.take fuel) (s.onPacket u (s.gathered q fuel))

theorem next_effect {a : Action} {s' : Session} (hnext : s.next a = some s') : Effect s a s' := by
  cases a with
  | guest mem =>
    cases hnext
    exact .same rfl ⟨rfl, rfl, rfl⟩ id
  | agent incoming accepts =>
    cases hnext
    exact .same rfl ⟨rfl, rfl, rfl⟩ id
  | setMemoryHole holeStart holeEnd =>
    cases hnext
    exact .same rfl ⟨rfl, rfl, rfl⟩ id
  | prepareActivate queues hasMem memSize =>
    rw [next] at hnext
    split at hnext
    · rename_i dev hdev
      cases hnext
      exact .same rfl (prepareActivate_ok hdev).1 (prepareActivate_ok hdev).2
    · cases hnext
  | activate =>
    cases hnext
    exact .same rfl ⟨rfl, rfl, rfl⟩ id
  | reset =>
    cases hnext
    exact .closed rfl rfl rfl id
  | sendTransportReset =>
    rw [next] at hnext
    split at hnext
    · rename_i u hu
      cases hnext
      obtain ⟨hend, hsynced⟩ := sendTransportReset_ok hu
      rcases hend with rfl | ⟨hconn, hwritten⟩
      · exact .same rfl ⟨rfl, rfl, rfl⟩ id
      · exact .closed rfl hconn hwritten hsynced
    · cases hnext
  | read =>
    rw [next] at hnext
    split at hnext
    · rename_i conn chunk rest hconn hincoming
      cases hnext
      exact .read hconn hincoming
    · cases hnext
  | place fuel =>
    rw [next] at hnext
    split at hnext
    · rename_i q pkt rest hq hpending
      split at hnext
      · rename_i u hturn
        cases hnext
        exact .place hq hpending hturn
      · cases hnext
    · cases hnext
  | take fuel =>
    rw [next] at hnext
    split at hnext
    · rename_i q hq
      split at hnext
      · rename_i u hturn
        cases hnext
        exact .take hq hturn
      · cases hnext
    · cases hnext
  | signalGuest =>
    cases hnext
    exact .same rfl ⟨rfl, rfl, rfl⟩ id

def Runs : Session → List Action → Session → Prop := Steps fun s a t => s.next a = some t

theorem readChunks_runs (left : Nat) (s : Session) :
    ∃ as t, Runs s as t ∧ t.core = ⟨readChunks left s.dev, s.mem⟩ := by
  induction left generalizing s with
  | zero => exact ⟨[], s, .nil s, rfl⟩
  | succ left ih =>
    rw [readChunks.eq_def]
    dsimp only
    split
    · rename_i conn chunk rest hconn hincoming
      have hnext : s.next .read =
          some { s with dev := s.dev.readChunk conn chunk rest, read := s.read ++ chunk.bytes } := by
        simp only [next, hconn, hincoming]
      split
      · exact ⟨[.read], _, .cons hnext (.nil _), rfl⟩
      · obtain ⟨as, t, hruns, hcore⟩ := ih { s with dev := s.dev.readChunk conn chunk rest, read := s.read ++ chunk.bytes }
        exact ⟨.read :: as, t, .cons hnext hruns, hcore⟩
    · exact ⟨[], s, .nil s, rfl⟩

theorem place_next (hq : s.dev.queueConfigs[rxQueue]? = some q) (hpending : s.dev.pendingRx.isEmpty = false)
    (hturn : rxTurn q fuel s.core = some (.ok t)) :
    s.next (.place fuel) = some { s.withCore t with delivered := s.delivered ++ (s.placed q fuel).drop hdrSize } := by
  cases hpkts : s.dev.pendingRx with
  | nil =>
    rw [hpkts] at hpending
    cases hpending
  | cons pkt rest => simp only [next, hq, hpkts, hturn]

theorem take_next (hq : s.dev.queueConfigs[txQueue]? = some q) (hturn : txTurn q fuel s.core = some (.ok t)) :
    s.next (.take fuel) = some (s.onPacket t (s.gathered q fuel)) := by
  simp only [next, hq, hturn]

theorem onPacket_core (s : Session) (t : State) (data : List UInt8) : (s.onPacket t data).core = t := by
  unfold onPacket
  cases VsockHdr.readFrom data with
  | none => rfl
  | some hdr =>
    dsimp only
    split
    · rfl
    · split
      · rfl
      · rfl

theorem turns_runs {more : State → Bool} {turn : Nat → State → Option (Except Raw.Fault State)} {qi : Nat}
    (hstep : ∀ (s : Session) (t : State) (fuel : Nat), s.dev.queueConfigs[qi]? = some q → more s.core = true →
      turn fuel s.core = some (.ok t) →
        t.dev.queueConfigs[qi]? = some q ∧ ∃ a s', s.next a = some s' ∧ s'.core = t)
    (hq : s.dev.queueConfigs[qi]? = some q) (h : Relation.ReflTransGen (Loop.Turn more turn) s.core t) :
    ∃ as s', Runs s as s' ∧ s'.core = t := by
  generalize hcore : s.core = u at h
  induction h using Relation.ReflTransGen.head_induction_on generalizing s with
  | refl => exact ⟨[], s, .nil s, hcore⟩
  | head hturn _ ih =>
    subst hcore
    obtain ⟨hmore, fuel, hturn⟩ := hturn
    obtain ⟨hq', a, s', hnext, rfl⟩ := hstep s _ fuel hq hmore hturn
    obtain ⟨as, last, hruns, hlast⟩ := ih hq' rfl
    exact ⟨a :: as, last, .cons hnext hruns, hlast⟩

theorem processTx_runs (h : processTx fuel s.core = some (.ok t)) : ∃ as s', Runs s as s' ∧ s'.core = t := by
  unfold processTx at h
  split at h
  · cases h
    exact ⟨[], s, .nil s, rfl⟩
  · rename_i q hq
    split at h
    · cases h
    · refine turns_runs ?_ hq (Loop.turns_of_run h).1
      intro s t fuel hq _ hturn
      have hqueues : t.dev.queueConfigs = s.dev.queueConfigs := by
        rw [txTurn_dev hturn]
        exact (receive_sameQueues _ _).queueConfigs
      exact ⟨hqueues ▸ hq, _, _, take_next hq hturn, onPacket_core s t _⟩

theorem processRx_runs (h : processRx fuel s.core = some (.ok t)) : ∃ as s', Runs s as s' ∧ s'.core = t := by
  unfold processRx at h
  split at h
  · cases h
    exact ⟨[], s, .nil s, rfl⟩
  · rename_i q hq
    obtain ⟨as, s', hread, hcore⟩ := readChunks_runs s.dev.incoming.length s
    have hq' : s'.dev.queueConfigs[rxQueue]? = some q := by
      have hqueues : s'.dev.queueConfigs = s.dev.queueConfigs := by
        change s'.core.dev.queueConfigs = _
        rw [hcore]
        exact (readAgentData_sameQueues s.dev).queueConfigs
      exact hqueues ▸ hq
    dsimp only at h
    split at h
    · cases h
    · have hrun := (Loop.turns_of_run h).1
      have hfrom : s'.core = { s.core with dev := s.core.dev.readAgentData } := hcore
      rw [← hfrom] at hrun
      have hturns : ∃ bs u, Runs s' bs u ∧ u.core = t := by
        refine turns_runs ?_ hq' hrun
        intro s t fuel hq hmore hturn
        have hpending : s.core.dev.pendingRx.isEmpty = false := by simpa using (Bool.and_eq_true_iff.mp hmore).2
        have hqueues : t.dev.queueConfigs = s.dev.queueConfigs := by rw [rxTurn_dev hturn]
        exact ⟨hqueues ▸ hq, _, _, place_next hq hpending hturn, rfl⟩
      obtain ⟨bs, u, hbs, hu⟩ := hturns
      exact ⟨as ++ bs, u, hread.append hbs, hu⟩

theorem processQueue_runs {qi : Nat} (h : processQueue fuel s.core qi = some (.ok t)) :
    ∃ as s', Runs s as s' ∧ s'.core = t := by
  have hsignal : ∀ (s : Session) (t : State), s.core = t →
      ∃ as s', Runs s as s' ∧ s'.core = { t with dev := t.dev.signalGuest } := by
    rintro s t rfl
    exact ⟨[.signalGuest], { s with dev := s.dev.signalGuest }, .cons rfl (.nil _), rfl⟩
  unfold processQueue at h
  split at h
  · cases h
    exact ⟨[], s, .nil s, rfl⟩
  · split at h
    · split at h
      · cases h
      · cases h
      · rename_i u htx
        rw [Option.map_eq_some_iff] at h
        obtain ⟨result, hrx, hresult⟩ := h
        cases result with
        | error fault => cases hresult
        | ok v =>
          cases hresult
          obtain ⟨as, s', hs', rfl⟩ := processTx_runs htx
          obtain ⟨bs, s₂, hs₂, rfl⟩ := processRx_runs hrx
          obtain ⟨cs, s₃, hs₃, hlast⟩ := hsignal s₂ _ rfl
          exact ⟨_, s₃, (hs'.append hs₂).append hs₃, hlast⟩
    · split at h
      · split at h
        · cases h
        · cases h
        · rename_i u hrx
          obtain ⟨as, s', hs', rfl⟩ := processRx_runs hrx
          split at h
          · cases h
          · rename_i q hq
            cases hidx : readAvailIdx s'.core.dev.layout q s'.core.mem with
            | error fault =>
              rw [hidx] at h
              cases h
            | ok availIdx =>
              rw [hidx] at h
              cases h
              dsimp only
              split
              · obtain ⟨bs, s₂, hs₂, hlast⟩ := hsignal s' _ rfl
                exact ⟨_, s₂, hs'.append hs₂, hlast⟩
              · exact ⟨as, s', hs', rfl⟩
      · cases h
        exact ⟨[], s, .nil s, rfl⟩

end Session

end CloneVmm.Virtio.Vsock
