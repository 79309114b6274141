import CloneVmm.Virtio.VsockStreams

namespace CloneVmm.Virtio.Vsock

open CloneVmm.Lib CloneVmm.Virtio.Vsock.VirtioVsock

def VsockConn.inFlight (conn : VsockConn) : UInt32 := conn.txCnt - conn.peerFwdCnt

def VsockConn.WithinCredit (conn : VsockConn) : Prop := conn.inFlight ≤ conn.peerBufAlloc

structure Advances (conn : VsockConn) (hdr : VsockHdr) : Prop where
  fwdCnt : hdr.fwdCnt - conn.peerFwdCnt ≤ conn.txCnt - conn.peerFwdCnt
  bufAlloc : conn.peerBufAlloc ≤ hdr.bufAlloc

instance (conn : VsockConn) (hdr : VsockHdr) : Decidable (Advances conn hdr) :=
  decidable_of_iff (_ ∧ _) ⟨fun h => ⟨h.1, h.2⟩, fun h => ⟨h.1, h.2⟩⟩

namespace VsockConn

variable {conn : VsockConn}

theorem advance_withinCredit {hdr : VsockHdr} (fwdCnt : UInt32) (hadvances : Advances conn hdr)
    (h : conn.WithinCredit) :
    WithinCredit { conn with peerBufAlloc := hdr.bufAlloc, peerFwdCnt := hdr.fwdCnt, fwdCnt } := by
  obtain ⟨hfwd, hbuf⟩ := hadvances
  have hless : conn.txCnt - hdr.fwdCnt ≤ conn.txCnt - conn.peerFwdCnt := by
    simp only [UInt32.le_iff_toNat_le, UInt32.toNat_sub] at hfwd ⊢
    have htx := conn.txCnt.toNat_lt
    have hpeer := conn.peerFwdCnt.toNat_lt
    have hhdr := hdr.fwdCnt.toNat_lt
    omega
  exact UInt32.le_trans (UInt32.le_trans hless h) hbuf

theorem send_withinCredit {n : Nat} (hn : n ≤ conn.peerFree.toNat) (h : conn.WithinCredit) :
    WithinCredit { conn with txCnt := conn.txCnt + .ofNat n } := by
  unfold WithinCredit inFlight at h ⊢
  rw [peerFree, saturatingSub, if_pos h] at hn
  simp only [UInt32.le_iff_toNat_le, UInt32.toNat_sub, UInt32.toNat_add, UInt32.toNat_ofNat'] at h hn ⊢
  have htx := conn.txCnt.toNat_lt
  have hpeer := conn.peerFwdCnt.toNat_lt
  have hbuf := conn.peerBufAlloc.toNat_lt
  omega

end VsockConn

namespace VirtioVsock

theorem receive_conn {d : VirtioVsock} {data : List UInt8} {conn' : VsockConn} (h : (d.receive data).conn = some conn') :
    d.conn = some conn' ∨ ∃ hdr, VsockHdr.readFrom data = some hdr ∧
      ((hdr.op = opRequest ∧ conn'.peerFwdCnt = hdr.fwdCnt ∧ conn'.txCnt = 0) ∨
        ∃ conn fwdCnt, d.conn = some conn ∧ (hdr.op = opRw ∧ conn.guestPort = hdr.srcPort ∨ hdr.op = opCreditUpdate) ∧
          conn' = { conn with peerBufAlloc := hdr.bufAlloc, peerFwdCnt := hdr.fwdCnt, fwdCnt }) := by
  have henqueue : ∀ (d : VirtioVsock) (op : UInt16), (d.enqueueHdr op).conn = d.conn := by
    intro d op
    unfold enqueueHdr
    split
    · rfl
    · rfl
  unfold receive at h
  cases hhdr : VsockHdr.readFrom data with
  | none =>
    rw [hhdr] at h
    exact .inl h
  | some hdr =>
    rw [hhdr] at h
    dsimp only at h
    unfold handleTxOp at h
    split_ifs at h with hrequest hrw hend hupdate hask
    · rw [henqueue] at h
      cases h
      exact .inr ⟨hdr, rfl, .inl ⟨hrequest, rfl, rfl⟩⟩
    · unfold receiveRw at h
      split at h
      · rename_i conn hconn
        split at h
        · exact .inl h
        · rename_i hport
          cases h
          exact .inr ⟨hdr, rfl, .inr ⟨conn, _, hconn, .inl ⟨hrw, not_not.mp hport⟩, rfl⟩⟩
      · exact .inl h
    · unfold disconnect at h
      split at h
      · split at h
        · cases h
        · exact .inl h
      · exact .inl h
    · obtain ⟨conn, hconn, rfl⟩ := Option.map_eq_some_iff.mp h
      exact .inr ⟨hdr, rfl, .inr ⟨conn, conn.fwdCnt, hconn, .inr hupdate, rfl⟩⟩
    · rw [henqueue] at h
      exact .inl h
    · exact .inl h

end VirtioVsock

namespace Session

variable {s t : Session}

def packet (s : Session) : Action → Option VsockHdr
  | .take fuel => (s.dev.queueConfigs[txQueue]?).bind fun q => VsockHdr.readFrom (s.gathered q fuel)
  | _ => none

def HonestGuest (s : Session) (a : Action) : Prop :=
  ∀ hdr ∈ s.packet a, (hdr.op = opRequest → hdr.fwdCnt = 0) ∧ ∀ conn ∈ s.dev.conn,
    (hdr.op = opRw ∧ conn.guestPort = hdr.srcPort ∨ hdr.op = opCreditUpdate) → Advances conn hdr

instance (s : Session) (a : Action) : Decidable (s.HonestGuest a) :=
  inferInstanceAs (Decidable (∀ hdr ∈ s.packet a, _))

def CreditKept (s : Session) : Prop := ∀ conn, s.dev.conn = some conn → conn.WithinCredit

theorem creditKept_step {a : Action} (hnext : s.next a = some t) (hhonest : s.HonestGuest a) (h : s.CreditKept) :
    t.CreditKept := by
  intro conn' hconn'
  cases next_effect hnext with
  | same _ hsame _ => exact h conn' (hsame.conn ▸ hconn')
  | closed _ hnone _ _ => cases hnone.symm.trans hconn'
  | read hconn _ =>
    cases (readChunk_conn hconn _ _).symm.trans hconn'
    exact VsockConn.send_withinCredit (Nat.min_le_left _ _) (h _ hconn)
  | place _ _ hturn =>
    rw [withCore, rxTurn_dev hturn] at hconn'
    exact h conn' hconn'
  | @take fuel q u hq hturn =>
    rw [onPacket_dev, txTurn_dev hturn] at hconn'
    obtain hconn | ⟨hdr, hhdr, hwhat⟩ := receive_conn hconn'
    · exact h conn' hconn
    · have hpacket : hdr ∈ s.packet (.take fuel) := by
        simp only [packet, hq, Option.bind_some]
        exact hhdr
      obtain ⟨hrequest, hgoes⟩ := hhonest hdr hpacket
      obtain ⟨hop, hfwd, htx⟩ | ⟨conn, fwdCnt, hconn, hop, rfl⟩ := hwhat
      · rw [VsockConn.WithinCredit, VsockConn.inFlight, hfwd, htx, hrequest hop]
        exact UInt32.zero_le
      · exact VsockConn.advance_withinCredit fwdCnt (hgoes conn hconn hop) (h conn hconn)

/-- The bytes in flight never exceed what the guest has room for, however the counters wrap around. -/
theorem credit_invariant {guestCid : UInt64} {mem : ByteStore} {as : List Action}
    (h : Steps (fun s a t => s.next a = some t ∧ s.HonestGuest a) (start guestCid mem) as t) : t.CreditKept := by
  have hstart : (start guestCid mem).CreditKept := fun conn hconn => (Option.some_ne_none conn hconn.symm).elim
  have hstep : ∀ (s : Session) (a : Action) (t : Session), s.next a = some t ∧ s.HonestGuest a →
      s.CreditKept → t.CreditKept := fun _ _ _ hstep => creditKept_step hstep.1 hstep.2
  exact h.invariant hstep hstart

theorem credit_invariant_short_of_credit :
    ∃ t, Steps (fun s a t => s.next a = some t ∧ s.HonestGuest a) (start 3 fun _ => 0) shortOfCredit t ∧
      t.dev.conn.isSome ∧ t.CreditKept := by
  have hrun : (Steps.trace next HonestGuest (start 3 fun _ => 0) shortOfCredit).map (fun t => t.dev.conn.isSome) =
      some true := by decide
  obtain ⟨t, ht, hconn⟩ := Option.map_eq_some_iff.mp hrun
  exact ⟨t, Steps.of_trace ht, hconn, credit_invariant (Steps.of_trace ht)⟩

end Session

open Session (ofConn payloads)

def queuedFor (conn : VsockConn) (pkts : List (List UInt8)) : List (List UInt8) :=
  pkts.filter fun pkt =>
    (VsockHdr.readFrom pkt).any fun hdr => hdr.srcPort = conn.hostPort && hdr.dstPort = conn.guestPort

theorem queuedFor_pushHdr (conn : VsockConn) (pkts : List (List UInt8)) (hdr : VsockHdr) :
    queuedFor conn (pkts ++ [hdr.toBytes]) =
      if hdr.srcPort = conn.hostPort ∧ hdr.dstPort = conn.guestPort then queuedFor conn pkts ++ [hdr.toBytes]
      else queuedFor conn pkts := by
  have hread : VsockHdr.readFrom hdr.toBytes = some hdr := by
    have h := VsockHdr.readFrom_toBytes hdr []
    rwa [List.append_nil] at h
  unfold queuedFor
  rw [List.filter_append]
  by_cases hports : hdr.srcPort = conn.hostPort ∧ hdr.dstPort = conn.guestPort
  · rw [if_pos hports]
    simp [hread, hports]
  · rw [if_neg hports]
    simp [hread, hports]

structure Isolated (d e : VirtioVsock) : Prop where
  conn : e.conn = d.conn
  queued : ∀ conn, d.conn = some conn → queuedFor conn e.pendingRx = queuedFor conn d.pendingRx
  written : e.written = d.written

def SameCredit (conn : VsockConn) (hdr : VsockHdr) : Prop :=
  hdr.bufAlloc = conn.peerBufAlloc ∧ hdr.fwdCnt = conn.peerFwdCnt

structure Harmless (conn : VsockConn) (hdr : VsockHdr) (payload : List UInt8) : Prop where
  rw : hdr.op = opRw → conn.guestPort = hdr.srcPort → SameCredit conn hdr ∧ payload = []
  ends : hdr.op = opShutdown ∨ hdr.op = opRst → conn.guestPort ≠ hdr.srcPort
  update : hdr.op = opCreditUpdate → SameCredit conn hdr
  ask : hdr.op ≠ opCreditRequest

theorem harmless_iff {conn : VsockConn} {hdr : VsockHdr} {payload : List UInt8} : Harmless conn hdr payload ↔
    (hdr.op = opRw → conn.guestPort = hdr.srcPort → SameCredit conn hdr ∧ payload = []) ∧
      (hdr.op = opShutdown ∨ hdr.op = opRst → conn.guestPort ≠ hdr.srcPort) ∧
      (hdr.op = opCreditUpdate → SameCredit conn hdr) ∧ hdr.op ≠ opCreditRequest :=
  ⟨fun h => ⟨h.1, h.2, h.3, h.4⟩, fun h => ⟨h.1, h.2.1, h.2.2.1, h.2.2.2⟩⟩

namespace VirtioVsock

theorem enqueueRstFor_isolated {d : VirtioVsock} {hdr : VsockHdr}
    (hforeign : ∀ conn, d.conn = some conn → ¬ ofConn conn hdr) :
    Isolated d (d.enqueueRstFor hdr.srcPort hdr.dstPort) := by
  refine ⟨rfl, fun conn hconn => ?_, rfl⟩
  refine (queuedFor_pushHdr conn d.pendingRx (d.rstHdr hdr.srcPort hdr.dstPort)).trans (if_neg ?_)
  rintro ⟨hsrc, hdst⟩
  exact hforeign conn hconn ⟨hdst.symm, hsrc.symm⟩

theorem creditUpdate_isolated_iff {d : VirtioVsock} {conn : VsockConn} {hdr : VsockHdr} (hconn : d.conn = some conn) :
    Isolated d (d.creditUpdate hdr) ↔ SameCredit conn hdr := by
  constructor
  · intro h
    have hsame := h.conn
    simp only [creditUpdate, hconn, Option.map_some, Option.some.injEq] at hsame
    exact ⟨congrArg VsockConn.peerBufAlloc hsame, congrArg VsockConn.peerFwdCnt hsame⟩
  · rintro ⟨hbuf, hfwd⟩
    refine ⟨?_, fun _ _ => rfl, rfl⟩
    simp only [creditUpdate, hconn, Option.map_some, hbuf, hfwd]

theorem receiveRw_isolated_iff {d : VirtioVsock} {conn : VsockConn} {hdr : VsockHdr} {payload : List UInt8}
    (hconn : d.conn = some conn) (hforeign : ∀ conn, d.conn = some conn → ¬ ofConn conn hdr)
    (hlength : payload.length < 2 ^ 32) :
    Isolated d (d.receiveRw hdr.srcPort hdr.dstPort payload hdr) ↔
      (conn.guestPort = hdr.srcPort → SameCredit conn hdr ∧ payload = []) := by
  by_cases hport : conn.guestPort = hdr.srcPort
  · rw [forall_prop_of_true hport]
    constructor
    · intro h
      have hsame := h.conn
      simp only [receiveRw, hconn, if_neg (not_not.mpr hport), forward, Option.some.injEq] at hsame
      have hcount := congrArg (fun conn => conn.fwdCnt.toNat) hsame
      simp only [UInt32.toNat_add, UInt32.toNat_ofNat'] at hcount
      have hlt := conn.fwdCnt.toNat_lt
      exact ⟨⟨congrArg VsockConn.peerBufAlloc hsame, congrArg VsockConn.peerFwdCnt hsame⟩,
        List.length_eq_zero_iff.mp (by omega)⟩
    · rintro ⟨⟨hbuf, hfwd⟩, rfl⟩
      refine ⟨?_, fun _ _ => ?_, ?_⟩
      · simp [receiveRw, hconn, ← hport, forward, hbuf, hfwd]
      · simp [receiveRw, hconn, hport, forward]
      · simp [receiveRw, hconn, hport, forward, Session.writeAll_taken]
  · have hrst : d.receiveRw hdr.srcPort hdr.dstPort payload hdr = d.enqueueRstFor hdr.srcPort hdr.dstPort := by
      simp only [receiveRw, hconn, if_pos hport]
    rw [hrst]
    exact iff_of_true (enqueueRstFor_isolated hforeign) fun h => absurd h hport

theorem disconnect_isolated_iff {d : VirtioVsock} {conn : VsockConn} {guestPort hostPort : UInt32}
    (hconn : d.conn = some conn) : Isolated d (d.disconnect guestPort hostPort) ↔ conn.guestPort ≠ guestPort := by
  unfold disconnect
  rw [hconn]
  dsimp only
  split
  · rename_i hport
    refine iff_of_false (fun h => ?_) (not_not.mpr hport)
    cases hconn.symm.trans h.conn.symm
  · rename_i hport
    exact iff_of_true ⟨rfl, fun _ _ => rfl, rfl⟩ hport

theorem enqueueHdr_not_isolated {d : VirtioVsock} {conn : VsockConn} (hconn : d.conn = some conn) (op : UInt16) :
    ¬ Isolated d (d.enqueueHdr op) := by
  intro h
  have hqueued := h.queued conn hconn
  simp only [enqueueHdr, hconn, pushBack, queuedFor_pushHdr, makeHdr, and_self, if_true] at hqueued
  cases List.append_right_eq_self.mp hqueued

/-- A packet of other ports leaves the connection alone exactly if it is harmless. -/
theorem connection_isolation_iff (d : VirtioVsock) (hdr : VsockHdr) (data : List UInt8)
    (hforeign : ∀ conn, d.conn = some conn → ¬ ofConn conn hdr) (hop : hdr.op ≠ opRequest) :
    Isolated d (d.handleTxOp hdr.op hdr.srcPort hdr.dstPort (payloadOf hdr data) hdr) ↔
      ∀ conn, d.conn = some conn → Harmless conn hdr (payloadOf hdr data) := by
  have hsame : Isolated d d := ⟨rfl, fun _ _ => rfl, rfl⟩
  unfold handleTxOp
  rw [if_neg hop]
  cases hconn : d.conn with
  | none =>
    refine iff_of_true ?_ fun conn h => (Option.some_ne_none conn h.symm).elim
    split_ifs
    · simp only [receiveRw, hconn]
      exact enqueueRstFor_isolated hforeign
    · simp only [disconnect, hconn]
      exact hsame
    · refine ⟨?_, fun _ _ => rfl, rfl⟩
      simp [creditUpdate, hconn]
    · simp only [enqueueHdr, hconn]
      exact hsame
    · exact hsame
  | some conn =>
    simp only [Option.some.injEq, forall_eq', harmless_iff]
    split_ifs with hrw hend hupdate hask
    · rw [receiveRw_isolated_iff hconn hforeign (Session.payloadOf_length_lt hdr data)]
      simp [hrw, opRw, opShutdown, opRst, opCreditUpdate, opCreditRequest]
    · rw [disconnect_isolated_iff hconn]
      rcases hend with hend | hend
      · simp [hend, opRw, opShutdown, opRst, opCreditUpdate, opCreditRequest]
      · simp [hend, opRw, opShutdown, opRst, opCreditUpdate, opCreditRequest]
    · rw [creditUpdate_isolated_iff hconn]
      simp [hupdate, opRw, opShutdown, opRst, opCreditUpdate, opCreditRequest]
    · refine iff_of_false (enqueueHdr_not_isolated hconn opCreditUpdate) ?_
      rintro ⟨-, -, -, hnot⟩
      exact hnot hask
    · exact iff_of_true hsame ⟨fun h => absurd h hrw, fun h => absurd h hend, fun h => absurd h hupdate, hask⟩

def connected : VirtioVsock := { new 3 with conn := some ⟨1024, 9999, 1000, 0, 0, 64 * 1024, 0⟩ }

def strayHdr (op : UInt16) : VsockHdr := { srcCid := 3, dstCid := 2, srcPort := 1025, dstPort := 9999, type := 1, op }

theorem strayHdr_foreign (op : UInt16) : ∀ conn, connected.conn = some conn → ¬ ofConn conn (strayHdr op) := by
  rintro conn hconn ⟨hport, -⟩
  cases hconn
  have hports : (1024 : UInt32) = 1025 := hport
  exact absurd hports (by decide)

theorem connection_isolation_stray_shutdown :
    Isolated connected (connected.handleTxOp opShutdown 1025 9999 [] (strayHdr opShutdown)) := by
  refine (connection_isolation_iff connected (strayHdr opShutdown) [] (strayHdr_foreign _) (by decide)).mpr ?_
  intro conn hconn
  cases hconn
  exact ⟨fun h => absurd h (by decide), fun _ => by decide, fun h => absurd h (by decide), by decide⟩

theorem connection_isolation_fails : ¬ ∀ (d : VirtioVsock) (hdr : VsockHdr) (data : List UInt8),
    (∀ conn, d.conn = some conn → ¬ ofConn conn hdr) → hdr.op ≠ opRequest →
      Isolated d (d.handleTxOp hdr.op hdr.srcPort hdr.dstPort (payloadOf hdr data) hdr) := by
  intro h
  have hsame := (h connected (strayHdr opCreditUpdate) [] (strayHdr_foreign _) (by decide)).conn
  exact absurd hsame (by decide)

end VirtioVsock

end CloneVmm.Virtio.Vsock
