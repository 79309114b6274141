import CloneVmm.Virtio.VsockSession

namespace CloneVmm.Virtio.Vsock

open CloneVmm.Lib Raw CloneVmm.Virtio.Vsock.VirtioVsock

theorem scatter_rest (l : GuestLayout) (descs : List Descriptor) (mem : ByteStore) (pkt : List UInt8) (n : UInt32) :
    (descs.foldl (fun s desc => scatter.copy (gpaToPtr l desc.addr) desc s) (mem, pkt, n)).2.1 =
      pkt.drop (room descs) := by
  induction descs generalizing mem pkt n with
  | nil => rfl
  | cons desc descs ih =>
    have hroom : room (desc :: descs) = (if desc.flags &&& vringDescFWrite ≠ 0 then desc.len else 0) + room descs := rfl
    rw [List.foldl_cons, hroom, ← List.drop_drop]
    by_cases hwrite : desc.flags &&& vringDescFWrite ≠ 0
    · rw [if_pos hwrite]
      by_cases hpkt : pkt = []
      · have hcopy : scatter.copy (gpaToPtr l desc.addr) desc (mem, pkt, n) = (mem, pkt, n) :=
          if_neg fun h => h.2 hpkt
        rw [hcopy, ih, hpkt, List.drop_nil, List.drop_nil, List.drop_nil]
      · have hcopy : (scatter.copy (gpaToPtr l desc.addr) desc (mem, pkt, n)).2.1 = pkt.drop (roomFor desc pkt) := by
          have hboth : desc.flags &&& vringDescFWrite ≠ 0 ∧ pkt ≠ [] := ⟨hwrite, hpkt⟩
          simp only [scatter, if_pos hboth]
        have hdrop : pkt.drop (roomFor desc pkt) = pkt.drop desc.len := by
          unfold roomFor
          rcases Nat.le_total pkt.length desc.len with hle | hle
          · rw [Nat.min_eq_left hle, List.drop_length, List.drop_eq_nil_of_le hle]
          · rw [Nat.min_eq_right hle]
        rw [← hdrop, ← hcopy]
        exact ih _ _ _
    · have hcopy : scatter.copy (gpaToPtr l desc.addr) desc (mem, pkt, n) = (mem, pkt, n) := if_neg fun h => hwrite h.1
      rw [if_neg hwrite, hcopy, ih, List.drop_zero]

namespace Session

variable {s t : Session} {q : QueueInfo} {fuel : Nat}

theorem placed_eq {u : State} (h : rxTurn q fuel s.core = some (.ok u)) :
    s.placed q fuel = (s.dev.pendingRx.headD []).take (room (s.buffers q fuel)) := by
  obtain ⟨head, rest, totalWritten, mem, hhead, hwalk, -⟩ := rxTurn_eq_ok.mp h
  obtain ⟨-, rfl⟩ := readAvailRingEntry_eq_ok.mp hhead
  simp only [core] at hwalk
  have hrest : rest = (s.dev.pendingRx.headD []).drop (room (s.buffers q fuel)) :=
    (congrArg (fun p => p.2.1) (walk_eq_foldl hwalk)).trans (scatter_rest ..)
  simp only [placed, hwalk, hrest, List.length_drop]
  rcases Nat.le_total (s.dev.pendingRx.headD []).length (room (s.buffers q fuel)) with hle | hle
  · rw [List.take_of_length_le hle, List.take_of_length_le (by omega)]
  · rw [Nat.sub_sub_self hle]

def payloads (pkts : List (List UInt8)) : List UInt8 := pkts.flatMap (·.drop hdrSize)

theorem payloads_push (pkts : List (List UInt8)) (pkt : List UInt8) :
    payloads (pkts ++ [pkt]) = payloads pkts ++ pkt.drop hdrSize := by
  simp [payloads]

theorem payloads_pushHdr (pkts : List (List UInt8)) (hdr : VsockHdr) : payloads (pkts ++ [hdr.toBytes]) = payloads pkts := by
  rw [payloads_push, List.drop_eq_nil_of_le hdr.toBytes_length.le, List.append_nil]

structure Quiet (d e : VirtioVsock) : Prop where
  conn : e.conn.isSome → d.conn.isSome
  payloads : payloads e.pendingRx = payloads d.pendingRx

theorem enqueueHdr_quiet (d : VirtioVsock) (op : UInt16) : Quiet d (d.enqueueHdr op) := by
  unfold enqueueHdr
  split
  · exact ⟨id, payloads_pushHdr _ _⟩
  · exact ⟨id, rfl⟩

theorem enqueueRstFor_quiet (d : VirtioVsock) (guestPort hostPort : UInt32) :
    Quiet d (d.enqueueRstFor guestPort hostPort) := ⟨id, payloads_pushHdr _ _⟩

theorem receiveRw_quiet (d : VirtioVsock) (guestPort hostPort : UInt32) (payload : List UInt8) (hdr : VsockHdr) :
    Quiet d (d.receiveRw guestPort hostPort payload hdr) := by
  unfold receiveRw
  split
  · rename_i conn hconn
    split
    · exact enqueueRstFor_quiet d guestPort hostPort
    · exact ⟨fun _ => Option.isSome_of_mem hconn, rfl⟩
  · exact enqueueRstFor_quiet d guestPort hostPort

theorem disconnect_quiet (d : VirtioVsock) (guestPort hostPort : UInt32) :
    Quiet d (d.disconnect guestPort hostPort) := by
  unfold disconnect
  split
  · split
    · exact ⟨fun h => (Bool.false_ne_true h).elim, payloads_pushHdr _ _⟩
    · exact ⟨id, rfl⟩
  · exact ⟨id, rfl⟩

theorem handleTxOp_quiet (d : VirtioVsock) {op : UInt16} (guestPort hostPort : UInt32) (payload : List UInt8)
    (hdr : VsockHdr) (hop : op ≠ opRequest) : Quiet d (d.handleTxOp op guestPort hostPort payload hdr) := by
  unfold handleTxOp
  rw [if_neg hop]
  split_ifs
  · exact receiveRw_quiet d guestPort hostPort payload hdr
  · exact disconnect_quiet d guestPort hostPort
  · exact ⟨fun h => by simpa [creditUpdate] using h, rfl⟩
  · exact enqueueHdr_quiet d opCreditUpdate
  · exact ⟨id, rfl⟩

def Lossless (s : Session) : Prop := s.dev.conn.isSome → s.read = s.delivered ++ payloads s.dev.pendingRx

theorem Lossless.of_quiet (h : s.Lossless) (hquiet : Quiet s.dev t.dev) (hread : t.read = s.read)
    (hdelivered : t.delivered = s.delivered) : t.Lossless := by
  intro hconn
  rw [hread, hdelivered, hquiet.payloads]
  exact h (hquiet.conn hconn)

theorem SameStreams.quiet {d e : VirtioVsock} (h : SameStreams d e) : Quiet d e :=
  ⟨fun hconn => h.conn ▸ hconn, congrArg payloads h.pendingRx⟩

theorem onPacket_lossless {u : State} {data : List UInt8} (h : s.Lossless) {lastAvail lastUsed : Nat → UInt16}
    (hdev : u.dev = { s.dev.receive data with lastAvail, lastUsed }) : (s.onPacket u data).Lossless := by
  unfold onPacket
  unfold receive at hdev
  cases hhdr : VsockHdr.readFrom data with
  | none =>
    rw [hhdr] at hdev
    refine h.of_quiet ⟨fun hconn => ?_, ?_⟩ rfl rfl
    · simpa [withCore, hdev] using hconn
    · simp [withCore, hdev]
  | some hdr =>
    rw [hhdr] at hdev
    dsimp only at hdev ⊢
    split
    · rename_i hop
      have hpending : payloads u.dev.pendingRx = [] := by
        rw [hdev]
        simp only [handleTxOp, if_pos hop]
        exact (enqueueHdr_quiet _ _).payloads
      intro _
      rw [hpending]
      rfl
    · rename_i hop
      have hquiet := handleTxOp_quiet s.dev hdr.srcPort hdr.dstPort (payloadOf hdr data) hdr hop
      have hquiet' : Quiet s.dev u.dev := by
        rw [hdev]
        exact ⟨hquiet.conn, hquiet.payloads⟩
      split
      · exact h.of_quiet hquiet' rfl rfl
      · exact h.of_quiet hquiet' rfl rfl

def KeepsRead (s : Session) : Action → Prop
  | .read => ∀ conn chunk rest, s.dev.conn = some conn → s.dev.incoming = chunk :: rest →
      chunk.bytes.length ≤ conn.peerFree.toNat
  | .place fuel => s.dev.conn.isSome → ∀ q pkt rest, s.dev.queueConfigs[rxQueue]? = some q →
      s.dev.pendingRx = pkt :: rest → pkt.length ≤ hdrSize ∨ pkt.length ≤ room (s.buffers q fuel)
  | _ => True

theorem readChunk_payloads (d : VirtioVsock) (conn : VsockConn) (chunk : Chunk) (rest : List Chunk) :
    payloads (d.readChunk conn chunk rest).pendingRx = payloads d.pendingRx ++ chunk.bytes.take conn.peerFree.toNat := by
  have hpos := chunk.pos
  unfold readChunk
  dsimp only
  split
  · rename_i hnone
    rw [(enqueueHdr_quiet { d with incoming := rest } opCreditRequest).payloads]
    have hfree : conn.peerFree.toNat = 0 := by omega
    rw [hfree, List.take_zero, List.append_nil]
  · rw [pushBack, payloads_push, List.drop_append_of_le_length (VsockHdr.toBytes_length _).ge,
      List.drop_eq_nil_of_le (VsockHdr.toBytes_length _).le, List.nil_append]
    congr 1
    rcases Nat.le_total conn.peerFree.toNat chunk.bytes.length with hle | hle
    · rw [Nat.min_eq_left hle]
    · rw [Nat.min_eq_right hle, List.take_length, List.take_of_length_le hle]

theorem readChunk_conn {d : VirtioVsock} {conn : VsockConn} (hconn : d.conn = some conn) (chunk : Chunk)
    (rest : List Chunk) : (d.readChunk conn chunk rest).conn =
      some { conn with txCnt := conn.txCnt + .ofNat (min conn.peerFree.toNat chunk.bytes.length) } := by
  unfold readChunk
  dsimp only
  split
  · rename_i hnone
    rw [hnone, enqueueHdr]
    split
    · simpa [pushBack] using hconn
    · simpa using hconn
  · rw [List.length_take, Nat.min_assoc, Nat.min_self]

theorem read_lossless_iff {conn : VsockConn} {chunk : Chunk} {rest : List Chunk} (hconn : s.dev.conn = some conn)
    (h : s.Lossless) :
    Lossless { s with dev := s.dev.readChunk conn chunk rest, read := s.read ++ chunk.bytes } ↔
      chunk.bytes.length ≤ conn.peerFree.toNat := by
  have hread := h (Option.isSome_of_mem hconn)
  unfold Lossless
  rw [readChunk_conn hconn, readChunk_payloads, hread, ← List.append_assoc, List.append_right_inj]
  constructor
  · intro heq
    have hlength := congrArg List.length (heq rfl)
    rw [List.length_take] at hlength
    omega
  · exact fun hle _ => (List.take_of_length_le hle).symm

theorem place_lossless_iff {u : State} {pkt : List UInt8} {rest : List (List UInt8)}
    (hpending : s.dev.pendingRx = pkt :: rest) (hturn : rxTurn q fuel s.core = some (.ok u)) (h : s.Lossless) :
    Lossless { s.withCore u with delivered := s.delivered ++ (s.placed q fuel).drop hdrSize } ↔
      (s.dev.conn.isSome → pkt.length ≤ hdrSize ∨ pkt.length ≤ room (s.buffers q fuel)) := by
  have hdev := rxTurn_dev hturn
  have hplaced := placed_eq hturn
  rw [hpending, List.headD_cons] at hplaced
  unfold Lossless withCore
  rw [hdev, hpending, hplaced]
  refine imp_congr_right fun hconn => ?_
  rw [h hconn, hpending, List.tail_cons, List.append_assoc, List.append_right_inj]
  have hcons : payloads (pkt :: rest) = pkt.drop hdrSize ++ payloads rest := rfl
  rw [hcons, List.append_left_inj]
  constructor
  · intro heq
    have hlength := congrArg List.length heq
    simp only [List.length_drop, List.length_take] at hlength
    omega
  · rintro (hle | hle)
    · rw [List.drop_eq_nil_of_le hle, List.drop_eq_nil_of_le ((List.length_take_le' _ _).trans hle)]
    · rw [List.take_of_length_le hle]

theorem keepsRead_iff {a : Action} (hnext : s.next a = some t) (h : s.Lossless) : t.Lossless ↔ s.KeepsRead a := by
  have hother : ∀ a, moves a = false → s.KeepsRead a := by
    intro a ha
    cases a with
    | read => cases ha
    | place fuel => cases ha
    | _ => exact trivial
  cases next_effect hnext with
  | same ha hsame _ => exact iff_of_true (h.of_quiet (SameStreams.quiet hsame) rfl rfl) (hother a ha)
  | closed ha hconn _ _ =>
    refine iff_of_true (fun hsome => ?_) (hother a ha)
    rw [hconn] at hsome
    cases hsome
  | read hconn hincoming =>
    rw [read_lossless_iff hconn h]
    simp only [KeepsRead, hconn, hincoming, Option.some.injEq, List.cons.injEq, and_imp]
    exact ⟨fun hle conn' chunk' _ hconn' hchunk _ => hconn' ▸ hchunk ▸ hle, fun hkeeps => hkeeps _ _ _ rfl rfl rfl⟩
  | place hq hpending hturn =>
    rw [place_lossless_iff hpending hturn h]
    simp only [KeepsRead, hq, hpending, Option.some.injEq, List.cons.injEq, and_imp]
    exact imp_congr_right fun _ => ⟨fun hle q' pkt' _ hq' hpkt' _ => hq' ▸ hpkt' ▸ hle,
      fun hkeeps => hkeeps _ _ _ rfl rfl rfl⟩
  | take _ hturn => exact iff_of_true (onPacket_lossless h (txTurn_dev hturn)) trivial

/-- In a run from the start no byte of the socket is lost exactly if each step keeps what was read. -/
theorem host_to_guest_lossless_iff (guestCid : UInt64) (mem : ByteStore) (as : List Action) :
    Steps (fun s a t => s.next a = some t ∧ t.Lossless) (start guestCid mem) as t ↔
      Steps (fun s a t => s.next a = some t ∧ s.KeepsRead a) (start guestCid mem) as t := by
  have hstart : (start guestCid mem).Lossless := fun hconn => (Bool.false_ne_true hconn).elim
  refine Steps.iff_of_step (fun _ _ _ _ _ => trivial) ?_ trivial hstart
  intro s a t hnext _ hlossless
  exact keepsRead_iff hnext hlossless

end Session

namespace Session

variable {s t : Session} {q : QueueInfo} {fuel : Nat}

def takes (accepts : List Nat) : Nat := (accepts.takeWhile (0 < ·)).sum

theorem writeAll_taken (accepts : List Nat) (payload : List UInt8) :
    (writeAll accepts payload).1 = payload.take (takes accepts) := by
  induction accepts generalizing payload with
  | nil => rfl
  | cons n accepts ih =>
    rw [writeAll]
    by_cases hempty : payload.isEmpty
    · rw [if_pos hempty, List.isEmpty_iff.mp hempty, List.take_nil]
    · rw [if_neg hempty]
      by_cases hzero : n = 0
      · subst hzero
        rfl
      · have htakes : takes (n :: accepts) = n + takes accepts := by
          simp [takes, Nat.pos_of_ne_zero hzero]
        rw [if_neg hzero, htakes, List.take_add, ← ih]

theorem payloadOf_length_lt (hdr : VsockHdr) (data : List UInt8) : (payloadOf hdr data).length < 2 ^ 32 := by
  have hlen := hdr.len.toNat_lt
  unfold payloadOf
  split
  · exact (List.length_take_le _ _).trans_lt hlen
  · exact Nat.two_pow_pos 32

structure Forwarded (s : Session) (conn : VsockConn) : Prop where
  handed : s.handed = s.sent
  fwdCnt : ∀ op len, (s.dev.makeHdr conn op len).fwdCnt = .ofNat s.handed.length

def Forwards (s : Session) : Prop := ∀ conn, s.dev.conn = some conn → s.Forwarded conn

structure KeepsCount (d e : VirtioVsock) : Prop where
  written : e.written = d.written
  conn : ∀ conn', e.conn = some conn' → ∃ conn, d.conn = some conn ∧ conn'.fwdCnt = conn.fwdCnt

theorem KeepsCount.of_conn_eq {d e : VirtioVsock} (hwritten : e.written = d.written) (hconn : e.conn = d.conn) :
    KeepsCount d e := ⟨hwritten, fun conn' h => ⟨conn', hconn ▸ h, rfl⟩⟩

theorem Forwards.of_keepsCount (h : s.Forwards) (hkeeps : KeepsCount s.dev t.dev) (hsent : t.sent = s.sent)
    (hmark : t.mark = s.mark) : t.Forwards := by
  intro conn' hconn'
  obtain ⟨conn, hconn, hcount⟩ := hkeeps.conn conn' hconn'
  obtain ⟨hhanded, hfwd⟩ := h conn hconn
  have hsame : t.handed = s.handed := by rw [handed, hkeeps.written, hmark, handed]
  refine ⟨hsame.trans (hhanded.trans hsent.symm), fun op len => ?_⟩
  rw [hsame]
  exact hcount.trans (hfwd op len)

theorem enqueueHdr_keepsCount (d : VirtioVsock) (op : UInt16) : KeepsCount d (d.enqueueHdr op) := by
  unfold enqueueHdr
  split
  · exact .of_conn_eq rfl rfl
  · exact .of_conn_eq rfl rfl

theorem handleTxOp_keepsCount (d : VirtioVsock) {op : UInt16} {guestPort : UInt32} (hostPort : UInt32)
    (payload : List UInt8) (hdr : VsockHdr) (hop : op ≠ opRequest)
    (hrw : op = opRw → ∀ conn, d.conn = some conn → conn.guestPort ≠ guestPort) :
    KeepsCount d (d.handleTxOp op guestPort hostPort payload hdr) := by
  unfold handleTxOp
  rw [if_neg hop]
  split_ifs with hrw'
  · unfold receiveRw
    split
    · rename_i conn hconn
      rw [if_pos (hrw hrw' conn hconn)]
      exact .of_conn_eq rfl rfl
    · exact .of_conn_eq rfl rfl
  · unfold disconnect
    split
    · split
      · exact ⟨rfl, fun conn' h => (Option.some_ne_none conn' h.symm).elim⟩
      · exact .of_conn_eq rfl rfl
    · exact .of_conn_eq rfl rfl
  · refine ⟨rfl, fun conn' h => ?_⟩
    obtain ⟨conn, hconn, rfl⟩ := Option.map_eq_some_iff.mp h
    exact ⟨conn, hconn, rfl⟩
  · exact enqueueHdr_keepsCount d opCreditUpdate
  · exact .of_conn_eq rfl rfl

theorem receiveRw_forwards {d : VirtioVsock} {conn : VsockConn} {guestPort : UInt32} (hostPort : UInt32)
    (payload : List UInt8) (hdr : VsockHdr) (hconn : d.conn = some conn) (hport : conn.guestPort = guestPort) :
    (d.receiveRw guestPort hostPort payload hdr).written = d.written ++ payload.take (takes d.accepts) ∧
      ∃ conn', (d.receiveRw guestPort hostPort payload hdr).conn = some conn' ∧
        conn'.fwdCnt = conn.fwdCnt + .ofNat payload.length := by
  unfold receiveRw
  simp only [hconn, if_neg (not_not.mpr hport), forward, writeAll_taken]
  exact ⟨trivial, _, rfl, rfl⟩

theorem count_iff {before sent payload : List UInt8} {own : Prop} [Decidable own] {k : Nat} {count : UInt32}
    (hlength : payload.length < 2 ^ 32) (hbefore : before = sent) (hcount : count = .ofNat before.length) :
    (before ++ payload.take k = (if own then sent ++ payload else sent) ∧
        count + .ofNat payload.length = .ofNat (before ++ payload.take k).length) ↔
      payload = [] ∨ own ∧ payload.length ≤ k := by
  subst hbefore hcount
  rw [List.length_append, List.length_take]
  by_cases hown : own
  · rw [if_pos hown, List.append_right_inj]
    constructor
    · rintro ⟨htake, -⟩
      have hle := congrArg List.length htake
      rw [List.length_take] at hle
      exact .inr ⟨hown, by omega⟩
    · rintro (rfl | ⟨-, hle⟩)
      · simp
      · rw [List.take_of_length_le hle, Nat.min_eq_right hle, ← UInt32.ofNat_add]
        exact ⟨rfl, rfl⟩
  · rw [if_neg hown, List.append_right_eq_self]
    constructor
    · rintro ⟨htake, hcount⟩
      left
      have hnone := congrArg List.length htake
      rw [List.length_take, List.length_nil] at hnone
      rw [hnone, Nat.add_zero] at hcount
      have hsame := congrArg UInt32.toNat hcount
      simp only [UInt32.toNat_add, UInt32.toNat_ofNat'] at hsame
      exact List.length_eq_zero_iff.mp (by omega)
    · rintro (rfl | ⟨h, -⟩)
      · simp
      · exact absurd h hown

theorem forwards_iff {conn : VsockConn} (hconn : s.dev.conn = some conn) :
    s.Forwards ↔ s.handed = s.sent ∧ conn.fwdCnt = .ofNat s.handed.length := by
  constructor
  · intro h
    obtain ⟨hhanded, hfwd⟩ := h conn hconn
    exact ⟨hhanded, hfwd 0 0⟩
  · rintro ⟨hhanded, hfwd⟩ conn' hconn'
    cases hconn.symm.trans hconn'
    exact ⟨hhanded, fun _ _ => hfwd⟩

theorem onPacket_dev (s : Session) (u : State) (data : List UInt8) : (s.onPacket u data).dev = u.dev :=
  congrArg State.dev (onPacket_core s u data)

theorem onPacket_of_not_request {hdr : VsockHdr} {data : List UInt8} (u : State)
    (hhdr : VsockHdr.readFrom data = some hdr) (hop : hdr.op ≠ opRequest) :
    (s.onPacket u data).mark = s.mark ∧ (s.onPacket u data).sent =
      if hdr.op = opRw ∧ s.dev.conn.any (fun conn => decide (ofConn conn hdr)) then s.sent ++ payloadOf hdr data
      else s.sent := by
  simp only [onPacket, hhdr, if_neg hop]
  split
  · exact ⟨rfl, rfl⟩
  · exact ⟨rfl, rfl⟩

theorem request_forwards {u : State} {hdr : VsockHdr} {payload data : List UInt8}
    {lastAvail lastUsed : Nat → UInt16} (hhdr : VsockHdr.readFrom data = some hdr) (hop : hdr.op = opRequest)
    (hdev : u.dev = { s.dev.handleTxOp hdr.op hdr.srcPort hdr.dstPort payload hdr with lastAvail, lastUsed }) :
    (s.onPacket u data).Forwards := by
  have hconn : ∃ conn, u.dev.conn = some conn ∧ conn.fwdCnt = 0 := by
    rw [hdev]
    simp only [handleTxOp, if_pos hop]
    exact ⟨_, rfl, rfl⟩
  obtain ⟨conn, hconn, hcount⟩ := hconn
  simp only [onPacket, hhdr, if_pos hop]
  have hhanded : u.dev.written.drop u.dev.written.length = [] := List.drop_length
  refine (forwards_iff hconn).mpr ⟨hhanded, ?_⟩
  rw [hcount, handed, hhanded]
  rfl

theorem data_forwards_iff {u : State} {conn : VsockConn} {hdr : VsockHdr} {data : List UInt8}
    {lastAvail lastUsed : Nat → UInt16} (h : s.Forwards) (hmark : s.mark ≤ s.dev.written.length)
    (hhdr : VsockHdr.readFrom data = some hdr) (hop : hdr.op = opRw) (hconn : s.dev.conn = some conn)
    (hport : conn.guestPort = hdr.srcPort)
    (hdev : u.dev =
      { s.dev.receiveRw hdr.srcPort hdr.dstPort (payloadOf hdr data) hdr with lastAvail, lastUsed }) :
    (s.onPacket u data).Forwards ↔ payloadOf hdr data = [] ∨
      conn.hostPort = hdr.dstPort ∧ (payloadOf hdr data).length ≤ takes s.dev.accepts := by
  obtain ⟨hwritten, conn', hconn', hcount⟩ := receiveRw_forwards hdr.dstPort (payloadOf hdr data) hdr hconn hport
  obtain ⟨hhanded, hfwd⟩ := (forwards_iff hconn).mp h
  have hrequest : hdr.op ≠ opRequest := by
    rw [hop]
    decide
  obtain ⟨hmarkT, hsent⟩ := onPacket_of_not_request u hhdr hrequest (s := s)
  have hconnT : (s.onPacket u data).dev.conn = some conn' := by
    rw [onPacket_dev, hdev]
    exact hconn'
  have hhandedT : (s.onPacket u data).handed = s.handed ++ (payloadOf hdr data).take (takes s.dev.accepts) := by
    rw [handed, hmarkT, onPacket_dev, hdev]
    dsimp only
    rw [hwritten, List.drop_append_of_le_length hmark, handed]
  have hsentT : (s.onPacket u data).sent =
      if conn.hostPort = hdr.dstPort then s.sent ++ payloadOf hdr data else s.sent := by
    simp only [hsent, hop, hconn, ofConn, hport, true_and, Option.any_some, decide_eq_true_eq]
  rw [forwards_iff hconnT, hhandedT, hsentT, hcount]
  exact count_iff (payloadOf_length_lt hdr data) hhanded hfwd

theorem onPacket_forwards_iff {u : State} {data : List UInt8} (h : s.Forwards) (hmark : s.mark ≤ s.dev.written.length)
    {lastAvail lastUsed : Nat → UInt16} (hdev : u.dev = { s.dev.receive data with lastAvail, lastUsed }) :
    (s.onPacket u data).Forwards ↔ ∀ conn hdr, s.dev.conn = some conn → VsockHdr.readFrom data = some hdr →
      hdr.op = opRw → conn.guestPort = hdr.srcPort →
      payloadOf hdr data = [] ∨ conn.hostPort = hdr.dstPort ∧ (payloadOf hdr data).length ≤ takes s.dev.accepts := by
  unfold receive at hdev
  cases hhdr : VsockHdr.readFrom data with
  | none =>
    rw [hhdr] at hdev
    refine iff_of_true ?_ (fun conn hdr _ h => (Option.some_ne_none hdr h.symm).elim)
    have hpacket : s.onPacket u data = s.withCore u := by simp only [onPacket, hhdr]
    rw [hpacket]
    refine h.of_keepsCount (.of_conn_eq ?_ ?_) rfl rfl
    · rw [withCore, hdev]
    · rw [withCore, hdev]
  | some hdr =>
    rw [hhdr] at hdev
    dsimp only at hdev
    by_cases hrequest : hdr.op = opRequest
    · refine iff_of_true (request_forwards hhdr hrequest hdev) ?_
      intro conn hdr' _ hhdr' hrw
      cases hhdr'
      exact absurd (hrequest.symm.trans hrw) (by decide)
    · by_cases hrw : hdr.op = opRw ∧ ∃ conn, s.dev.conn = some conn ∧ conn.guestPort = hdr.srcPort
      · obtain ⟨hop, conn, hconn, hport⟩ := hrw
        simp only [handleTxOp, if_neg hrequest, if_pos hop] at hdev
        rw [data_forwards_iff h hmark hhdr hop hconn hport hdev]
        simp only [hconn, Option.some.injEq]
        exact ⟨fun hkeeps conn' hdr' hconn' hhdr' _ _ => hconn' ▸ hhdr' ▸ hkeeps,
          fun hkeeps => hkeeps conn hdr rfl rfl hop hport⟩
      · have hkeeps := handleTxOp_keepsCount s.dev hdr.dstPort (payloadOf hdr data) hdr hrequest
          fun hop conn hconn hport => hrw ⟨hop, conn, hconn, hport⟩
        refine iff_of_true ?_ ?_
        · obtain ⟨hmarkT, hsent⟩ := onPacket_of_not_request u hhdr hrequest (s := s)
          refine h.of_keepsCount ⟨?_, ?_⟩ ?_ hmarkT
          · rw [onPacket_dev, hdev]
            exact hkeeps.written
          · intro conn' hconn'
            rw [onPacket_dev, hdev] at hconn'
            exact hkeeps.conn conn' hconn'
          · rw [hsent, if_neg]
            rintro ⟨hop, hown⟩
            obtain ⟨conn, hconn, hports⟩ := (Option.any_eq_true _ _).mp hown
            exact hrw ⟨hop, conn, hconn, (decide_eq_true_iff.mp hports).1⟩
        · intro conn hdr' hconn hhdr' hop hport
          cases hhdr'
          exact absurd ⟨hop, conn, hconn, hport⟩ hrw

def KeepsSent (s : Session) : Action → Prop
  | .take fuel => ∀ q conn hdr, s.dev.queueConfigs[txQueue]? = some q → s.dev.conn = some conn →
      VsockHdr.readFrom (s.gathered q fuel) = some hdr → hdr.op = opRw → conn.guestPort = hdr.srcPort →
      let payload := payloadOf hdr (s.gathered q fuel)
      payload = [] ∨ conn.hostPort = hdr.dstPort ∧ payload.length ≤ takes s.dev.accepts
  | _ => True

theorem readChunk_written (d : VirtioVsock) (conn : VsockConn) (chunk : Chunk) (rest : List Chunk) :
    (d.readChunk conn chunk rest).written = d.written := by
  unfold readChunk
  dsimp only
  split
  · exact (enqueueHdr_keepsCount { d with incoming := rest } opCreditRequest).written
  · rfl

theorem receive_written (d : VirtioVsock) (data : List UInt8) : d.written.length ≤ (d.receive data).written.length := by
  unfold receive
  split
  · rename_i hdr _
    by_cases hrequest : hdr.op = opRequest
    · simp only [handleTxOp, if_pos hrequest]
      have hkeeps := enqueueHdr_keepsCount (d.connect hdr.srcPort hdr.dstPort hdr) opResponse
      exact (congrArg List.length hkeeps.written).ge
    · by_cases hrw : hdr.op = opRw ∧ ∃ conn, d.conn = some conn ∧ conn.guestPort = hdr.srcPort
      · obtain ⟨hop, conn, hconn, hport⟩ := hrw
        simp only [handleTxOp, if_neg hrequest, if_pos hop]
        rw [(receiveRw_forwards hdr.dstPort (payloadOf hdr data) hdr hconn hport).1, List.length_append]
        exact Nat.le_add_right _ _
      · have hkeeps := handleTxOp_keepsCount d hdr.dstPort (payloadOf hdr data) hdr hrequest
          fun hop conn hconn hport => hrw ⟨hop, conn, hconn, hport⟩
        exact (congrArg List.length hkeeps.written).ge
  · exact Nat.le_refl _

theorem mark_le {a : Action} (hnext : s.next a = some t) (h : s.mark ≤ s.dev.written.length) :
    t.mark ≤ t.dev.written.length := by
  cases next_effect hnext with
  | same _ hsame _ => exact h.trans (congrArg List.length hsame.written).ge
  | closed _ _ hwritten _ => exact h.trans (congrArg List.length hwritten).ge
  | read _ _ => exact h.trans (congrArg List.length (readChunk_written s.dev _ _ _)).ge
  | place _ _ hturn =>
    rw [withCore, rxTurn_dev hturn]
    exact h
  | @take fuel q u _ hturn =>
    have hgrows : s.dev.written.length ≤ u.dev.written.length := by
      rw [txTurn_dev hturn]
      exact receive_written s.dev _
    rw [onPacket_dev]
    cases hhdr : VsockHdr.readFrom (s.gathered q fuel) with
    | none =>
      simp only [onPacket, hhdr]
      exact h.trans hgrows
    | some hdr =>
      by_cases hrequest : hdr.op = opRequest
      · simp only [onPacket, hhdr, if_pos hrequest]
        exact Nat.le_refl _
      · rw [(onPacket_of_not_request u hhdr hrequest).1]
        exact h.trans hgrows

theorem keepsSent_iff {a : Action} (hnext : s.next a = some t) (hmark : s.mark ≤ s.dev.written.length)
    (h : s.Forwards) : t.Forwards ↔ s.KeepsSent a := by
  have hother : ∀ a, (∀ fuel, a ≠ .take fuel) → s.KeepsSent a := by
    intro a ha
    cases a with
    | take fuel => exact absurd rfl (ha fuel)
    | _ => exact trivial
  cases next_effect hnext with
  | same ha hsame _ =>
    refine iff_of_true (h.of_keepsCount (.of_conn_eq hsame.written hsame.conn) rfl rfl) (hother a ?_)
    rintro fuel rfl
    cases ha
  | closed ha hconn _ _ =>
    refine iff_of_true (fun conn hsome => ?_) (hother a ?_)
    · cases hconn.symm.trans hsome
    · rintro fuel rfl
      cases ha
  | read hconn _ =>
    refine iff_of_true (h.of_keepsCount ⟨readChunk_written s.dev _ _ _, ?_⟩ rfl rfl) trivial
    intro conn hsome
    cases (readChunk_conn hconn _ _).symm.trans hsome
    exact ⟨_, hconn, rfl⟩
  | place _ _ hturn =>
    refine iff_of_true (h.of_keepsCount ?_ rfl rfl) trivial
    rw [withCore, rxTurn_dev hturn]
    exact .of_conn_eq rfl rfl
  | take hq hturn =>
    rw [onPacket_forwards_iff h hmark (txTurn_dev hturn)]
    simp only [KeepsSent, hq, Option.some.injEq]
    exact ⟨fun h q' conn hdr hq' => hq' ▸ h conn hdr, fun h conn hdr => h _ conn hdr rfl⟩

/-- In a run from the start the socket has taken all that the guest sent, and no more is advertised than it took, exactly
if each step keeps what was sent. -/
theorem guest_to_host_lossless_iff (guestCid : UInt64) (mem : ByteStore) (as : List Action) :
    Steps (fun s a t => s.next a = some t ∧ t.Forwards) (start guestCid mem) as t ↔
      Steps (fun s a t => s.next a = some t ∧ s.KeepsSent a) (start guestCid mem) as t := by
  have hstart : (start guestCid mem).Forwards := fun conn hconn => (Option.some_ne_none conn hconn.symm).elim
  have hmark : (start guestCid mem).mark ≤ (start guestCid mem).dev.written.length := Nat.le_refl 0
  have hkept : ∀ (s : Session) (a : Action) (t : Session), s.next a = some t →
      s.mark ≤ s.dev.written.length → t.mark ≤ t.dev.written.length := fun _ _ _ => mark_le
  refine Steps.iff_of_step hkept ?_ hmark hstart
  intro s a t hnext hmark hforwards
  exact keepsSent_iff hnext hmark hforwards

end Session

section Lossy

def rxRing : QueueInfo := ⟨4, 0x5000, 0x6000, 0x7000⟩

def txRing : QueueInfo := ⟨4, 0x1000, 0x2000, 0x3000⟩

def requestHdr (bufAlloc : UInt32) : VsockHdr :=
  { srcCid := 3, dstCid := 2, srcPort := 1024, dstPort := 9999, type := 1, op := opRequest, bufAlloc }

def withPacket (availIdx : Nat) (pkt : List UInt8) : ByteStore := fun a =>
  if a < 0x2000 then (leBytes 8 0x4000 ++ leBytes 4 pkt.length).getD (a - 0x1000) 0
  else if a < 0x3000 then (leBytes 2 availIdx).getD (a - 0x2002) 0
  else pkt.getD (a - 0x4000) 0

def eleven : Chunk where
  bytes := List.replicate 11 7
  pos := Nat.le_of_ble_eq_true rfl
  le := Nat.le_of_ble_eq_true rfl

def shortOfCredit : List Action :=
  [.prepareActivate [rxRing, txRing] true 0x10000, .guest (withPacket 1 (requestHdr 10).toBytes), .take 1,
    .agent [eleven] [], .read]

theorem host_to_guest_lossless_fails : ¬ ∀ (guestCid : UInt64) (mem : ByteStore) (as : List Action) (t : Session),
    Session.Runs (.start guestCid mem) as t → t.Lossless := by
  intro h
  have hrun : (Steps.trace Session.next (fun _ _ => True) (.start 3 fun _ => 0) shortOfCredit).map (fun t =>
      (t.dev.conn.isSome, t.read.length, (t.delivered ++ Session.payloads t.dev.pendingRx).length)) =
        some (true, 11, 10) := by decide
  obtain ⟨t, ht, hcounts⟩ := Option.map_eq_some_iff.mp hrun
  simp only [Prod.mk.injEq] at hcounts
  obtain ⟨hconn, hread, hkept⟩ := hcounts
  have hruns : Session.Runs (.start 3 fun _ => 0) shortOfCredit t := Steps.mono (fun _ _ _ h => h.1) (Steps.of_trace ht)
  have hlength := congrArg List.length (h 3 _ _ t hruns hconn)
  omega

def dataPacket (payload : List UInt8) : List UInt8 :=
  { requestHdr 10 with op := opRw, len := .ofNat payload.length : VsockHdr }.toBytes ++ payload

/-- The guest connects and sends three bytes, of which the socket takes two before it would block. -/
def shortOfSocket : List Action :=
  [.prepareActivate [rxRing, txRing] true 0x10000, .guest (withPacket 1 (requestHdr 10).toBytes), .take 1,
    .guest (withPacket 2 (dataPacket [1, 2, 3])), .agent [] [2, 0], .take 1]

theorem guest_to_host_lossless_fails : ¬ ∀ (guestCid : UInt64) (mem : ByteStore) (as : List Action) (t : Session),
    Session.Runs (.start guestCid mem) as t → t.Forwards := by
  intro h
  have hrun : (Steps.trace Session.next (fun _ _ => True) (.start 3 fun _ => 0) shortOfSocket).map (fun t =>
      (t.sent, t.handed, t.dev.conn.map (·.fwdCnt))) = some ([1, 2, 3], [1, 2], some 3) := by decide
  obtain ⟨t, ht, hstreams⟩ := Option.map_eq_some_iff.mp hrun
  simp only [Prod.mk.injEq] at hstreams
  obtain ⟨hsent, hhanded, hcount⟩ := hstreams
  obtain ⟨conn, hconn, -⟩ := Option.map_eq_some_iff.mp hcount
  have hruns : Session.Runs (.start 3 fun _ => 0) shortOfSocket t := Steps.mono (fun _ _ _ h => h.1) (Steps.of_trace ht)
  have hsame := (h 3 _ _ t hruns conn hconn).handed
  rw [hsent, hhanded] at hsame
  cases hsame

end Lossy

end CloneVmm.Virtio.Vsock
