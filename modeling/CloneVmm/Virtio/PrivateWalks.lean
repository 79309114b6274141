import CloneVmm.Virtio.NetReceive
import CloneVmm.Virtio.Vsock

namespace CloneVmm.Virtio

open CloneVmm.Lib Raw Vsock
open Relation (ReflTransGen)

structure TurnOk {τ : Type} (l : GuestLayout) (q : QueueInfo) (v : Visit τ) (lastAvail lastUsed : Nat)
    (s : ByteStore × τ) : Prop where
  size : q.size ≠ 0
  entry : Inside l (availEntryPtr l q (lastAvail % q.size)) 2
  chain : ChainIn l q v (entryOf l q s.1 lastAvail) s
  used : UsedIn l q lastUsed

theorem turnOk_iff {τ : Type} {l : GuestLayout} {q : QueueInfo} {v : Visit τ} {lastAvail lastUsed : Nat}
    {s : ByteStore × τ} (len : τ → Nat) :
    TurnOk l q v lastAvail lastUsed s ↔
      ∃ head fuel t mem, readAvailRingEntry l q s.1 lastAvail = .ok head ∧ walk l q v fuel head s = some (.ok t) ∧
        pushUsed l q t.1 lastUsed head (len t.2) = .ok mem := by
  simp only [readAvailRingEntry_eq_ok, pushUsed_eq_ok]
  constructor
  · intro h
    obtain ⟨fuel, t, hwalk⟩ := walk_completes_iff.mpr h.chain
    exact ⟨_, fuel, t, _, ⟨⟨h.size, h.entry⟩, rfl⟩, hwalk, h.used, rfl⟩
  · rintro ⟨head, fuel, t, mem, ⟨⟨hsize, hentry⟩, rfl⟩, hwalk, hused, -⟩
    exact ⟨hsize, hentry, walk_completes_iff.mp ⟨fuel, t, hwalk⟩, hused⟩

namespace Vsock.VirtioVsock

structure SameQueues (d e : VirtioVsock) : Prop where
  activated : e.activated = d.activated
  queueConfigs : e.queueConfigs = d.queueConfigs
  layout : e.layout = d.layout
  lastAvail : e.lastAvail = d.lastAvail
  lastUsed : e.lastUsed = d.lastUsed
  signals : e.signals = d.signals

theorem SameQueues.trans {d e f : VirtioVsock} (h : SameQueues d e) (h' : SameQueues e f) : SameQueues d f :=
  ⟨h'.1.trans h.1, h'.2.trans h.2, h'.3.trans h.3, h'.4.trans h.4, h'.5.trans h.5, h'.6.trans h.6⟩

theorem enqueueHdr_sameQueues (d : VirtioVsock) (op : UInt16) : SameQueues d (d.enqueueHdr op) := by
  unfold enqueueHdr
  cases d.conn with
  | none => exact ⟨rfl, rfl, rfl, rfl, rfl, rfl⟩
  | some conn => exact ⟨rfl, rfl, rfl, rfl, rfl, rfl⟩

theorem receiveRw_sameQueues (d : VirtioVsock) (guestPort hostPort : UInt32) (payload : List UInt8) (hdr : VsockHdr) :
    SameQueues d (d.receiveRw guestPort hostPort payload hdr) := by
  unfold receiveRw
  cases d.conn with
  | none => exact ⟨rfl, rfl, rfl, rfl, rfl, rfl⟩
  | some conn =>
    dsimp only
    split
    · exact ⟨rfl, rfl, rfl, rfl, rfl, rfl⟩
    · exact ⟨rfl, rfl, rfl, rfl, rfl, rfl⟩

theorem disconnect_sameQueues (d : VirtioVsock) (guestPort hostPort : UInt32) :
    SameQueues d (d.disconnect guestPort hostPort) := by
  unfold disconnect
  cases d.conn with
  | none => exact ⟨rfl, rfl, rfl, rfl, rfl, rfl⟩
  | some conn =>
    dsimp only
    split
    · exact ⟨rfl, rfl, rfl, rfl, rfl, rfl⟩
    · exact ⟨rfl, rfl, rfl, rfl, rfl, rfl⟩

theorem handleTxOp_sameQueues (d : VirtioVsock) (op : UInt16) (guestPort hostPort : UInt32) (payload : List UInt8)
    (hdr : VsockHdr) : SameQueues d (d.handleTxOp op guestPort hostPort payload hdr) := by
  have hconnect : SameQueues d (d.connect guestPort hostPort hdr) := ⟨rfl, rfl, rfl, rfl, rfl, rfl⟩
  unfold handleTxOp
  split_ifs
  · exact hconnect.trans (enqueueHdr_sameQueues _ _)
  · exact receiveRw_sameQueues d guestPort hostPort payload hdr
  · exact disconnect_sameQueues d guestPort hostPort
  · exact ⟨rfl, rfl, rfl, rfl, rfl, rfl⟩
  · exact enqueueHdr_sameQueues d opCreditUpdate
  · exact ⟨rfl, rfl, rfl, rfl, rfl, rfl⟩

theorem receive_sameQueues (d : VirtioVsock) (data : List UInt8) : SameQueues d (d.receive data) := by
  unfold receive
  cases VsockHdr.readFrom data with
  | none => exact ⟨rfl, rfl, rfl, rfl, rfl, rfl⟩
  | some hdr => exact handleTxOp_sameQueues d _ _ _ _ hdr

section Turns

variable {q : QueueInfo} {fuel : Nat} {s t : State}

theorem complete_eq_ok {d : VirtioVsock} {qi descIdx len : Nat} {mem : ByteStore} :
    d.complete qi q mem descIdx len = .ok t ↔
      ∃ mem', pushUsed d.layout q mem (d.lastUsed qi).toNat descIdx len = .ok mem' ∧
        ⟨d.setLastUsed qi (d.lastUsed qi + 1), mem'⟩ = t := by
  simp [complete, exceptBind_eq_ok, pure, Except.pure]

theorem txTurn_eq_ok : txTurn q fuel s = some (.ok t) ↔
    ∃ head data mem u, readAvailRingEntry s.dev.layout q s.mem (s.dev.lastAvail txQueue).toNat = .ok head ∧
      walk s.dev.layout q gather fuel head (s.mem, []) = some (.ok (mem, data)) ∧
      (s.dev.setLastAvail txQueue (s.dev.lastAvail txQueue + 1)).complete txQueue q mem head 0 = .ok u ∧
      { u with dev := u.dev.receive data } = t := by
  unfold txTurn
  cases readAvailRingEntry s.dev.layout q s.mem (s.dev.lastAvail txQueue).toNat with
  | error fault => simp
  | ok head =>
    have hlayout : (s.dev.setLastAvail txQueue (s.dev.lastAvail txQueue + 1)).layout = s.dev.layout := rfl
    simp only [hlayout, Except.ok.injEq, exists_and_left, exists_eq_left']
    cases walk s.dev.layout q gather fuel head (s.mem, []) with
    | none => simp
    | some result =>
      cases result with
      | error fault => simp
      | ok out =>
        obtain ⟨mem, data⟩ := out
        simp only [Option.some.injEq, Except.ok.injEq, Prod.mk.injEq]
        cases hdone : (s.dev.setLastAvail txQueue (s.dev.lastAvail txQueue + 1)).complete txQueue q mem head 0 with
        | error fault => simp [Except.map, hdone]
        | ok u => simp [Except.map, hdone]

theorem txTurn_completes_iff : Loop.Completes (txTurn q) s ↔
    TurnOk s.dev.layout q gather (s.dev.lastAvail txQueue).toNat (s.dev.lastUsed txQueue).toNat (s.mem, []) := by
  rw [turnOk_iff fun _ => 0]
  simp only [Loop.Completes, txTurn_eq_ok, complete_eq_ok]
  constructor
  · rintro ⟨fuel, t, head, data, mem, u, hhead, hwalk, ⟨mem', hpush, -⟩, -⟩
    exact ⟨head, fuel, (mem, data), mem', hhead, hwalk, hpush⟩
  · rintro ⟨head, fuel, ⟨mem, data⟩, mem', hhead, hwalk, hpush⟩
    exact ⟨fuel, _, head, data, mem, _, hhead, hwalk, ⟨mem', hpush, rfl⟩, rfl⟩

theorem rxTurn_eq_ok : rxTurn q fuel s = some (.ok t) ↔
    ∃ head rest totalWritten mem, readAvailRingEntry s.dev.layout q s.mem (s.dev.lastAvail rxQueue).toNat = .ok head ∧
      walk s.dev.layout q scatter fuel head (s.mem, s.dev.pendingRx.headD [], 0) =
        some (.ok (mem, rest, totalWritten)) ∧
      complete { s.dev.setLastAvail rxQueue (s.dev.lastAvail rxQueue + 1) with pendingRx := s.dev.pendingRx.tail }
        rxQueue q mem head totalWritten.toNat = .ok t := by
  unfold rxTurn
  cases readAvailRingEntry s.dev.layout q s.mem (s.dev.lastAvail rxQueue).toNat with
  | error fault => simp
  | ok head =>
    have hlayout : (s.dev.setLastAvail rxQueue (s.dev.lastAvail rxQueue + 1)).layout = s.dev.layout := rfl
    simp only [hlayout, Except.ok.injEq, exists_and_left, exists_eq_left']
    cases walk s.dev.layout q scatter fuel head (s.mem, s.dev.pendingRx.headD [], 0) with
    | none => simp
    | some result =>
      cases result with
      | error fault => simp
      | ok out =>
        obtain ⟨mem, rest, totalWritten⟩ := out
        simp

theorem rxTurn_completes_iff : Loop.Completes (rxTurn q) s ↔
    TurnOk s.dev.layout q scatter (s.dev.lastAvail rxQueue).toNat (s.dev.lastUsed rxQueue).toNat
      (s.mem, s.dev.pendingRx.headD [], 0) := by
  rw [turnOk_iff fun p => p.2.toNat]
  simp only [Loop.Completes, rxTurn_eq_ok, complete_eq_ok]
  constructor
  · rintro ⟨fuel, t, head, rest, totalWritten, mem, hhead, hwalk, mem', hpush, -⟩
    exact ⟨head, fuel, (mem, rest, totalWritten), mem', hhead, hwalk, hpush⟩
  · rintro ⟨head, fuel, ⟨mem, rest, totalWritten⟩, mem', hhead, hwalk, hpush⟩
    exact ⟨fuel, _, head, rest, totalWritten, mem, hhead, hwalk, mem', hpush, rfl⟩

theorem txTurn_steady : Loop.Steady (txTurn q) := by
  intro s r fuel k h hle
  unfold txTurn at h ⊢
  cases hread : readAvailRingEntry s.dev.layout q s.mem (s.dev.lastAvail txQueue).toNat with
  | error fault => rwa [hread] at h
  | ok head =>
    rw [hread] at h
    dsimp only at h ⊢
    cases hwalk : walk (s.dev.setLastAvail txQueue (s.dev.lastAvail txQueue + 1)).layout q gather fuel head (s.mem, []) with
    | none =>
      rw [hwalk] at h
      cases h
    | some result =>
      rw [walk_steady hwalk hle]
      rwa [hwalk] at h

theorem rxTurn_steady : Loop.Steady (rxTurn q) := by
  intro s r fuel k h hle
  unfold rxTurn at h ⊢
  cases hread : readAvailRingEntry s.dev.layout q s.mem (s.dev.lastAvail rxQueue).toNat with
  | error fault => rwa [hread] at h
  | ok head =>
    rw [hread] at h
    dsimp only at h ⊢
    cases hwalk : walk (s.dev.setLastAvail rxQueue (s.dev.lastAvail rxQueue + 1)).layout q scatter fuel head
        (s.mem, s.dev.pendingRx.headD [], 0) with
    | none =>
      rw [hwalk] at h
      cases h
    | some result =>
      rw [walk_steady hwalk hle]
      rwa [hwalk] at h

theorem setLastAvail_lastAvail (d : VirtioVsock) (qi : Nat) (idx : UInt16) :
    (d.setLastAvail qi idx).lastAvail qi = idx := Function.update_self _ _ _

theorem txTurn_lastAvail (h : txTurn q fuel s = some (.ok t)) :
    t.dev.lastAvail txQueue = s.dev.lastAvail txQueue + 1 ∧ t.dev.layout = s.dev.layout := by
  obtain ⟨head, data, mem, u, -, -, hdone, rfl⟩ := txTurn_eq_ok.mp h
  obtain ⟨mem', -, rfl⟩ := complete_eq_ok.mp hdone
  obtain ⟨-, -, hlayout, hlast, -, -⟩ := receive_sameQueues
    ((s.dev.setLastAvail txQueue (s.dev.lastAvail txQueue + 1)).setLastUsed txQueue (s.dev.lastUsed txQueue + 1)) data
  exact ⟨(congrFun hlast txQueue).trans (setLastAvail_lastAvail s.dev txQueue _), hlayout⟩

theorem rxTurn_lastAvail (h : rxTurn q fuel s = some (.ok t)) :
    t.dev.lastAvail rxQueue = s.dev.lastAvail rxQueue + 1 ∧ t.dev.layout = s.dev.layout := by
  obtain ⟨head, rest, totalWritten, mem, -, -, hdone⟩ := rxTurn_eq_ok.mp h
  obtain ⟨mem', -, rfl⟩ := complete_eq_ok.mp hdone
  exact ⟨setLastAvail_lastAvail s.dev rxQueue _, rfl⟩

def chainsLeft (availIdx : Nat) (lastAvail : UInt16) : Nat := (UInt16.ofNat availIdx - lastAvail).toNat

theorem chainsLeft_succ {availIdx : Nat} {lastAvail : UInt16} (hidx : availIdx < 2 ^ 16)
    (hmore : lastAvail.toNat ≠ availIdx) : chainsLeft availIdx (lastAvail + 1) + 1 = chainsLeft availIdx lastAvail := by
  unfold chainsLeft
  have hlast := lastAvail.toNat_lt
  simp only [UInt16.toNat_sub, UInt16.toNat_add, UInt16.toNat_ofNat', UInt16.toNat_ofNat]
  omega

def txMore (availIdx : Nat) (s : State) : Bool := (s.dev.lastAvail txQueue).toNat != availIdx

def rxMore (availIdx : Nat) (s : State) : Bool :=
  (s.dev.lastAvail rxQueue).toNat != availIdx && !s.dev.pendingRx.isEmpty

def TxTurnOk (q : QueueInfo) (s : State) : Prop :=
  TurnOk s.dev.layout q gather (s.dev.lastAvail txQueue).toNat (s.dev.lastUsed txQueue).toNat (s.mem, [])

def RxTurnOk (q : QueueInfo) (s : State) : Prop :=
  TurnOk s.dev.layout q scatter (s.dev.lastAvail rxQueue).toNat (s.dev.lastUsed rxQueue).toNat
    (s.mem, s.dev.pendingRx.headD [], 0)

structure QueueOk (q : QueueInfo) (more : Nat → State → Bool) (turn : Nat → State → Option (Except Raw.Fault State))
    (ok : State → Prop) (s : State) : Prop where
  idx : Inside s.dev.layout (availIdxPtr s.dev.layout q) 2
  turns : ∀ t, ReflTransGen (Loop.Turn (more (availIdxOf s.dev.layout q s.mem)) turn) s t →
    more (availIdxOf s.dev.layout q s.mem) t = true → ok t

theorem queue_completes_iff {more : Nat → State → Bool} {turn : Nat → State → Option (Except Raw.Fault State)}
    {ok : State → Prop} {qi : Nat} (hsteady : Loop.Steady turn) (hok : ∀ s, Loop.Completes turn s ↔ ok s)
    (hmore : ∀ i s, more i s = true → (s.dev.lastAvail qi).toNat ≠ i)
    (hturn : ∀ fuel s t, turn fuel s = some (.ok t) → t.dev.lastAvail qi = s.dev.lastAvail qi + 1) :
    (∃ i, readAvailIdx s.dev.layout q s.mem = .ok i ∧ Loop.Completes (Loop.run (more i) turn) s) ↔
      QueueOk q more turn ok s := by
  have hloop : ∀ i, i < 2 ^ 16 → (Loop.Completes (Loop.run (more i) turn) s ↔
      ∀ t, ReflTransGen (Loop.Turn (more i) turn) s t → more i t = true → ok t) := by
    intro i hi
    rw [Loop.completes_iff hsteady (fun s => chainsLeft i (s.dev.lastAvail qi))]
    · simp only [hok]
    · rintro a b ⟨hmoreA, fuel, hb⟩
      rw [hturn fuel a b hb]
      exact Nat.lt_of_succ_le (chainsLeft_succ hi (hmore i a hmoreA)).le
  constructor
  · rintro ⟨i, hread, hrun⟩
    obtain ⟨hin, rfl⟩ := readAvailIdx_eq_ok.mp hread
    exact ⟨hin, (hloop _ availIdxOf_lt).mp hrun⟩
  · intro h
    exact ⟨_, readAvailIdx_eq_ok.mpr ⟨h.idx, rfl⟩, (hloop _ availIdxOf_lt).mpr h.turns⟩

theorem processTx_completes_iff : Loop.Completes processTx s ↔
    ∀ q, s.dev.queueConfigs[txQueue]? = some q → QueueOk q txMore (txTurn q) (TxTurnOk q) s := by
  have hqueue : ∀ q, _ ↔ QueueOk q txMore (txTurn q) (TxTurnOk q) s := fun q =>
    queue_completes_iff txTurn_steady (fun _ => txTurn_completes_iff) (fun _ _ => bne_iff_ne.mp)
      (fun _ _ _ h => (txTurn_lastAvail h).1)
  unfold Loop.Completes processTx
  cases s.dev.queueConfigs[txQueue]? with
  | none => simp
  | some q =>
    simp only [Option.some.injEq, forall_eq', ← hqueue]
    cases hread : readAvailIdx s.dev.layout q s.mem with
    | error fault => simp
    | ok i =>
      simp only [Except.ok.injEq, exists_eq_left']
      rfl

theorem readChunk_sameQueues (d : VirtioVsock) (conn : VsockConn) (chunk : Chunk) (rest : List Chunk) :
    SameQueues d (d.readChunk conn chunk rest) := by
  have hrest : SameQueues d { d with incoming := rest } := ⟨rfl, rfl, rfl, rfl, rfl, rfl⟩
  unfold readChunk
  dsimp only
  split
  · exact hrest.trans (enqueueHdr_sameQueues _ opCreditRequest)
  · exact ⟨rfl, rfl, rfl, rfl, rfl, rfl⟩

theorem readAgentData_sameQueues (d : VirtioVsock) : SameQueues d d.readAgentData := by
  unfold readAgentData
  generalize d.incoming.length = left
  induction left generalizing d with
  | zero => exact ⟨rfl, rfl, rfl, rfl, rfl, rfl⟩
  | succ left ih =>
    rw [readChunks.eq_def]
    dsimp only
    split
    · split
      · exact readChunk_sameQueues d _ _ _
      · exact (readChunk_sameQueues d _ _ _).trans (ih _)
    · exact ⟨rfl, rfl, rfl, rfl, rfl, rfl⟩

theorem processRx_completes_iff : Loop.Completes processRx s ↔
    ∀ q, s.dev.queueConfigs[rxQueue]? = some q →
      QueueOk q rxMore (rxTurn q) (RxTurnOk q) { s with dev := s.dev.readAgentData } := by
  have hqueue : ∀ q s, _ ↔ QueueOk q rxMore (rxTurn q) (RxTurnOk q) s := fun q s =>
    queue_completes_iff rxTurn_steady (fun _ => rxTurn_completes_iff)
      (fun _ _ h => bne_iff_ne.mp (Bool.and_eq_true _ _ ▸ h).1) (fun _ _ _ h => (rxTurn_lastAvail h).1)
  unfold Loop.Completes processRx
  cases s.dev.queueConfigs[rxQueue]? with
  | none => simp
  | some q =>
    simp only [Option.some.injEq, forall_eq', ← hqueue]
    cases hread : readAvailIdx s.dev.readAgentData.layout q s.mem with
    | error fault => simp
    | ok i =>
      simp only [Except.ok.injEq, exists_eq_left']
      rfl

end Turns

end Vsock.VirtioVsock

namespace Net

variable {l : GuestLayout} {queueConfigs : List QueueInfo} {q : QueueInfo} {tap : Option Frame} {mem : ByteStore}

structure ReceiveOk (l : GuestLayout) (q : QueueInfo) (tap : Option Frame) (mem : ByteStore) : Prop where
  availIdx : Inside l (availIdxPtr l q) 2
  usedIdx : Inside l (usedIdxPtr l q) 2
  entry : availIdxOf l q mem ≠ usedIdxOf l q mem →
    q.size ≠ 0 ∧ Inside l (availEntryPtr l q (usedIdxOf l q mem % q.size)) 2
  turn : availIdxOf l q mem ≠ usedIdxOf l q mem → ∀ frame, tap = some frame →
    TurnOk l q fill (usedIdxOf l q mem) (usedIdxOf l q mem) (mem, .start frame)

theorem rxPopAvail_idle (h : ¬ (l.hasMem = true ∧ ∃ q, queueConfigs[rxQueue]? = some q ∧ q.availAddr ≠ 0)) :
    rxPopAvail l queueConfigs mem = .ok none := by
  unfold rxPopAvail
  cases hmem : l.hasMem with
  | false => rfl
  | true =>
    cases hq : queueConfigs[rxQueue]? with
    | none => rfl
    | some q =>
      have haddr : q.availAddr = 0 := by_contra fun haddr => h ⟨hmem, q, hq, haddr⟩
      exact if_pos haddr

theorem processRxFromTap_completes_iff : Loop.Completes (processRxFromTap l queueConfigs tap) mem ↔
    (l.hasMem = true → ∀ q, queueConfigs[rxQueue]? = some q → q.availAddr ≠ 0 → ReceiveOk l q tap mem) := by
  simp only [Loop.Completes, processRxFromTap_eq_ok]
  by_cases hlive : l.hasMem = true ∧ ∃ q, queueConfigs[rxQueue]? = some q ∧ q.availAddr ≠ 0
  · obtain ⟨hmem, q, hq, haddr⟩ := hlive
    simp only [rxPopAvail_eq_ok hmem hq haddr, hmem, hq, Option.some.injEq, forall_const, forall_eq']
    constructor
    · rintro ⟨fuel, out, popped, ⟨havail, hused, hpop⟩, hrest⟩ -
      refine ⟨havail, hused, ?_, ?_⟩
      · intro hne
        rw [if_neg hne] at hpop
        obtain ⟨head, hread, -⟩ := hpop
        exact (readAvailRingEntry_eq_ok.mp hread).1
      · rintro hne frame rfl
        rw [if_neg hne] at hpop
        obtain ⟨head, hread, rfl⟩ := hpop
        obtain ⟨h, -⟩ | ⟨q', head', usedIdx, frame', t, mem', hpopped, hframe, hwalk, hpush, -⟩ := hrest
        · simp at h
        · cases hpopped
          cases hframe
          exact (turnOk_iff fun p : Filling => p.written.toNat).mpr ⟨head, fuel, t, mem', hread, hwalk, hpush⟩
    · intro h
      obtain ⟨havail, hused, hentry, hturn⟩ := h haddr
      by_cases hsame : availIdxOf l q mem = usedIdxOf l q mem
      · refine ⟨0, (mem, false), none, ⟨havail, hused, ?_⟩, .inl ⟨.inl rfl, rfl⟩⟩
        rw [if_pos hsame]
      · cases tap with
        | none =>
          refine ⟨0, (mem, false), some (q, entryOf l q mem (usedIdxOf l q mem), usedIdxOf l q mem),
            ⟨havail, hused, ?_⟩, .inl ⟨.inr rfl, rfl⟩⟩
          rw [if_neg hsame]
          exact ⟨_, readAvailRingEntry_eq_ok.mpr ⟨hentry hsame, rfl⟩, rfl⟩
        | some frame =>
          obtain ⟨head, fuel, t, mem', hread, hwalk, hpush⟩ :=
            (turnOk_iff fun p : Filling => p.written.toNat).mp (hturn hsame frame rfl)
          refine ⟨fuel, _, _, ⟨havail, hused, ?_⟩,
            .inr ⟨q, head, _, frame, t, mem', rfl, rfl, hwalk, hpush, rfl⟩⟩
          rw [if_neg hsame]
          exact ⟨head, hread, rfl⟩
  · refine iff_of_true ⟨0, (mem, false), none, rxPopAvail_idle hlive, .inl ⟨.inl rfl, rfl⟩⟩ ?_
    exact fun hmem q hq haddr => absurd ⟨hmem, q, hq, haddr⟩ hlive

end Net

/-- A guest decides whether the walks come to an end inside guest memory. -/
theorem private_walks_complete_iff (s : VirtioVsock.State) (l : GuestLayout) (queueConfigs : List QueueInfo)
    (tap : Option Net.Frame) (mem : ByteStore) :
    (Loop.Completes VirtioVsock.processTx s ↔ ∀ q, s.dev.queueConfigs[txQueue]? = some q →
      VirtioVsock.QueueOk q VirtioVsock.txMore (VirtioVsock.txTurn q) (VirtioVsock.TxTurnOk q) s) ∧
    (Loop.Completes VirtioVsock.processRx s ↔ ∀ q, s.dev.queueConfigs[rxQueue]? = some q →
      VirtioVsock.QueueOk q VirtioVsock.rxMore (VirtioVsock.rxTurn q) (VirtioVsock.RxTurnOk q)
        { s with dev := s.dev.readAgentData }) ∧
    (Loop.Completes (Net.processRxFromTap l queueConfigs tap) mem ↔ (l.hasMem = true → ∀ q,
      queueConfigs[Net.rxQueue]? = some q → q.availAddr ≠ 0 → Net.ReceiveOk l q tap mem)) :=
  ⟨VirtioVsock.processTx_completes_iff, VirtioVsock.processRx_completes_iff, Net.processRxFromTap_completes_iff⟩

theorem not_chainIn_of_selfLinked {τ : Type} {l : GuestLayout} {q : QueueInfo} {v : Visit τ} {idx : Nat}
    {s : ByteStore × τ} (hnext : (descriptorAt l q s.1 idx).flags &&& vringDescFNext ≠ 0)
    (hself : (descriptorAt l q s.1 idx).next = idx) (hsame : visited l q v idx s = s) : ¬ ChainIn l q v idx s := by
  intro h
  generalize hi : idx = i at h
  generalize ht : s = t at h
  induction h with
  | last _ hlast =>
    subst hi ht
    exact hnext hlast
  | next _ _ _ ih =>
    subst hi ht
    exact ih hself.symm hsame.symm

section SelfLinked

def selfLinkedLayout : GuestLayout := ⟨true, 0x10000, 0, 0⟩

def selfLinkedQueue : QueueInfo := ⟨4, 0x1000, 0x2000, 0x3000⟩

def selfLinkedMem : ByteStore := fun a => if a = 0x100c ∨ a = 0x2002 then 1 else 0

def selfLinkedDevice (queueConfigs : List QueueInfo) (pendingRx : List (List UInt8)) : VirtioVsock where
  guestCid := 3
  activated := true
  queueConfigs
  layout := selfLinkedLayout
  lastAvail _ := 0
  lastUsed _ := 0
  conn := none
  pendingRx
  incoming := []
  accepts := []
  written := []
  signals := 0

theorem not_chainIn_selfLinked {τ : Type} {v : Visit τ} {t : τ}
    (hsame : ∀ offset, v.copy offset ⟨0, 0, 1, 0⟩ (selfLinkedMem, t) = (selfLinkedMem, t)) :
    ¬ ChainIn selfLinkedLayout selfLinkedQueue v 0 (selfLinkedMem, t) := by
  have hdesc : descriptorAt selfLinkedLayout selfLinkedQueue selfLinkedMem 0 = ⟨0, 0, 1, 0⟩ := by decide
  refine not_chainIn_of_selfLinked (v := v) ?_ ?_ ?_
  · rw [hdesc]
    decide
  · rw [hdesc]
  · unfold visited
    rw [hdesc]
    exact hsame _

def selfLinkedVirtqueue : Virtqueue :=
  { size := 4, ready := true, descTable := 0x1000, availRing := 0x2000, usedRing := 0x3000, hasMem := true,
    guestMemSize := 0x10000 }

def oneByte : Net.Frame where
  bytes := [0]
  pos := Nat.one_pos
  le := Nat.le_of_ble_eq_true rfl

theorem private_walks_complete_fails :
    ¬ Loop.Completes VirtioVsock.processTx
      ⟨selfLinkedDevice [selfLinkedQueue, selfLinkedQueue] [], selfLinkedMem⟩ ∧
    ¬ Loop.Completes VirtioVsock.processRx ⟨selfLinkedDevice [selfLinkedQueue] [[]], selfLinkedMem⟩ ∧
    ¬ Loop.Completes (Net.processRxFromTap selfLinkedLayout [selfLinkedQueue] (some oneByte)) selfLinkedMem ∧
    (selfLinkedVirtqueue.popAvail selfLinkedMem).isNone ∧
    VirtioVsock.processTx 1 ⟨selfLinkedDevice [selfLinkedQueue, ⟨0, 0x1000, 0x2000, 0x3000⟩] [], selfLinkedMem⟩ =
      some (.error .zeroSize) ∧
    VirtioVsock.processTx 2 ⟨selfLinkedDevice [selfLinkedQueue, ⟨4, 0x20000, 0x2000, 0x3000⟩] [], selfLinkedMem⟩ =
      some (.error (.outside 0x20000 8)) := by
  refine ⟨?_, ?_, ?_, by decide, rfl, rfl⟩
  · intro h
    have hturn := (VirtioVsock.processTx_completes_iff.mp h _ rfl).turns _ .refl (by decide)
    exact not_chainIn_selfLinked (fun _ => rfl) hturn.chain
  · intro h
    have hturn := (VirtioVsock.processRx_completes_iff.mp h _ rfl).turns _ .refl (by decide)
    exact not_chainIn_selfLinked (fun _ => rfl) hturn.chain
  · intro h
    have hok := Net.processRxFromTap_completes_iff.mp h rfl _ rfl (by decide)
    exact not_chainIn_selfLinked (fun _ => rfl) (hok.turn (by decide) _ rfl).chain

end SelfLinked

end CloneVmm.Virtio
