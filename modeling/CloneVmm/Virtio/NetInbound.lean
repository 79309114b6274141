import CloneVmm.Lib.Fifo
import CloneVmm.Lib.Simulation
import CloneVmm.Virtio.RingDriver

namespace CloneVmm.Virtio.Net

open CloneVmm.Lib Raw RingDriver

variable {vq : Virtqueue} {rings : Rings vq} {mem : ByteStore} {descs : List Descriptor}

def rxPacket (frame : Frame) (descs : List Descriptor) : List UInt8 :=
  (List.replicate virtioNetHdrSize 0 ++ frame.bytes).take (room descs)

def deliver (s : Client Unit) (frame : Frame) (mem : ByteStore) : Client Unit :=
  s.complete () mem (rxPacket frame s.next.2).length

/-- `start` is where the used ring was at first. -/
inductive InboundStep (rings : Rings vq) (queueConfigs : List QueueInfo) (start : Nat) :
    Client Unit → Option (FifoAction (List UInt8)) → Client Unit → Prop
  | prepare {s : Client Unit} {mem : ByteStore} :
      s.Spares rings mem → InboundStep rings queueConfigs start s none { s with ring := { s.ring with mem } }
  | post {s : Client Unit} {head : Nat} {descs : List Descriptor} :
      s.MayPost rings head descs → InboundStep rings queueConfigs start s none (s.publish rings head descs)
  | idle {s : Client Unit} {tap : Option Frame} {fuel : Nat} {mem : ByteStore} {delivered : Bool} :
      rxPopAvail vq.layout queueConfigs s.ring.mem = .ok none ∨ tap = none →
      processRxFromTap vq.layout queueConfigs tap fuel s.ring.mem = some (.ok (mem, delivered)) →
      InboundStep rings queueConfigs start s none { s with ring := { s.ring with mem } }
  | receive {s : Client Unit} {frame : Frame} {popped : QueueInfo × Nat × Nat} {fuel : Nat} {mem : ByteStore}
      {delivered : Bool} :
      rxPopAvail vq.layout queueConfigs s.ring.mem = .ok (some popped) →
      processRxFromTap vq.layout queueConfigs (some frame) fuel s.ring.mem = some (.ok (mem, delivered)) →
      InboundStep rings queueConfigs start s (some (.put (rxPacket frame s.next.2))) (deliver s frame mem)
  | take {s : Client Unit} {id len : Nat} :
      s.Finds rings start id len →
      InboundStep rings queueConfigs start s (some (.get (s.fetch vq.layout id len))) (s.release id)

section Device

variable {queueConfigs : List QueueInfo} {start : Nat} {r : RingState Unit}

theorem mapped_part {gpa len off i n : Nat} (h : vq.Mapped gpa len off) (hi : i + n ≤ len) :
    vq.Mapped (gpa + i) n (off + i) where
  hasMem := h.hasMem
  gpa_le := by
    have hgpa := h.gpa_le
    omega
  off_le := by
    have hoff := h.off_le
    omega
  size_lt := h.size_lt
  offset := by
    intro j hj
    rw [Nat.add_assoc, Nat.add_assoc]
    exact h.offset (i + j) (by omega)

structure RxConfigured (vq : Virtqueue) (queueConfigs : List QueueInfo) : Prop where
  config : queueConfigs[rxQueue]? = some ⟨vq.size, vq.descTable, vq.availRing, vq.usedRing⟩
  programmed : vq.availRing ≠ 0
  hole : vq.holeStart ≤ vq.holeEnd

theorem rxPopAvail_none (hconf : RxConfigured vq queueConfigs) (h : RingInv rings start start r)
    (hall : r.published.length = r.popped.length) : rxPopAvail vq.layout queueConfigs r.mem = .ok none := by
  have havail : availIdxPtr vq.layout ⟨vq.size, vq.descTable, vq.availRing, vq.usedRing⟩ = rings.avail + 2 :=
    mapped_gpaToPtr rings.availMapped hconf.hole (by omega)
  have hused : usedIdxPtr vq.layout ⟨vq.size, vq.descTable, vq.availRing, vq.usedRing⟩ = rings.used + 2 :=
    mapped_gpaToPtr rings.usedMapped hconf.hole (by omega)
  have havailIn := rings.availMapped.off_le
  have husedIn := rings.usedMapped.off_le
  have hsame : word16 r.mem (rings.avail + 2) = word16 r.mem (rings.used + 2) := by rw [h.availIdx, h.usedIdx, hall]
  refine (rxPopAvail_eq_ok rings.availMapped.hasMem hconf.config hconf.programmed).mpr ⟨?_, ?_, ?_⟩
  · rw [havail]
    exact .inr ((by omega : rings.avail + 2 + 2 ≤ rings.avail + (4 + 2 * vq.size)).trans havailIn)
  · rw [hused]
    exact .inr ((by omega : rings.used + 2 + 2 ≤ rings.used + (4 + 8 * vq.size)).trans husedIn)
  · rw [availIdxOf, usedIdxOf, havail, hused, if_pos (show leNat _ = leNat _ from hsame)]

theorem exists_position (rings : Rings vq) (hpos : 0 < vq.size) {n : Nat} (hused : word16 mem (rings.used + 2) = n)
    (hposted : word16 mem (rings.avail + 2) ≠ n) :
    ∃ pos : Position { vq with lastAvailIdx := n } ⟨vq.size, vq.descTable, vq.availRing, vq.usedRing⟩ mem,
      pos.head = word16 mem (rings.availEntry (n % vq.size)) ∧
      ∀ mem' written, pos.pushed mem' written = rings.pushed mem' n pos.head written := by
  have hslot := Nat.mod_lt n hpos
  have hentry : ({ vq with lastAvailIdx := n } : Virtqueue).Mapped (vq.availRing + (4 + n % vq.size * 2)) 2
      (rings.availEntry (n % vq.size)) := by
    rw [Nat.mul_comm]
    exact mapped_part (rings.resume n).availMapped (show 4 + 2 * (n % vq.size) + 2 ≤ 4 + 2 * vq.size by omega)
  have helem : ({ vq with lastAvailIdx := n } : Virtqueue).Mapped (vq.usedRing + (4 + n % vq.size * 8)) 8
      (rings.usedEntry (n % vq.size)) := by
    rw [Nat.mul_comm]
    exact mapped_part (rings.resume n).usedMapped (show 4 + 8 * (n % vq.size) + 8 ≤ 4 + 8 * vq.size by omega)
  refine ⟨⟨rings.avail + 2, rings.availEntry (n % vq.size), rings.used + 2, rings.usedEntry (n % vq.size), rfl, rfl, rfl,
    hpos.ne', hused, rfl, hposted, ?_, hentry, ?_, helem⟩, rfl, fun _ _ => rfl⟩
  · exact mapped_part (rings.resume n).availMapped (show 2 + 2 ≤ 4 + 2 * vq.size by omega)
  · exact mapped_part (rings.resume n).usedMapped (show 2 + 2 ≤ 4 + 8 * vq.size by omega)

theorem processRx_posted (hconf : RxConfigured vq queueConfigs) (hvq : QueueOk vq) (h : RingInv rings start start r)
    (hlt : r.popped.length < r.published.length) (hlinked : LinkedAt vq r.mem r.published[r.popped.length] descs)
    (hplaced : Placed rings descs) :
    (∃ next, rxPopAvail vq.layout queueConfigs r.mem = .ok (some next)) ∧
    ∀ frame fuel, vq.size ≤ fuel → ∃ delivered,
      processRxFromTap vq.layout queueConfigs (some frame) fuel r.mem = some (.ok
        (rings.pushed (put r.mem (pieces vq.layout descs (List.replicate virtioNetHdrSize 0 ++ frame.bytes)))
          (word16 r.mem (rings.used + 2)) r.published[r.popped.length] (rxPacket frame descs).length, delivered)) := by
  obtain ⟨entries, hlinked, hacyclic, rfl⟩ := hlinked
  have hposted : word16 r.mem (rings.avail + 2) ≠ (start + r.popped.length) % 2 ^ 16 := by
    have hbound := h.bound
    have hsize := hvq.lt
    rw [h.availIdx]
    exact (mod_ne_of_lt (by omega) (by omega)).symm
  obtain ⟨pos, hhead, hpushed⟩ := exists_position rings hvq.pos h.usedIdx hposted
  rw [RingInv.slot_eq hvq.dvd, h.entries _ hlt (Nat.le_refl _)] at hhead
  have hpop := pos.rxPopAvail_eq hconf.config hconf.programmed hconf.hole
  refine ⟨⟨_, hpop⟩, fun frame fuel hfuel => ?_⟩
  have htable : ∀ desc ∈ chainDescs r.mem entries, desc.flags &&& vringDescFWrite ≠ 0 → ∀ e ∈ entries,
      BufferApart vq.layout desc e.2 16 := by
    intro desc hdesc hwrite e he
    obtain ⟨hlo, hhi⟩ := linked_in rings hlinked e he
    have happart := hplaced.table desc hdesc hwrite
    unfold BufferApart Apart at happart ⊢
    omega
  have hwalk := hlinked.fill_walk (q := ⟨vq.size, vq.descTable, vq.availRing, vq.usedRing⟩) rfl hconf.hole hplaced.mapped
    htable (fun _ _ _ _ _ => rfl) (.start frame)
  obtain ⟨hmem, hwritten⟩ := fill_foldl vq.layout (chainDescs r.mem entries) r.mem (.start frame)
  generalize (chainDescs r.mem entries).foldl (fun s desc => fill.copy (gpaToPtr vq.layout desc.addr) desc s)
    (r.mem, .start frame) = filled at hwalk hmem hwritten
  have hlength : (rxPacket frame (chainDescs r.mem entries)).length < 2 ^ 32 := by
    have hframe := frame.le
    simp only [rxPacket, virtioNetHdrSize, List.length_take, List.length_append, List.length_replicate]
    omega
  have hcount : filled.2.written.toNat = (rxPacket frame (chainDescs r.mem entries)).length :=
    (congrArg UInt32.toNat (hwritten.trans (UInt32.zero_add _))).trans (UInt32.toNat_ofNat_of_lt' hlength)
  have hle := (hlinked.length_le hacyclic).trans hfuel
  refine ⟨decide (0 < filled.2.written), processRxFromTap_eq_ok.mpr ⟨_, hpop, .inr ?_⟩⟩
  refine ⟨_, _, _, _, filled, _, rfl, rfl, ?_, pos.rawPushUsed_eq hconf.hole filled.1 filled.2.written.toNat, ?_⟩
  · rw [hhead]
    exact walk_steady hwalk hle
  · rw [hpushed, hhead, h.usedIdx, hmem, hcount]
    rfl

theorem processRx_steady {tap : Option Frame} {fuel k : Nat} {out : ByteStore × Bool}
    (h : processRxFromTap vq.layout queueConfigs tap fuel mem = some (.ok out)) (hle : fuel ≤ k) :
    processRxFromTap vq.layout queueConfigs tap k mem = some (.ok out) := by
  obtain ⟨popped, hpop, hout⟩ := processRxFromTap_eq_ok.mp h
  refine processRxFromTap_eq_ok.mpr ⟨popped, hpop, ?_⟩
  rcases hout with hnone | ⟨q, head, usedIdx, frame, t, mem', hpopped, htap, hwalk, hpush⟩
  · exact .inl hnone
  · exact .inr ⟨q, head, usedIdx, frame, t, mem', hpopped, htap, walk_steady hwalk hle, hpush⟩

theorem processRx_idle {tap : Option Frame} {fuel : Nat} {out : ByteStore × Bool}
    (hidle : rxPopAvail vq.layout queueConfigs mem = .ok none ∨ tap = none)
    (h : processRxFromTap vq.layout queueConfigs tap fuel mem = some (.ok out)) : out.1 = mem := by
  obtain ⟨popped, hpop, hout⟩ := processRxFromTap_eq_ok.mp h
  rcases hout with ⟨-, rfl⟩ | ⟨q, head, usedIdx, frame, t, mem', rfl, rfl, -⟩
  · rfl
  · rcases hidle with hnone | hnone
    · rw [hnone] at hpop
      cases hpop
    · cases hnone

end Device

section Session

variable {queueConfigs : List QueueInfo} {start : Nat} {s s' : Client Unit} {q : List (List UInt8)}

theorem holding_deliver (h : Holding rings start start s q) (hvq : QueueOk vq)
    (hlt : s.ring.popped.length < s.ring.published.length) (frame : Frame) :
    Holding rings start start (deliver s frame
      (rings.pushed (put s.ring.mem (pieces vq.layout s.next.2 (List.replicate virtioNetHdrSize 0 ++ frame.bytes)))
        (word16 s.ring.mem (rings.used + 2)) s.ring.published[s.ring.popped.length] (rxPacket frame s.next.2).length))
      (q ++ [rxPacket frame s.next.2]) := by
  apply h.complete hvq hlt
  have hle := frame.le
  simp only [virtioNetHdrSize, List.length_take, List.length_append, List.length_replicate]
  omega

theorem InboundStep.holding (hconf : RxConfigured vq queueConfigs) (hvq : QueueOk vq)
    {a : Option (FifoAction (List UInt8))} (hstep : InboundStep rings queueConfigs start s a s')
    (h : Holding rings start start s q) :
    ∃ q', Steps FifoStep q a.toList q' ∧ Holding rings start start s' q' := by
  cases hstep with
  | prepare hmem => exact ⟨q, .nil q, h.prepare hvq hmem⟩
  | post hpost => exact ⟨q, .nil q, h.post hvq hpost⟩
  | @idle tap fuel mem delivered hidle hrun =>
    obtain rfl : mem = s.ring.mem := processRx_idle hidle hrun
    exact ⟨q, .nil q, h⟩
  | @receive frame popped fuel mem delivered hpop hrun =>
    have hlt : s.ring.popped.length < s.ring.published.length := by
      by_contra hnot
      have hle := h.ring.popped_le
      rw [rxPopAvail_none hconf h.ring (by omega)] at hpop
      cases hpop
    obtain ⟨-, hnext, hhead⟩ := h.next_eq hlt
    have hlinked := h.linked _ hnext
    rw [hhead] at hlinked
    obtain ⟨-, hrx⟩ := processRx_posted hconf hvq h.ring hlt hlinked (h.placed _ hnext)
    obtain ⟨delivered', hout⟩ := hrx frame (max fuel vq.size) (Nat.le_max_right _ _)
    cases (processRx_steady hrun (Nat.le_max_left fuel vq.size)).symm.trans hout
    exact ⟨_, .cons (.put q _) (.nil _), holding_deliver h hvq hlt frame⟩
  | take hfinds =>
    obtain ⟨q', rfl, htaken⟩ := h.take hvq hfinds
    exact ⟨q', .cons (.get _ q') (.nil q'), htaken⟩

theorem holding_receives (hconf : RxConfigured vq queueConfigs) (hvq : QueueOk vq) (h : Holding rings start start s q)
    (hlt : s.ring.popped.length < s.ring.published.length) (frame : Frame) :
    ∃ mem, InboundStep rings queueConfigs start s (some (.put (rxPacket frame s.next.2))) (deliver s frame mem) ∧
      Holding rings start start (deliver s frame mem) (q ++ [rxPacket frame s.next.2]) := by
  obtain ⟨-, hnext, hhead⟩ := h.next_eq hlt
  have hlinked := h.linked _ hnext
  rw [hhead] at hlinked
  obtain ⟨⟨next, hpop⟩, hrx⟩ := processRx_posted hconf hvq h.ring hlt hlinked (h.placed _ hnext)
  obtain ⟨delivered, hout⟩ := hrx frame vq.size (Nat.le_refl _)
  exact ⟨_, .receive hpop hout, holding_deliver h hvq hlt frame⟩

theorem holding_takes (hvq : QueueOk vq) {x : List UInt8} (h : Holding rings start start s (x :: q)) :
    ∃ s', InboundStep rings queueConfigs start s (some (.get x)) s' ∧ Holding rings start start s' q := by
  have hmore := (h.visible hvq).mpr (List.cons_ne_nil x q)
  have hfinds : s.Finds rings start _ _ := ⟨hmore, rfl, rfl⟩
  obtain ⟨q', heq, htaken⟩ := h.take hvq hfinds
  obtain ⟨rfl, rfl⟩ := List.cons.inj heq
  exact ⟨_, .take hfinds, htaken⟩

theorem rx_served (hconf : RxConfigured vq queueConfigs) (hvq : QueueOk vq) (h : Holding rings start start s q)
    (tap : Option Frame) : ∃ out, processRxFromTap vq.layout queueConfigs tap vq.size s.ring.mem = some (.ok out) := by
  by_cases hall : s.ring.published.length = s.ring.popped.length
  · exact ⟨_, processRxFromTap_eq_ok.mpr ⟨_, rxPopAvail_none hconf h.ring hall, .inl ⟨.inl rfl, rfl⟩⟩⟩
  · have hle := h.ring.popped_le
    have hlt : s.ring.popped.length < s.ring.published.length := by omega
    obtain ⟨-, hnext, hhead⟩ := h.next_eq hlt
    have hlinked := h.linked _ hnext
    rw [hhead] at hlinked
    obtain ⟨⟨next, hpop⟩, hrx⟩ := processRx_posted hconf hvq h.ring hlt hlinked (h.placed _ hnext)
    cases tap with
    | none => exact ⟨_, processRxFromTap_eq_ok.mpr ⟨_, hpop, .inl ⟨.inr rfl, rfl⟩⟩⟩
    | some frame =>
      obtain ⟨delivered, hout⟩ := hrx frame vq.size (Nat.le_refl _)
      exact ⟨_, hout⟩

end Session

theorem receive_queue_fifo {queueConfigs : List QueueInfo} (rings : Rings vq) (hconf : RxConfigured vq queueConfigs)
    (hvq : QueueOk vq) {r : RingState Unit} (h₀ : RingStart rings r) (hempty : r.published = [])
    (hsame : word16 r.mem (rings.used + 2) = vq.lastAvailIdx) {s : Client Unit} {run : List (Option (FifoAction (List UInt8)))}
    (hrun : Steps (InboundStep rings queueConfigs vq.lastAvailIdx) ⟨r, [], 0⟩ run s) :
    ∃ q, Steps FifoStep [] run.reduceOption q ∧
      (word16 s.ring.mem (rings.used + 2) ≠ (vq.lastAvailIdx + s.taken) % 2 ^ 16 ↔ q ≠ []) ∧
      ∀ tap, ∃ out, processRxFromTap vq.layout queueConfigs tap vq.size s.ring.mem = some (.ok out) := by
  have hstart := Holding.initial hvq h₀ hempty
  rw [hsame] at hstart
  obtain ⟨q, hfifo, hholding⟩ := Steps.follow (R := Holding rings vq.lastAvailIdx vq.lastAvailIdx)
    (fun _ _ _ _ hstep h => hstep.holding hconf hvq h) hrun hstart
  exact ⟨q, hfifo, hholding.visible hvq, rx_served hconf hvq hholding⟩

section TwoFrames

def bufferMem : ByteStore := fun a =>
  ([(1, 0x40), (8, 100), (12, 2), (17, 0x41), (24, 100), (28, 2), (0x1002, 255), (0x1003, 255), (0x2002, 255),
    (0x2003, 255)].lookup a).getD 0

def buffer (i : Nat) : Descriptor := ⟨0x4000 + 0x100 * i, 100, 2, 0⟩

def bufferRing : RingState Unit := ⟨(), wrapQueue 4, bufferMem, [], []⟩

theorem four_le : 4 ≤ 128 := by decide

def postedOne : Client Unit := Client.publish ⟨bufferRing, [], 0⟩ (wrapRings 4 four_le) 0 [buffer 0]

theorem bufferRing_start : RingStart (wrapRings 4 (by decide)) bufferRing where
  vq_eq := rfl
  popped := rfl
  bound := Nat.zero_le _
  heads_lt := by rintro head ⟨⟩
  availIdx := by
    change leNat [255, 255] = 65535
    decide
  entries := by rintro p ⟨⟩
  valid := by rintro head ⟨⟩

theorem buffer_linked {mem : ByteStore} {i : Nat} (hi : i < 4) (h : descriptorIn mem (0 + i * 16) = buffer i) :
    LinkedAt (wrapQueue 4) mem i [buffer i] := by
  have hlast : (descriptorIn mem (0 + i * 16)).flags &&& vringDescFNext = 0 := by
    rw [h]
    exact (by decide : 2 &&& vringDescFNext = 0)
  refine ⟨[(i, 0 + i * 16)], .last hi (wrapQueue_mapped 4 (0 + i * 16) 16 (by omega)) hlast, by simp, ?_⟩
  rw [chainDescs, List.map_singleton, h]

theorem buffer_ptr (i : Nat) : gpaToPtr (wrapQueue 4).layout (buffer i).addr = (buffer i).addr :=
  if_neg fun h => Nat.lt_irrefl 0 h.1

theorem buffer_apart {i off len : Nat} (h : off + len ≤ 0x4000) : BufferApart (wrapQueue 4).layout (buffer i) off len := by
  rw [BufferApart, buffer_ptr]
  exact .inr (h.trans (Nat.le_add_right _ _))

theorem buffer_placed {i : Nat} (hi : i < 4) : Placed (wrapRings 4 (by decide)) [buffer i] where
  mapped := by
    rw [List.forall_mem_singleton, buffer_ptr]
    intro _ _
    have hend : 0x4000 + 0x100 * i + 100 ≤ 0x8000 := by omega
    exact wrapQueue_mapped 4 _ 100 hend
  table := by
    rw [List.forall_mem_singleton]
    exact fun _ => buffer_apart (by decide)
  avail := by
    rw [List.forall_mem_singleton]
    exact fun _ => buffer_apart (by decide)
  used := by
    rw [List.forall_mem_singleton]
    exact fun _ => buffer_apart (by decide)
  apart := List.pairwise_singleton _ _

theorem postedOne_mayPost : Client.MayPost ⟨bufferRing, [], 0⟩ (wrapRings 4 (by decide)) 0 [buffer 0] where
  fits := by decide
  head_lt := by decide
  new := List.not_mem_nil
  linked := buffer_linked (by decide) rfl
  placed := buffer_placed (by decide)
  apart := List.forall_mem_nil _

theorem postedTwo_mayPost : postedOne.MayPost (wrapRings 4 (by decide)) 1 [buffer 1] where
  fits := by decide
  head_lt := by decide
  new := by decide
  linked := buffer_linked (by decide) rfl
  placed := buffer_placed (by decide)
  apart := by
    rintro c hc desc hdesc - desc' hdesc' -
    obtain rfl : c = (0, [buffer 0]) := List.mem_singleton.mp hc
    rw [List.mem_singleton] at hdesc hdesc'
    subst hdesc hdesc'
    rw [BufferApart, buffer_ptr, buffer_ptr]
    exact .inl (by decide)

def oneByte : Frame where
  bytes := [9]
  pos := Nat.succ_pos 0
  le := Nat.le_of_ble_eq_true rfl

end TwoFrames

theorem receive_queue_fifo_frames : ∃ (s : Client Unit) (q : List (List UInt8)),
    Steps (InboundStep (wrapRings 4 (by decide)) [⟨4, 0, 0x1000, 0x2000⟩] 65535) ⟨bufferRing, [], 0⟩
      [none, none, some (.put (List.replicate 12 0 ++ [1, 2, 3])), some (.put (List.replicate 12 0 ++ [9])),
        some (.get (List.replicate 12 0 ++ [1, 2, 3])), some (.get (List.replicate 12 0 ++ [9]))] s ∧
      Steps FifoStep [] [.put (List.replicate 12 0 ++ [1, 2, 3]), .put (List.replicate 12 0 ++ [9]),
        .get (List.replicate 12 0 ++ [1, 2, 3]), .get (List.replicate 12 0 ++ [9])] q := by
  have hvq : QueueOk (wrapQueue 4) := ⟨⟨rfl, by decide, by decide, by decide⟩, by decide⟩
  have hconf : RxConfigured (wrapQueue 4) [⟨4, 0, 0x1000, 0x2000⟩] := ⟨rfl, by decide, by decide⟩
  have hsame : word16 bufferRing.mem ((wrapRings 4 (by decide)).used + 2) = 65535 := by
    change leNat [255, 255] = 65535
    decide
  have hstart := Holding.initial hvq bufferRing_start rfl
  rw [hsame] at hstart
  have hposted := (hstart.post hvq postedOne_mayPost).post hvq postedTwo_mayPost
  obtain ⟨mem, hfirst, hheld⟩ := holding_receives hconf hvq hposted (show 0 < 2 by decide) threeBytes
  obtain ⟨mem', hsecond, hheld⟩ := holding_receives hconf hvq hheld (show 1 < 2 by decide) oneByte
  obtain ⟨s, htake, hheld⟩ := holding_takes hvq hheld
  obtain ⟨s', htake', hheld⟩ := holding_takes hvq hheld
  have hrun := Steps.cons (.post postedOne_mayPost) (.cons (.post postedTwo_mayPost) (.cons hfirst (.cons hsecond
    (.cons htake (.cons htake' (.nil _))))))
  obtain ⟨q, hfifo, -⟩ := receive_queue_fifo (wrapRings 4 (by decide)) hconf hvq bufferRing_start rfl hsame hrun
  exact ⟨s', q, hrun, hfifo⟩

end CloneVmm.Virtio.Net
