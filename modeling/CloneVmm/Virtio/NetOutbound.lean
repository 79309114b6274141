import CloneVmm.Lib.Fifo
import CloneVmm.Lib.Simulation
import CloneVmm.Virtio.RingDriver

namespace CloneVmm.Virtio.Net

open CloneVmm.Lib RingDriver

variable {vq : Virtqueue} {rings : Rings vq} {mem mem' : ByteStore} {head : Nat} {packet : List UInt8}
  {s s' : RingState VirtioNet} {avail used : Nat} {q : List (List UInt8)}

structure PacketAt (rings : Rings vq) (mem : ByteStore) (head : Nat) (packet : List UInt8) : Prop where
  chain : ∃ descs, vq.walk mem vq.size head = some descs ∧ rings.BuffersApart descs ∧ contents vq mem descs = packet ∧
    ∀ desc ∈ descs, readable desc = true → ∀ off, vq.guestRange desc.addr desc.len = some off →
      ∀ a, off ≤ a → a < off + desc.len → ¬rings.Holds a

inductive OutboundStep (rings : Rings vq) :
    RingState VirtioNet → Option (FifoAction (List UInt8)) → RingState VirtioNet → Prop
  | prepare {s : RingState VirtioNet} {mem : ByteStore} :
      AgreeOn (rings.avail + 2) (2 + 2 * vq.size) s.mem mem → AgreeOn rings.used (4 + 8 * vq.size) s.mem mem →
      (∀ head ∈ s.published.drop s.popped.length, ∀ packet, PacketAt rings s.mem head packet →
        PacketAt rings mem head packet) →
      OutboundStep rings s none { s with mem }
  | queue {s : RingState VirtioNet} {head : Nat} {packet : List UInt8} :
      s.published.length < s.popped.length + vq.size → head < 2 ^ 16 → PacketAt rings s.mem head packet →
      OutboundStep rings s (some (.put packet))
        { s with mem := rings.publish s.mem head, published := s.published ++ [head] }
  | send {s : RingState VirtioNet} {chain : DescriptorChain} {next : Virtqueue} :
      s.vq.popAvail s.mem = some (chain, next) →
      OutboundStep rings s (some (.get (contents next s.mem chain.descriptors))) (s.iterate device txQueue chain next)

def frameOf (packet : List UInt8) : List (List UInt8) :=
  if virtioNetHdrSize < packet.length then [packet.drop virtioNetHdrSize] else []

theorem PacketAt.validChain (h : PacketAt rings mem head packet) : rings.ValidChain mem head := by
  obtain ⟨descs, hwalk, hapart, -⟩ := h.chain
  exact ⟨descs, hwalk, hapart⟩

theorem PacketAt.congr (h : PacketAt rings mem head packet) (hdesc : AgreeOn rings.desc (16 * vq.size) mem mem')
    (hbuffers : ∀ a, ¬rings.Holds a → mem' a = mem a) : PacketAt rings mem' head packet := by
  obtain ⟨descs, hwalk, hapart, hcontents, hreads⟩ := h.chain
  refine ⟨descs, (Virtqueue.walk_congr rings.descMapped hdesc _ _).trans hwalk, hapart, ?_, hreads⟩
  rw [← hcontents]
  apply contents_congr
  intro desc hmem hreadable off hrange a ha ha'
  exact hbuffers a (hreads desc hmem hreadable off hrange a ha ha')

structure Sending (rings : Rings vq) (avail used : Nat) (s : RingState VirtioNet) (q : List (List UInt8)) : Prop where
  ring : RingInv rings avail used s
  packets : List.Forall₂ (PacketAt rings s.mem) (s.published.drop s.popped.length) q

theorem iterate_mem (s : RingState VirtioNet) (chain : DescriptorChain) (next : Virtqueue) :
    (s.iterate device txQueue chain next).mem = (next.pushUsed s.mem chain.index 0).1 := by
  have hnone : (s.device.processTxChain next s.mem chain).1 = 0 := by
    unfold VirtioNet.processTxChain
    split
    · rfl
    · rfl
  have hmem : (s.iterate device txQueue chain next).mem =
      (next.pushUsed s.mem chain.index (s.device.processTxChain next s.mem chain).1).1 := rfl
  rw [hmem, hnone]

namespace Sending

theorem device_keepsRings (rings : Rings vq) : KeepsRings device txQueue rings := fun _ _ _ _ _ _ _ => rfl

theorem queue (h : Sending rings avail used s q) (hvq : QueueOk vq)
    (hroom : s.published.length < s.popped.length + vq.size) (hhead : head < 2 ^ 16)
    (hpacket : PacketAt rings s.mem head packet) :
    Sending rings avail used { s with mem := rings.publish s.mem head, published := s.published ++ [head] }
      (q ++ [packet]) where
  ring := h.ring.publish hvq hroom hhead hpacket.validChain
  packets := by
    have hkept : ∀ {head' packet'}, PacketAt rings s.mem head' packet' →
        PacketAt rings (rings.publish s.mem head) head' packet' := by
      intro head' packet' hpacket'
      apply hpacket'.congr (RingInv.publish_agree rings hvq.pos s.mem head rings.descAvail)
      intro a ha
      have haside : Apart a 1 rings.avail (4 + 2 * vq.size) := by
        unfold Rings.Holds at ha
        unfold Apart
        omega
      exact RingInv.publish_agree rings hvq.pos s.mem head haside a (Nat.le_refl a) (Nat.lt_succ_self a)
    rw [List.drop_append_of_le_length h.ring.popped_le]
    exact List.rel_append (h.packets.imp fun _ _ => hkept) (.cons (hkept hpacket) .nil)

theorem send (h : Sending rings avail used s q) (hvq : QueueOk vq) {chain : DescriptorChain} {next : Virtqueue}
    (hpop : s.vq.popAvail s.mem = some (chain, next)) :
    ∃ q', q = contents next s.mem chain.descriptors :: q' ∧
      Sending rings avail used (s.iterate device txQueue chain next) q' := by
  have hlt : s.popped.length < s.published.length := by
    by_contra hnot
    have hle := h.ring.popped_le
    rw [h.ring.pop_none (by omega)] at hpop
    cases hpop
  obtain ⟨descs, hapart, hpop'⟩ := h.ring.pop_some hvq hlt
  cases hpop'.symm.trans hpop
  have hring := h.ring.iterate hvq (device_keepsRings rings) hlt hapart
  have hpackets := h.packets
  rw [List.drop_eq_getElem_cons hlt] at hpackets
  obtain ⟨packet, q', hpacket, hrest, rfl⟩ := List.forall₂_cons_left_iff.mp hpackets
  refine ⟨q', ?_, hring, ?_⟩
  · obtain ⟨descs', hwalk, -, hcontents, -⟩ := hpacket.chain
    obtain ⟨-, -, -, -, hwalk', -⟩ := Virtqueue.popAvail_cases hpop
    rw [h.ring.vq_eq, Virtqueue.walk_lastAvailIdx] at hwalk'
    cases hwalk.symm.trans hwalk'
    exact congrArg (· :: q') hcontents.symm
  · have hpush := @Rings.pushUsed_eq _ (rings.resume ((avail + (s.popped.length + 1)) % 2 ^ 16)) s.mem hvq.ready
      hvq.pos s.published[s.popped.length] 0
    rw [iterate_mem, hpush]
    have hpopped : (s.iterate device txQueue ⟨s.published[s.popped.length], descs⟩
        { vq with lastAvailIdx := (avail + (s.popped.length + 1)) % 2 ^ 16 }).popped.length = s.popped.length + 1 :=
      List.length_append
    rw [hpopped]
    apply List.Forall₂.imp _ hrest
    intro head' packet' hpacket'
    apply hpacket'.congr (rings.pushed_agree hvq.pos rings.descUsed _ _)
    intro a ha
    have haside : Apart a 1 rings.used (4 + 8 * vq.size) := by
      unfold Rings.Holds at ha
      unfold Apart
      omega
    exact rings.pushed_agree hvq.pos haside _ _ a (Nat.le_refl a) (Nat.lt_succ_self a)

theorem step (h : Sending rings avail used s q) (hvq : QueueOk vq) {a : Option (FifoAction (List UInt8))}
    (hstep : OutboundStep rings s a s') : ∃ q', Steps FifoStep q a.toList q' ∧ Sending rings avail used s' q' := by
  cases hstep with
  | @prepare mem havail hused hkept =>
    have hpackets : List.Forall₂ (PacketAt rings mem) (s.published.drop s.popped.length) q := by
      apply ((List.forall₂_and_left _ _).mpr ⟨hkept, h.packets⟩).imp
      rintro head packet ⟨hstays, hpacket⟩
      exact hstays packet hpacket
    refine ⟨q, .nil q, h.ring.frame hvq.pos havail hused fun head hmem => ?_, hpackets⟩
    obtain ⟨packet, hpacket⟩ := exists_of_mem_left hpackets hmem
    exact hpacket.validChain
  | @queue head packet hroom hhead hpacket =>
    exact ⟨_, .cons (.put q packet) (.nil _), h.queue hvq hroom hhead hpacket⟩
  | @send chain next hpop =>
    obtain ⟨q', rfl, hsending⟩ := h.send hvq hpop
    exact ⟨q', .cons (.get _ q') (.nil q'), hsending⟩

end Sending

theorem iterate_frames (s : RingState VirtioNet) (chain : DescriptorChain) (next : Virtqueue) :
    (s.iterate device txQueue chain next).device.frames =
      s.device.frames ++ frameOf (contents next s.mem chain.descriptors) :=
  processTxChain_frames s.device next s.mem chain

theorem OutboundStep.frames {a : Option (FifoAction (List UInt8))} (h : OutboundStep rings s a s') :
    s'.device.frames = s.device.frames ++ (FifoAction.gets a.toList).flatMap frameOf := by
  cases h with
  | prepare => exact (List.append_nil _).symm
  | queue => exact (List.append_nil _).symm
  | send hpop =>
    rw [iterate_frames]
    exact congrArg (s.device.frames ++ ·) (List.append_nil _).symm

theorem outbound_frames {run : List (Option (FifoAction (List UInt8)))} (h : Steps (OutboundStep rings) s run s') :
    s'.device.frames = s.device.frames ++ (FifoAction.gets run.reduceOption).flatMap frameOf := by
  induction h with
  | nil s => exact (List.append_nil _).symm
  | @cons s t u a as hstep _ ih =>
    have hactions : (a :: as).reduceOption = a.toList ++ as.reduceOption := by
      cases a with
      | none => rfl
      | some a => rfl
    rw [ih, hstep.frames, hactions, FifoAction.gets_append, List.flatMap_append, List.append_assoc]

theorem Sending.iterates (h : Sending rings avail used s q) (hvq : QueueOk vq) {n : Nat}
    (hrun : Steps (RingStep device txQueue rings) s (List.replicate n .iterate) s') :
    ∃ sent q', q = sent ++ q' ∧ Sending rings avail used s' q' ∧ s'.published = s.published ∧
      s'.device.frames = s.device.frames ++ sent.flatMap frameOf := by
  induction n generalizing s q with
  | zero =>
    cases hrun
    exact ⟨[], q, rfl, h, rfl, (List.append_nil _).symm⟩
  | succ n ih =>
    rw [List.replicate_succ] at hrun
    cases hrun with
    | cons hstep hrest =>
      cases hstep with
      | @iterate chain next hpop =>
        obtain ⟨q₁, rfl, hsending⟩ := h.send hvq hpop
        obtain ⟨sent, q', rfl, hsending', hpublished, hframes⟩ := ih hsending hrest
        refine ⟨_ :: sent, q', rfl, hsending', hpublished, ?_⟩
        rw [hframes, iterate_frames, List.append_assoc, List.flatMap_cons]

theorem Sending.loop (h : Sending rings avail used s q) (hvq : QueueOk vq) (raised : Bool) {fuel : Nat}
    (hfuel : s.published.length < s.popped.length + fuel) :
    ∃ s' raised', MmioTransport.processLoop device txQueue fuel s.device s.vq s.mem raised =
        some (s'.device, s'.vq, s'.mem, raised') ∧ Sending rings avail used s' [] ∧
      s'.device.frames = s.device.frames ++ q.flatMap frameOf := by
  obtain ⟨s', raised', hloop, hsteps, hheads⟩ := h.ring.processLoop_eq hvq (device_keepsRings rings) fuel raised hfuel
  obtain ⟨sent, q', rfl, hsending, hpublished, hframes⟩ := h.iterates hvq hsteps
  have hnone : s'.published.drop s'.popped.length = [] := by
    have hlength := congrArg List.length hheads
    rw [List.length_map] at hlength
    rw [hpublished, hlength, List.drop_length]
  have hpackets := hsending.packets
  rw [hnone] at hpackets
  cases hpackets
  refine ⟨s', raised', hloop, hsending, ?_⟩
  rw [hframes, List.append_nil]

theorem transmit_queue_fifo (rings : Rings vq) (hvq : QueueOk vq) {s₀ s : RingState VirtioNet}
    {run : List (Option (FifoAction (List UInt8)))} (h₀ : RingStart rings s₀) (hempty : s₀.published = [])
    (hrun : Steps (OutboundStep rings) s₀ run s) :
    ∃ q, Steps FifoStep [] run.reduceOption q ∧
      s.device.frames = s₀.device.frames ++ (FifoAction.gets run.reduceOption).flatMap frameOf ∧
      ∀ fuel raised, s.published.length < s.popped.length + fuel → ∃ (s' : RingState VirtioNet) (raised' : Bool),
        MmioTransport.processLoop device txQueue fuel s.device s.vq s.mem raised =
          some (s'.device, s'.vq, s'.mem, raised') ∧
        s'.device.frames = s₀.device.frames ++ (FifoAction.puts run.reduceOption).flatMap frameOf := by
  have hstart : Sending rings vq.lastAvailIdx (word16 s₀.mem (rings.used + 2)) s₀ [] := by
    refine ⟨.of_start h₀ hvq, ?_⟩
    rw [hempty, List.drop_nil]
    exact .nil
  obtain ⟨q, hfifo, hsending⟩ := Steps.follow (R := Sending rings vq.lastAvailIdx (word16 s₀.mem (rings.used + 2)))
    (fun _ _ _ _ hstep h => h.step hvq hstep) hrun hstart
  have hframes := outbound_frames hrun
  refine ⟨q, hfifo, hframes, fun fuel raised hfuel => ?_⟩
  obtain ⟨s', raised', hloop, -, hsent⟩ := hsending.loop hvq raised hfuel
  refine ⟨s', raised', hloop, ?_⟩
  have hbalance := FifoAction.balance hfifo
  rw [List.nil_append] at hbalance
  rw [hsent, hframes, hbalance, List.flatMap_append, List.append_assoc]

section TwoPackets

def packetMem : ByteStore := fun a =>
  ([(1, 0x40), (8, 14), (16, 0x20), (17, 0x40), (24, 13), (0x1002, 255), (0x1003, 255), (0x2002, 255), (0x2003, 255),
    (0x400C, 7), (0x400D, 9), (0x402C, 3)].lookup a).getD 0

def packetStart : RingState VirtioNet := ⟨⟨[]⟩, wrapQueue 4, packetMem, [], []⟩

def packetBytes (bytes : List UInt8) : List UInt8 := List.replicate 12 0 ++ bytes

theorem packetStart_start : RingStart (wrapRings 4 (by decide)) packetStart where
  vq_eq := rfl
  popped := rfl
  bound := Nat.zero_le _
  heads_lt := by rintro head ⟨⟩
  availIdx := by
    change leNat [255, 255] = 65535
    decide
  entries := by rintro p ⟨⟩
  valid := by rintro head ⟨⟩

theorem packetAt_single {mem : ByteStore} {head : Nat} (addr len : Nat)
    (hwalk : (wrapQueue 4).walk mem 4 head = some [⟨addr, len, 0, 0⟩]) (haddr : 0x4000 ≤ addr) :
    PacketAt (wrapRings 4 (by decide)) mem head (contents (wrapQueue 4) mem [⟨addr, len, 0, 0⟩]) := by
  refine ⟨_, hwalk, ?_, rfl, ?_⟩
  · rw [Rings.BuffersApart, List.forall_mem_singleton]
    exact fun hwrite => (hwrite (Nat.zero_and _)).elim
  · rw [List.forall_mem_singleton]
    intro _ off hoff a ha _ hholds
    have hle : addr ≤ off := by
      simp only [Virtqueue.guestRange, Virtqueue.gpaToOffset, wrapQueue, if_true] at hoff
      grind
    rcases hholds with h | h | h
    · have hlt : a < 0 + 16 * 4 := h.2
      omega
    · have hlt : a < 0x1000 + (4 + 2 * 4) := h.2
      omega
    · have hlt : a < 0x2000 + (4 + 8 * 4) := h.2
      omega

end TwoPackets

theorem transmit_queue_fifo_packets : ∃ s q,
    Steps (OutboundStep (wrapRings 4 (by decide))) packetStart
      [some (.put (packetBytes [7, 9])), some (.put (packetBytes [3])), some (.get (packetBytes [7, 9])),
        some (.get (packetBytes [3]))] s ∧
      Steps FifoStep [] [.put (packetBytes [7, 9]), .put (packetBytes [3]), .get (packetBytes [7, 9]),
        .get (packetBytes [3])] q ∧ s.device.frames = [[7, 9], [3]] := by
  have hfirst : PacketAt (wrapRings 4 (by decide)) packetMem 0 (packetBytes [7, 9]) :=
    packetAt_single 0x4000 14 rfl (by decide)
  have hsecond : PacketAt (wrapRings 4 (by decide)) ((wrapRings 4 (by decide)).publish packetMem 0) 1
      (packetBytes [3]) := packetAt_single 0x4020 13 rfl (by decide)
  have hrun : Steps (OutboundStep (wrapRings 4 (by decide))) packetStart
      [some (.put (packetBytes [7, 9])), some (.put (packetBytes [3])), some (.get (packetBytes [7, 9])),
        some (.get (packetBytes [3]))] _ :=
    .cons (.queue (by decide) (by decide) hfirst) (.cons (.queue (by decide) (by decide) hsecond)
      (.cons (.send (show _ = some (⟨0, [⟨0x4000, 14, 0, 0⟩]⟩, { wrapQueue 4 with lastAvailIdx := 0 }) from rfl))
        (.cons (.send (show _ = some (⟨1, [⟨0x4020, 13, 0, 0⟩]⟩, { wrapQueue 4 with lastAvailIdx := 1 }) from rfl))
          (.nil _))))
  have hvq : QueueOk (wrapQueue 4) := ⟨⟨rfl, by decide, by decide, by decide⟩, by decide⟩
  obtain ⟨q, hfifo, hframes, -⟩ := transmit_queue_fifo (wrapRings 4 (by decide)) hvq packetStart_start rfl hrun
  exact ⟨_, q, hrun, hfifo, hframes⟩

end CloneVmm.Virtio.Net
