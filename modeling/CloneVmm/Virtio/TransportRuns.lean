import CloneVmm.Lib.Run
import CloneVmm.Virtio.Mmio

namespace CloneVmm.Virtio

open CloneVmm.Lib

variable {δ : Type}

def MmioTransport.fresh (ops : VirtioDevice δ) (device : δ) (irq : Nat) (layout : GuestLayout) :
    MmioTransport δ :=
  (newWithMem ops device irq false 0).setGuestMemoryWithHole layout.hasMem layout.guestMemSize
    layout.holeStart layout.holeEnd

inductive TransportOp (δ : Type)
  | write (fuel : Nat) (mem : ByteStore) (offset : Nat) (data : List UInt8)
  | injectRx (mem : ByteStore) (frame : List UInt8)
  | restore (mem : ByteStore) (device : δ) (irq : Nat) (layout : GuestLayout)

def MmioTransport.perform (t : MmioTransport δ) : TransportOp δ → Option (MmioTransport δ)
  | .write fuel mem offset data => (t.write fuel mem offset data).map Prod.fst
  | .injectRx mem frame => some (t.injectRxFrame mem frame).1
  | .restore mem device irq layout =>
    ((fresh t.ops device irq layout).restoreState mem t.snapshotState).map Prod.fst

variable {t t' : MmioTransport δ}

theorem map_modify_of_eq {α β : Type} (g : α → β) (f : α → α) (hf : ∀ a, g (f a) = g a) (l : List α)
    (i : Nat) : (l.modify i f).map g = l.map g := by
  apply List.ext_getElem?
  intro j
  rw [List.getElem?_map, List.getElem?_modify, List.getElem?_map]
  cases l[j]? with
  | none => rfl
  | some a => by_cases hij : i = j <;> simp [hij, hf]

def queuesAfter (t : MmioTransport δ) (reg : Reg) (val : Nat) : List QueueState :=
  match reg with
  | .queueNum => (t.writeQueueNum val).queues
  | .queueReady => t.queues.modify t.queueSel fun q => { q with ready := val == 1 }
  | .status => if val = 0 then t.resetTransport.queues else t.queues
  | .queueDescLow => (t.modifyQueue fun q => { q with descAddr := MmioTransport.setLow q.descAddr val }).queues
  | .queueDescHigh => (t.modifyQueue fun q => { q with descAddr := MmioTransport.setHigh q.descAddr val }).queues
  | .queueAvailLow => (t.modifyQueue fun q => { q with availAddr := MmioTransport.setLow q.availAddr val }).queues
  | .queueAvailHigh =>
    (t.modifyQueue fun q => { q with availAddr := MmioTransport.setHigh q.availAddr val }).queues
  | .queueUsedLow => (t.modifyQueue fun q => { q with usedAddr := MmioTransport.setLow q.usedAddr val }).queues
  | .queueUsedHigh => (t.modifyQueue fun q => { q with usedAddr := MmioTransport.setHigh q.usedAddr val }).queues
  | _ => t.queues

def Virtqueue.shape (vq : Virtqueue) : Nat × GuestLayout := (vq.size, vq.layout)

/-- `t'` has the device and the virtqueue shapes of `t`, and the queue registers `queues`. -/
structure Writes (t t' : MmioTransport δ) (queues : List QueueState) : Prop where
  ops : t'.ops = t.ops
  shapes : t'.virtqueues.map Virtqueue.shape = t.virtqueues.map Virtqueue.shape
  queues : t'.queues = queues

theorem processLoop_virtqueue (ops : VirtioDevice δ) (queueIdx fuel : Nat) (device device' : δ)
    (vq vq' : Virtqueue) (mem mem' : ByteStore) (raised raised' : Bool)
    (h : MmioTransport.processLoop ops queueIdx fuel device vq mem raised = some (device', vq', mem', raised')) :
    ∃ n, vq' = { vq with lastAvailIdx := n } := by
  induction fuel generalizing device vq mem raised with
  | zero => cases h
  | succ fuel ih =>
    unfold MmioTransport.processLoop at h
    split at h
    · cases h
      exact ⟨_, rfl⟩
    · rename_i chain next hpop
      obtain ⟨-, -, -, -, -, rfl⟩ := Virtqueue.popAvail_cases hpop
      split at h
      obtain ⟨n, hn⟩ := ih _ _ _ _ h
      exact ⟨n, hn⟩

theorem set_eq_modify {α : Type} {l : List α} {i : Nat} {a : α} (h : l[i]? = some a) (f : α → α) :
    l.set i (f a) = l.modify i f := by
  apply List.ext_getElem?
  intro j
  rw [List.getElem?_set, List.getElem?_modify]
  by_cases hij : i = j
  · subst hij
    obtain ⟨hi, rfl⟩ := List.getElem?_eq_some_iff.mp h
    simp [hi]
  · simp [hij]

theorem processQueueDescriptors_cases {fuel queueIdx : Nat} {mem mem' : ByteStore}
    (h : t.processQueueDescriptors fuel mem queueIdx = some (t', mem')) :
    t'.ops = t.ops ∧ t'.queues = t.queues ∧
      ∃ f : Virtqueue → Nat, t'.virtqueues =
        t.virtqueues.modify queueIdx fun vq => { vq with lastAvailIdx := f vq } := by
  have hkeep : t.virtqueues = t.virtqueues.modify queueIdx
      fun vq => { vq with lastAvailIdx := vq.lastAvailIdx } := (List.modify_id ..).symm
  unfold MmioTransport.processQueueDescriptors at h
  split at h
  · cases h
    exact ⟨rfl, rfl, Virtqueue.lastAvailIdx, hkeep⟩
  · rename_i vq hvq
    split at h
    · cases h
      exact ⟨rfl, rfl, Virtqueue.lastAvailIdx, hkeep⟩
    · obtain ⟨⟨device, vq', mem'', raised⟩, hloop, heq⟩ := Option.map_eq_some_iff.mp h
      obtain ⟨n, rfl⟩ := processLoop_virtqueue _ _ _ _ _ _ _ _ _ _ _ hloop
      have hset : t.virtqueues.set queueIdx { vq with lastAvailIdx := n } =
          t.virtqueues.modify queueIdx fun vq => { vq with lastAvailIdx := n } :=
        set_eq_modify hvq fun vq => { vq with lastAvailIdx := n }
      cases raised <;> cases heq <;> exact ⟨rfl, rfl, fun _ => n, hset⟩

theorem injectRxFrame_cases (t : MmioTransport δ) (mem : ByteStore) (frame : List UInt8) :
    (t.injectRxFrame mem frame).1.ops = t.ops ∧ (t.injectRxFrame mem frame).1.queues = t.queues ∧
      ∃ f : Virtqueue → Nat, (t.injectRxFrame mem frame).1.virtqueues =
        t.virtqueues.modify 0 fun vq => { vq with lastAvailIdx := f vq } := by
  have hkeep : t.virtqueues = t.virtqueues.modify 0
      fun vq => { vq with lastAvailIdx := vq.lastAvailIdx } := (List.modify_id ..).symm
  unfold MmioTransport.injectRxFrame
  split
  · exact ⟨rfl, rfl, Virtqueue.lastAvailIdx, hkeep⟩
  · rename_i vq hvq
    split
    · exact ⟨rfl, rfl, Virtqueue.lastAvailIdx, hkeep⟩
    · split
      · exact ⟨rfl, rfl, Virtqueue.lastAvailIdx, hkeep⟩
      · rename_i chain next hpop
        obtain ⟨-, -, -, -, -, rfl⟩ := Virtqueue.popAvail_cases hpop
        have hset := set_eq_modify hvq fun vq =>
          { vq with lastAvailIdx := (vq.lastAvailIdx + 1) % 2 ^ 16 }
        dsimp only
        split <;> exact ⟨rfl, rfl, fun vq => (vq.lastAvailIdx + 1) % 2 ^ 16, hset⟩

theorem injectRxFrame_writes (t : MmioTransport δ) (mem : ByteStore) (frame : List UInt8) :
    Writes t (t.injectRxFrame mem frame).1 t.queues := by
  obtain ⟨hops, hqueues, f, hvqs⟩ := injectRxFrame_cases t mem frame
  refine ⟨hops, ?_, hqueues⟩
  rw [hvqs]
  apply map_modify_of_eq
  intro vq
  rfl

theorem writeRegister_writes {fuel val : Nat} {mem mem' : ByteStore} {reg : Reg}
    (h : t.writeRegister fuel mem reg val = some (t', mem')) : Writes t t' (queuesAfter t reg val) := by
  cases reg with
  | queueNotify =>
    simp only [MmioTransport.writeRegister, MmioTransport.writeQueueNotify] at h
    split at h
    · obtain ⟨hops, hqueues, f, hvqs⟩ := processQueueDescriptors_cases h
      refine ⟨hops, ?_, hqueues⟩
      rw [hvqs]
      apply map_modify_of_eq
      intro vq
      rfl
    · cases h
      exact ⟨rfl, rfl, rfl⟩
  | queueReady =>
    simp only [MmioTransport.writeRegister, MmioTransport.writeQueueReady, MmioTransport.modifyQueue,
      Option.some.injEq, Prod.mk.injEq] at h
    obtain ⟨rfl, -⟩ := h
    split
    · exact ⟨rfl, rfl, rfl⟩
    · refine ⟨rfl, map_modify_of_eq _ _ ?_ _ _, rfl⟩
      intro vq
      split <;> rfl
  | status =>
    simp only [MmioTransport.writeRegister, MmioTransport.handleStatusWrite, Option.some.injEq] at h
    split at h
    · rename_i hzero
      cases h
      refine ⟨rfl, ?_, (if_pos hzero).symm⟩
      simp only [MmioTransport.resetTransport, List.map_map]
      rfl
    · rename_i hnonzero
      have hqueues : queuesAfter t .status val = t.queues := if_neg hnonzero
      rw [hqueues]
      split at h
      · split at h <;> cases h <;> exact ⟨rfl, rfl, rfl⟩
      · cases h
        exact ⟨rfl, rfl, rfl⟩
  | driverFeatures =>
    simp only [MmioTransport.writeRegister, MmioTransport.writeDriverFeatures] at h
    split at h <;> cases h <;> exact ⟨rfl, rfl, rfl⟩
  | _ =>
    cases h
    exact ⟨rfl, rfl, rfl⟩

theorem write_cases {fuel offset : Nat} {data : List UInt8} {mem mem' : ByteStore}
    (h : t.write fuel mem offset data = some (t', mem')) :
    (¬ (offset < configSpace ∧ data.length = 4) ∧ t'.ops = t.ops ∧ t'.queues = t.queues ∧
      t'.virtqueues = t.virtqueues) ∨
    ((offset < configSpace ∧ data.length = 4) ∧
      t.writeRegister fuel mem (.ofOffset offset) (leNat data) = some (t', mem')) := by
  unfold MmioTransport.write at h
  split at h
  · rename_i hconfig
    cases h
    exact .inl ⟨by omega, rfl, rfl, rfl⟩
  · rename_i hconfig
    split at h
    · rename_i hlen
      cases h
      exact .inl ⟨by omega, rfl, rfl, rfl⟩
    · rename_i hlen
      exact .inr ⟨by omega, h⟩

theorem write_writes {fuel offset : Nat} {data : List UInt8} {mem mem' : ByteStore}
    (h : t.write fuel mem offset data = some (t', mem')) :
    Writes t t' (if offset < configSpace ∧ data.length = 4
      then queuesAfter t (.ofOffset offset) (leNat data) else t.queues) := by
  rcases write_cases h with ⟨hnot, hops, hqueues, hvqs⟩ | ⟨hreg, hwrite⟩
  · rw [if_neg hnot]
    exact ⟨hops, by rw [hvqs], hqueues⟩
  · rw [if_pos hreg]
    exact writeRegister_writes hwrite

def GuestLayout.effective (layout : GuestLayout) : GuestLayout :=
  if 0 < layout.holeStart then layout else { layout with holeStart := 0, holeEnd := 0 }

theorem fresh_shapes (ops : VirtioDevice δ) (device : δ) (irq : Nat) (layout : GuestLayout) :
    (MmioTransport.fresh ops device irq layout).virtqueues.map Virtqueue.shape =
      ops.queueMaxSizes.map fun maxSize => (maxSize, layout.effective) := by
  simp only [MmioTransport.fresh, MmioTransport.setGuestMemoryWithHole, MmioTransport.newWithMem,
    List.map_map]
  apply List.map_congr_left
  intro maxSize _
  simp only [Function.comp_apply, GuestLayout.effective]
  split <;> rfl

theorem restoreState_cases {state : MmioTransportState} {mem mem' : ByteStore}
    (h : t.restoreState mem state = some (t', mem')) :
    t'.ops = t.ops ∧ t'.queues = state.queues ∧
      t'.virtqueues = t.virtqueues.mapIdx fun i vq =>
        match state.queues[i]? with
        | some q => MmioTransport.restoreVirtqueue mem q vq
        | none => vq := by
  unfold MmioTransport.restoreState at h
  split at h
  · cases h
  · dsimp only at h
    split at h
    · cases h
      exact ⟨rfl, rfl, rfl⟩
    · cases h
      exact ⟨rfl, rfl, rfl⟩

theorem restoreVirtqueue_shape (mem : ByteStore) (q : QueueState) (vq : Virtqueue) :
    (MmioTransport.restoreVirtqueue mem q vq).shape = vq.shape := by
  unfold MmioTransport.restoreVirtqueue Virtqueue.syncAvailFromGuest
  split
  · split <;> rfl
  · rfl

theorem restoreState_writes {state : MmioTransportState} {mem mem' : ByteStore}
    (h : t.restoreState mem state = some (t', mem')) : Writes t t' state.queues := by
  obtain ⟨hops, hqueues, hvqs⟩ := restoreState_cases h
  refine ⟨hops, ?_, hqueues⟩
  rw [hvqs]
  apply List.ext_getElem?
  intro i
  simp only [List.getElem?_map, List.getElem?_mapIdx, Option.map_map]
  congr 1
  funext vq
  simp only [Function.comp_apply]
  split
  · exact restoreVirtqueue_shape mem _ vq
  · rfl

end CloneVmm.Virtio
