import CloneVmm.Virtio.QueueSize

namespace CloneVmm.Virtio

open CloneVmm.Lib

variable {δ : Type} {t t' : MmioTransport δ}

namespace Virtqueue

def popAll (mem : ByteStore) : Nat → Virtqueue → List DescriptorChain
  | 0, _ => []
  | fuel + 1, vq =>
    match vq.popAvail mem with
    | none => []
    | some (chain, vq) => chain :: popAll mem fuel vq

/-- The chains popped one after another. The available index has 16 bits, so there are fewer than
`2 ^ 16` of them. -/
def remaining (vq : Virtqueue) (mem : ByteStore) : List DescriptorChain := popAll mem (2 ^ 16) vq

theorem remaining_eq_nil_iff (vq : Virtqueue) (mem : ByteStore) :
    vq.remaining mem = [] ↔ vq.popAvail mem = none := by
  have hunfold : vq.remaining mem = match vq.popAvail mem with
      | none => []
      | some (chain, vq) => chain :: popAll mem 65535 vq := rfl
  rw [hunfold]
  cases vq.popAvail mem with
  | none => simp
  | some popped => simp

theorem popAvail_not_ready {vq : Virtqueue} (h : vq.ready = false) (mem : ByteStore) :
    vq.popAvail mem = none := by
  simp [popAvail, h]

theorem readU16_eq {vq : Virtqueue} {mem : ByteStore} {gpa v : Nat} (h : vq.readU16 mem gpa = some v) :
    ∃ offset, vq.gpaToOffset (gpa % 2 ^ 64) = some offset ∧ v = leNat (readBytes mem offset 2) := by
  unfold readU16 guestRead guestRange at h
  split at h
  · cases h
  · rename_i offset hoffset
    split at h
    · cases h
    · cases h
      exact ⟨offset, hoffset, rfl⟩

theorem popAvail_synced (vq : Virtqueue) (mem : ByteStore) (h : vq.availRing ≠ 0) :
    (vq.syncAvailFromGuest mem).popAvail mem = none := by
  by_cases hmem : vq.hasMem
  · have hsync : vq.syncAvailFromGuest mem = { vq with lastAvailIdx := vq.readAvailIdx mem } := by
      simp [syncAvailFromGuest, hmem, h]
    by_contra hsome
    obtain ⟨⟨chain, vq'⟩, hpop⟩ := Option.ne_none_iff_exists'.mp hsome
    rw [hsync] at hpop
    obtain ⟨-, -, ⟨availIdx, havail, hne⟩, -⟩ := popAvail_cases hpop
    obtain ⟨offset, hoffset, rfl⟩ := readU16_eq havail
    apply hne
    simp only [readAvailIdx]
    rw [show vq.gpaToOffset ((vq.availRing + 2) % 2 ^ 64) = some offset from hoffset]
  · simp [syncAvailFromGuest, popAvail, hmem]

end Virtqueue

def MmioTransport.remaining (t : MmioTransport δ) (mem : ByteStore) (i : Nat) : List DescriptorChain :=
  match t.virtqueues[i]? with
  | some vq => vq.remaining mem
  | none => []

def MmioTransport.MappedBy (t : MmioTransport δ) (layout : GuestLayout) : Prop :=
  ∀ vq ∈ t.virtqueues, vq.layout = layout.effective

def Virtqueue.restarted (vq : Virtqueue) (q : QueueState) : Virtqueue :=
  (vq.reset.configure q.descAddr q.availAddr q.usedAddr).setReady true

structure Synced (t : MmioTransport δ) : Prop extends Shaped t where
  ready : t.virtqueues.map Virtqueue.ready = t.queues.map QueueState.ready

theorem Synced.ready_eq (h : Synced t) {i : Nat} {q : QueueState} {vq : Virtqueue}
    (hq : t.queues[i]? = some q) (hvq : t.virtqueues[i]? = some vq) : vq.ready = q.ready := by
  have hi := congrArg (fun l : List Bool => l[i]?) h.ready
  simpa [hq, hvq] using hi

theorem map_modify_comm {α β : Type} (g : α → β) (f : α → α) (k : β → β) (hf : ∀ a, g (f a) = k (g a))
    (l : List α) (i : Nat) : (l.modify i f).map g = (l.map g).modify i k := by
  apply List.ext_getElem?
  intro j
  rw [List.getElem?_map, List.getElem?_modify, List.getElem?_modify, List.getElem?_map]
  cases l[j]? with
  | none => rfl
  | some a => by_cases hij : i = j <;> simp [hij, hf]

theorem map_const_of_eq {α β : Type} (g : α → β) (l : List α) (b : β) (hg : ∀ a, g a = b) :
    l.map g = List.replicate l.length b := by
  simp [List.eq_replicate_iff, hg]

theorem writeQueueReady_ready (h : t.virtqueues.map Virtqueue.ready = t.queues.map QueueState.ready)
    (val : Nat) : (t.writeQueueReady val).virtqueues.map Virtqueue.ready =
      (t.writeQueueReady val).queues.map QueueState.ready := by
  have hqueues : (t.modifyQueue fun q => { q with ready := val == 1 }).queues.map QueueState.ready =
      (t.queues.map QueueState.ready).modify t.queueSel fun _ => val == 1 := by
    apply map_modify_comm
    intro q
    rfl
  unfold MmioTransport.writeQueueReady
  dsimp only
  split
  · rename_i hnone
    have hlen : (t.queues.map QueueState.ready).length ≤ t.queueSel := by
      simpa [MmioTransport.modifyQueue] using hnone
    rw [hqueues, List.modify_eq_self hlen]
    exact h
  · refine Eq.trans ?_ hqueues.symm
    rw [← h]
    apply map_modify_comm
    intro vq
    by_cases hval : val = 1
    · simp [hval, Virtqueue.setReady]
    · simp [hval, Virtqueue.setReady]

theorem writeRegister_ready {fuel val : Nat} {mem mem' : ByteStore} {reg : Reg}
    (hready : t.virtqueues.map Virtqueue.ready = t.queues.map QueueState.ready)
    (h : t.writeRegister fuel mem reg val = some (t', mem')) :
    t'.virtqueues.map Virtqueue.ready = t'.queues.map QueueState.ready := by
  have hkeep (f : QueueState → QueueState) (hf : ∀ q, (f q).ready = q.ready) :
      t.virtqueues.map Virtqueue.ready = (t.modifyQueue f).queues.map QueueState.ready := by
    rw [hready]
    exact (map_modify_of_eq _ f hf _ _).symm
  cases reg with
  | queueNotify =>
    simp only [MmioTransport.writeRegister, MmioTransport.writeQueueNotify] at h
    split at h
    · obtain ⟨-, hqueues, f, hvqs⟩ := processQueueDescriptors_cases h
      rw [hvqs, hqueues, map_modify_of_eq]
      · exact hready
      · intro vq
        rfl
    · cases h
      exact hready
  | queueReady =>
    cases h
    exact writeQueueReady_ready hready val
  | status =>
    simp only [MmioTransport.writeRegister, MmioTransport.handleStatusWrite, Option.some.injEq] at h
    split at h
    · cases h
      have hlen : t.virtqueues.length = t.queues.length := by
        simpa using congrArg List.length hready
      simp only [MmioTransport.resetTransport, List.map_map]
      exact (map_const_of_eq _ _ false fun _ => rfl).trans
        ((congrArg (List.replicate · false) hlen).trans (map_const_of_eq _ _ false fun _ => rfl).symm)
    · split at h
      · split at h <;> cases h <;> exact hready
      · cases h
        exact hready
  | driverFeatures =>
    simp only [MmioTransport.writeRegister, MmioTransport.writeDriverFeatures] at h
    split at h <;> cases h <;> exact hready
  | queueNum =>
    cases h
    apply hkeep
    intro q
    split <;> rfl
  | queueDescLow => cases h; exact hkeep _ fun _ => rfl
  | queueDescHigh => cases h; exact hkeep _ fun _ => rfl
  | queueAvailLow => cases h; exact hkeep _ fun _ => rfl
  | queueAvailHigh => cases h; exact hkeep _ fun _ => rfl
  | queueUsedLow => cases h; exact hkeep _ fun _ => rfl
  | queueUsedHigh => cases h; exact hkeep _ fun _ => rfl
  | _ =>
    cases h
    exact hready

theorem fresh_reset (ops : VirtioDevice δ) (device : δ) (irq : Nat) (layout : GuestLayout) :
    ∀ vq ∈ (MmioTransport.fresh ops device irq layout).virtqueues, vq.reset = vq := by
  intro vq hvq
  obtain ⟨maxSize, -, rfl⟩ := List.mem_map.mp hvq
  dsimp only
  split <;> rfl

theorem Synced.fresh (ops : VirtioDevice δ) (device : δ) (irq : Nat) (layout : GuestLayout) :
    Synced (MmioTransport.fresh ops device irq layout) where
  toShaped := Shaped.fresh ops device irq layout
  ready := by
    simp only [MmioTransport.fresh, MmioTransport.setGuestMemoryWithHole, MmioTransport.newWithMem,
      List.map_map]
    apply List.map_congr_left
    intro maxSize _
    simp only [Function.comp_apply]
    split <;> rfl

theorem restoreVirtqueue_ready (mem : ByteStore) (q : QueueState) {vq : Virtqueue} (h : vq.ready = false) :
    (MmioTransport.restoreVirtqueue mem q vq).ready = q.ready := by
  unfold MmioTransport.restoreVirtqueue Virtqueue.syncAvailFromGuest
  split
  · rename_i hready
    split <;> exact hready.symm
  · rename_i hready
    rw [h, Bool.eq_false_iff.mpr hready]

theorem restoreState_virtqueue {ops : VirtioDevice δ} {device : δ} {irq : Nat} {layout : GuestLayout}
    {state : MmioTransportState} {mem mem' : ByteStore}
    (h : (MmioTransport.fresh ops device irq layout).restoreState mem state = some (t', mem'))
    {i : Nat} {q : QueueState} {vq : Virtqueue} (hq : state.queues[i]? = some q)
    (hvq : t'.virtqueues[i]? = some vq) :
    ∃ vq₀, (MmioTransport.fresh ops device irq layout).virtqueues[i]? = some vq₀ ∧
      vq = MmioTransport.restoreVirtqueue mem q vq₀ := by
  obtain ⟨-, -, hvqs⟩ := restoreState_cases h
  rw [hvqs, List.getElem?_mapIdx] at hvq
  obtain ⟨vq₀, hvq₀, hrestored⟩ := Option.map_eq_some_iff.mp hvq
  simp only [hq] at hrestored
  exact ⟨vq₀, hvq₀, hrestored.symm⟩

theorem Synced.perform (h : Synced t) {op : TransportOp δ} (hop : t.perform op = some t') :
    Synced t' := by
  refine ⟨h.toShaped.perform hop, ?_⟩
  cases op with
  | write fuel mem offset data =>
    obtain ⟨⟨t', mem'⟩, hwrite, rfl⟩ := Option.map_eq_some_iff.mp hop
    rcases write_cases hwrite with ⟨-, -, hqueues, hvqs⟩ | ⟨-, hreg⟩
    · rw [hqueues, hvqs]
      exact h.ready
    · exact writeRegister_ready h.ready hreg
  | injectRx mem frame =>
    cases hop
    obtain ⟨-, hqueues, f, hvqs⟩ := injectRxFrame_cases t mem frame
    rw [hvqs, hqueues, map_modify_of_eq]
    · exact h.ready
    · intro vq
      rfl
  | restore mem device irq layout =>
    have hlen := (h.toShaped.perform hop).length_eq
    obtain ⟨⟨t', mem'⟩, hrestore, rfl⟩ := Option.map_eq_some_iff.mp hop
    obtain ⟨-, hqueues, -⟩ := restoreState_cases hrestore
    apply List.ext_getElem
    · rw [List.length_map, List.length_map, hlen]
    · intro i hvq hq
      rw [List.length_map] at hvq hq
      rw [List.getElem_map, List.getElem_map]
      have hqi : t.snapshotState.queues[i]? = some t'.queues[i] := by
        rw [← hqueues]
        exact List.getElem?_eq_getElem hq
      obtain ⟨vq₀, hvq₀, heq⟩ := restoreState_virtqueue hrestore hqi (List.getElem?_eq_getElem hvq)
      rw [heq]
      apply restoreVirtqueue_ready
      rw [← fresh_reset _ _ _ _ vq₀ (List.mem_of_getElem? hvq₀)]
      rfl

theorem Synced.of_run {ops : VirtioDevice δ} {device : δ} {irq : Nat} {layout : GuestLayout}
    {run : List (TransportOp δ)}
    (h : Steps (fun t op t' => t.perform op = some t') (.fresh ops device irq layout) run t) : Synced t := by
  apply Steps.invariant (P := Synced) _ h (Synced.fresh ops device irq layout)
  intro t op t' hop hsynced
  exact hsynced.perform hop

theorem reset_eq_of_shape {vq vq' : Virtqueue} (h : vq.shape = vq'.shape) : vq.reset = vq'.reset := by
  simp only [Virtqueue.shape, Virtqueue.layout, Prod.mk.injEq, GuestLayout.mk.injEq] at h
  obtain ⟨hsize, hhas, hmem, hstart, hend⟩ := h
  simp [Virtqueue.reset, hsize, hhas, hmem, hstart, hend]

section Restored

variable {layout : GuestLayout} {device : δ} {irq : Nat} {mem mem' : ByteStore}

theorem Synced.restored (h : Synced t) (hmap : t.MappedBy layout)
    (hrestore : (MmioTransport.fresh t.ops device irq layout).restoreState mem t.snapshotState = some (t', mem'))
    {i : Nat} {q : QueueState} {vq vq' : Virtqueue} (hq : t.queues[i]? = some q)
    (hvq : t.virtqueues[i]? = some vq) (hvq' : t'.virtqueues[i]? = some vq') :
    vq' = MmioTransport.restoreVirtqueue mem q vq.reset := by
  obtain ⟨vq₀, hvq₀, heq⟩ := restoreState_virtqueue hrestore hq hvq'
  have hsize : vq.size = vq₀.size := by
    have hi := congrArg (fun l : List Nat => l[i]?) (h.virtqueues.trans (fresh_sizes t.ops device irq layout).symm)
    simpa [hvq, hvq₀] using hi
  have hlayout : vq₀.layout = layout.effective := by
    have hi := congrArg (fun l => (l[i]?).map Prod.snd) (fresh_shapes t.ops device irq layout)
    simp only [List.getElem?_map, hvq₀, Option.map_some, Option.map_map] at hi
    obtain ⟨maxSize, -, hsnd⟩ := Option.map_eq_some_iff.mp hi.symm
    exact hsnd.symm
  have hshape : vq.shape = vq₀.shape := by
    rw [Virtqueue.shape, Virtqueue.shape, hsize, hmap vq (List.mem_of_getElem? hvq), hlayout]
  rw [heq, reset_eq_of_shape hshape, fresh_reset _ _ _ _ vq₀ (List.mem_of_getElem? hvq₀)]

def MmioTransport.NothingPending (t : MmioTransport δ) (mem : ByteStore) : Prop :=
  ∀ (i : Nat) (q : QueueState) (vq : Virtqueue),
    t.queues[i]? = some q → t.virtqueues[i]? = some vq → q.ready →
      if q.availAddr = 0 then (vq.restarted q).remaining mem = vq.remaining mem
      else vq.popAvail mem = none

theorem restoreVirtqueue_remaining {q : QueueState} {vq : Virtqueue} (hsync : vq.ready = q.ready) :
    (MmioTransport.restoreVirtqueue mem q vq.reset).remaining mem = vq.remaining mem ↔
      (q.ready → if q.availAddr = 0 then (vq.restarted q).remaining mem = vq.remaining mem
        else vq.popAvail mem = none) := by
  unfold MmioTransport.restoreVirtqueue
  by_cases hready : q.ready = true
  · rw [if_pos hready]
    simp only [hready, true_imp_iff]
    split
    · rename_i havail
      have hstart : ((vq.reset.configure q.descAddr q.availAddr q.usedAddr).setReady true).syncAvailFromGuest mem =
          vq.restarted q := by
        simp [Virtqueue.syncAvailFromGuest, Virtqueue.configure, Virtqueue.setReady,
          Virtqueue.restarted, havail]
      rw [hstart]
    · rename_i havail
      have hnil := (Virtqueue.remaining_eq_nil_iff _ _).mpr (Virtqueue.popAvail_synced
        ((vq.reset.configure q.descAddr q.availAddr q.usedAddr).setReady true) mem havail)
      rw [hnil, eq_comm, Virtqueue.remaining_eq_nil_iff]
  · have hvq : vq.ready = false := by rw [hsync, Bool.eq_false_iff]; exact hready
    rw [if_neg hready, (Virtqueue.remaining_eq_nil_iff vq mem).mpr (Virtqueue.popAvail_not_ready hvq mem),
      (Virtqueue.remaining_eq_nil_iff _ mem).mpr (Virtqueue.popAvail_not_ready rfl mem)]
    simp [hready]

theorem Synced.restored_remaining_iff (h : Synced t) (hmap : t.MappedBy layout)
    (hrestore : (MmioTransport.fresh t.ops device irq layout).restoreState mem t.snapshotState = some (t', mem')) :
    (∀ i, t'.remaining mem i = t.remaining mem i) ↔ t.NothingPending mem := by
  have hlen : t'.virtqueues.length = t.virtqueues.length := by
    have hsizes := (restoreState_writes hrestore).sizes.trans (fresh_sizes _ _ _ _)
    simpa using congrArg List.length (hsizes.trans h.virtqueues.symm)
  have hqlen := h.length_eq
  have hrestored (i : Nat) (hi : i < t.virtqueues.length) :
      t'.remaining mem i = t.remaining mem i ↔ (t.queues[i].ready →
        if t.queues[i].availAddr = 0 then
          (t.virtqueues[i].restarted t.queues[i]).remaining mem = t.virtqueues[i].remaining mem
        else t.virtqueues[i].popAvail mem = none) := by
    have hvq := List.getElem?_eq_getElem hi
    have hq : t.queues[i]? = some t.queues[i] := List.getElem?_eq_getElem (by omega)
    have hvq' : t'.virtqueues[i]? = some t'.virtqueues[i] := List.getElem?_eq_getElem (by omega)
    rw [← restoreVirtqueue_remaining (h.ready_eq hq hvq), ← h.restored hmap hrestore hq hvq hvq']
    simp only [MmioTransport.remaining, hvq, hvq']
  constructor
  · intro hall i q vq hq hvq
    obtain ⟨hi, rfl⟩ := List.getElem?_eq_some_iff.mp hvq
    obtain ⟨-, rfl⟩ := List.getElem?_eq_some_iff.mp hq
    exact (hrestored i hi).mp (hall i)
  · intro hnothing i
    by_cases hi : i < t.virtqueues.length
    · apply (hrestored i hi).mpr
      exact hnothing i _ _ (List.getElem?_eq_getElem (by omega)) (List.getElem?_eq_getElem hi)
    · simp only [MmioTransport.remaining]
      rw [List.getElem?_eq_none (by omega), List.getElem?_eq_none (by omega)]

end Restored

/-- Over the same guest memory, a snapshot restored into a fresh transport leaves the same chains
to pop exactly when no chain was pending. -/
theorem restoreState_remaining_iff {ops : VirtioDevice δ} {device device' : δ} {irq irq' : Nat}
    {layout layout' : GuestLayout} {run : List (TransportOp δ)} {mem mem' : ByteStore}
    (hrun : Steps (fun t op t' => t.perform op = some t') (.fresh ops device irq layout) run t)
    (hmap : t.MappedBy layout')
    (hrestore : (MmioTransport.fresh t.ops device' irq' layout').restoreState mem t.snapshotState =
      some (t', mem')) :
    (∀ i, t'.remaining mem i = t.remaining mem i) ↔ t.NothingPending mem :=
  (Synced.of_run hrun).restored_remaining_iff hmap hrestore

def ringMemory (pending : UInt8) : ByteStore := fun a => if a = 0x1002 then pending else 0

def readyRun (mem : ByteStore) : List (TransportOp Unit) :=
  [.write 1 mem 0x090 [0, 0x10, 0, 0], .write 1 mem 0x0a0 [0, 0x20, 0, 0], .write 1 mem 0x044 [1, 0, 0, 0]]

def ringLayout : GuestLayout := ⟨true, 0x8000, 0, 0⟩

def readyTransport : MmioTransport Unit :=
  { MmioTransport.fresh idleDevice () 5 ringLayout with
    queues := [⟨256, 256, true, 0, 0x1000, 0x2000⟩]
    virtqueues := [⟨256, true, 0, 0x1000, 0x2000, 0, true, 0x8000, 0, 0⟩] }

theorem readyTransport_reached (mem : ByteStore) :
    Steps (fun (t : MmioTransport Unit) op t' => t.perform op = some t')
      (.fresh idleDevice () 5 ringLayout) (readyRun mem) readyTransport :=
  .cons rfl (.cons rfl (.cons rfl (.nil _)))

theorem readyTransport_mapped : readyTransport.MappedBy ringLayout := by
  intro vq hvq
  cases List.mem_singleton.mp hvq
  rfl

theorem restoreState_remaining_idle : ∃ t' : MmioTransport Unit,
    (MmioTransport.fresh idleDevice () 5 ringLayout).restoreState (ringMemory 0)
      readyTransport.snapshotState = some (t', ringMemory 0) ∧
    ∀ i, t'.remaining (ringMemory 0) i = readyTransport.remaining (ringMemory 0) i := by
  refine ⟨_, rfl, ?_⟩
  apply (restoreState_remaining_iff (readyTransport_reached (ringMemory 0)) readyTransport_mapped rfl).mpr
  intro i q vq hq hvq _
  cases List.mem_singleton.mp (List.mem_of_getElem? hq)
  cases List.mem_singleton.mp (List.mem_of_getElem? hvq)
  rfl

theorem restoreState_remaining_fails :
    ¬ ∀ run t mem t' mem',
      Steps (fun (t : MmioTransport Unit) op t' => t.perform op = some t')
        (.fresh idleDevice () 5 ringLayout) run t → t.MappedBy ringLayout →
      (MmioTransport.fresh t.ops () 5 ringLayout).restoreState mem t.snapshotState = some (t', mem') →
      ∀ i, t'.remaining mem i = t.remaining mem i := by
  intro h
  have hlost := h _ _ (ringMemory 1) _ _ (readyTransport_reached (ringMemory 1)) readyTransport_mapped rfl 0
  have hpop := (Virtqueue.remaining_eq_nil_iff _ _).mp hlost.symm
  cases hpop

end CloneVmm.Virtio
