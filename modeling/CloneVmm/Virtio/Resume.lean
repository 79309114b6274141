import CloneVmm.Virtio.Alike

/-!
`snapshot_all` and `restore_all_from_json` of `virtio/mmio.rs`: the bus of a process that takes up a VM where another has
left it.
-/

namespace CloneVmm.Virtio

open CloneVmm.Lib

variable {δ : Type}

/-- `serde_json`, for the state of a transport. -/
structure SerdeState where
  toVec : MmioTransportState → List UInt8
  fromSlice : List UInt8 → Option MmioTransportState

structure SerdeState.Reads (serde : SerdeState) (state : MmioTransportState) : Prop where
  nonempty : serde.toVec state ≠ []
  read : serde.fromSlice (serde.toVec state) = some state

namespace MmioTransport

variable {t t' : MmioTransport δ} {layout : GuestLayout} {mem mem' : ByteStore} {device : δ}

structure Registered (t : MmioTransport δ) (layout : GuestLayout) : Prop where
  synced : Synced t
  mapped : t.MappedBy layout
  hasMem : t.hasMem = layout.hasMem
  guestMemSize : t.guestMemSize = layout.guestMemSize

structure AtRest (t : MmioTransport δ) (mem : ByteStore) : Prop where
  deviceFeaturesSel : t.deviceFeaturesSel = 0
  driverFeaturesSel : t.driverFeaturesSel = 0
  vhostInterrupt : t.vhostInterrupt = 0
  idle : ∀ (i : Nat) (q : QueueState) (vq : Virtqueue), t.queues[i]? = some q → t.virtqueues[i]? = some vq →
    q.ready = false → vq = vq.reset
  ready : ∀ (i : Nat) (q : QueueState) (vq : Virtqueue), t.queues[i]? = some q → t.virtqueues[i]? = some vq →
    q.ready = true → vq.hasMem = true ∧ q.availAddr ≠ 0 ∧ vq.descTable = q.descAddr ∧ vq.availRing = q.availAddr ∧
      vq.usedRing = q.usedAddr ∧ vq.lastAvailIdx = vq.readAvailIdx mem

def Resumes (t : MmioTransport δ) (layout : GuestLayout) (mem : ByteStore) (device : δ) : Prop :=
  ∃ restored, t.ops.restoreState (fresh t.ops device t.irq layout).device (t.ops.snapshotState t.device) = some restored ∧
    if t.activated then
      ∃ activated, t.ops.activate (t.ops.prepareActivate restored mem t.queueInfos t.hasMem t.guestMemSize) mem =
        (true, activated, mem) ∧ t.ops.Alike t.device activated
    else t.ops.Alike t.device restored

theorem Registered.fresh (ops : VirtioDevice δ) (device : δ) (irq : Nat) (layout : GuestLayout) :
    (MmioTransport.fresh ops device irq layout).Registered layout where
  synced := .fresh ops device irq layout
  mapped := by
    intro vq hvq
    obtain ⟨maxSize, -, rfl⟩ := List.mem_map.mp hvq
    unfold GuestLayout.effective
    dsimp only
    split
    · rfl
    · rfl
  hasMem := rfl
  guestMemSize := rfl

theorem write_registered {fuel offset : Nat} {data : List UInt8} (h : t.write fuel mem offset data = some (t', mem')) :
    t'.irq = t.irq ∧ t'.hasMem = t.hasMem ∧ t'.guestMemSize = t.guestMemSize := by
  rcases write_cases h with ⟨hnot, -, -, -⟩ | ⟨-, hwrite⟩
  · unfold MmioTransport.write at h
    split at h
    · cases h
      exact ⟨rfl, rfl, rfl⟩
    · rw [if_pos fun hlen => hnot ⟨by omega, hlen⟩] at h
      cases h
      exact ⟨rfl, rfl, rfl⟩
  · generalize Reg.ofOffset offset = reg at hwrite
    generalize leNat data = val at hwrite
    cases reg with
    | queueNotify =>
      simp only [MmioTransport.writeRegister, MmioTransport.writeQueueNotify] at hwrite
      split at hwrite
      · unfold MmioTransport.processQueueDescriptors at hwrite
        split at hwrite
        · cases hwrite
          exact ⟨rfl, rfl, rfl⟩
        · split at hwrite
          · cases hwrite
            exact ⟨rfl, rfl, rfl⟩
          · obtain ⟨⟨dev, vq, mem₁, raised⟩, -, heq⟩ := Option.map_eq_some_iff.mp hwrite
            cases raised <;> cases heq <;> exact ⟨rfl, rfl, rfl⟩
      · cases hwrite
        exact ⟨rfl, rfl, rfl⟩
    | queueReady =>
      simp only [MmioTransport.writeRegister, MmioTransport.writeQueueReady, MmioTransport.modifyQueue,
        Option.some.injEq, Prod.mk.injEq] at hwrite
      obtain ⟨rfl, -⟩ := hwrite
      split <;> exact ⟨rfl, rfl, rfl⟩
    | status =>
      simp only [MmioTransport.writeRegister, MmioTransport.handleStatusWrite, Option.some.injEq] at hwrite
      split at hwrite
      · cases hwrite
        exact ⟨rfl, rfl, rfl⟩
      · split at hwrite
        · split at hwrite <;> cases hwrite <;> exact ⟨rfl, rfl, rfl⟩
        · cases hwrite
          exact ⟨rfl, rfl, rfl⟩
    | driverFeatures =>
      simp only [MmioTransport.writeRegister, MmioTransport.writeDriverFeatures] at hwrite
      split at hwrite <;> cases hwrite <;> exact ⟨rfl, rfl, rfl⟩
    | _ =>
      cases hwrite
      exact ⟨rfl, rfl, rfl⟩

theorem Registered.write {fuel offset : Nat} {data : List UInt8} (h : t.Registered layout)
    (hwrite : t.write fuel mem offset data = some (t', mem')) : t'.Registered layout := by
  obtain ⟨-, hhas, hsize⟩ := write_registered hwrite
  have hperform : t.perform (.write fuel mem offset data) = some t' := Option.map_eq_some_iff.mpr ⟨_, hwrite, rfl⟩
  refine ⟨h.synced.perform hperform, ?_, hhas.trans h.hasMem, hsize.trans h.guestMemSize⟩
  intro vq' hvq'
  have hshapes := (write_writes hwrite).shapes
  have hmem' : vq'.shape ∈ t.virtqueues.map Virtqueue.shape := by
    rw [← hshapes]
    exact List.mem_map_of_mem hvq'
  obtain ⟨vq, hvq, hshape⟩ := List.mem_map.mp hmem'
  have hlayout : vq'.layout = vq.layout := (congrArg Prod.snd hshape).symm
  rw [hlayout]
  exact h.mapped vq hvq

theorem AtRest.virtqueue (h : t.AtRest mem) {i : Nat} {q : QueueState} {vq : Virtqueue} (hq : t.queues[i]? = some q)
    (hvq : t.virtqueues[i]? = some vq) (hready : vq.ready = q.ready) : restoreVirtqueue mem q vq.reset = vq := by
  unfold restoreVirtqueue
  by_cases hqready : q.ready = true
  · obtain ⟨hmem, havail, hdesc, hring, hused, hidx⟩ := h.ready i q vq hq hvq hqready
    rw [if_pos hqready]
    have hback : (vq.reset.configure q.descAddr q.availAddr q.usedAddr).setReady true = { vq with lastAvailIdx := 0 } := by
      rw [← hdesc, ← hring, ← hused, ← hqready, ← hready]
      rfl
    have hidx' : ({ vq with lastAvailIdx := 0 } : Virtqueue).readAvailIdx mem = vq.lastAvailIdx := hidx.symm
    rw [hback, Virtqueue.syncAvailFromGuest, if_neg, hidx']
    simp [hmem, hring, havail]
  · rw [if_neg hqready]
    exact (h.idle i q vq hq hvq (Bool.eq_false_iff.mpr hqready)).symm

theorem Registered.fresh_virtqueue (h : t.Registered layout) {i : Nat} {vq vq₀ : Virtqueue}
    (hvq : t.virtqueues[i]? = some vq)
    (hvq₀ : (MmioTransport.fresh t.ops device t.irq layout).virtqueues[i]? = some vq₀) : vq₀ = vq.reset := by
  have hsize : vq.size = vq₀.size := by
    have hi := congrArg (fun l : List Nat => l[i]?)
      (h.synced.virtqueues.trans (fresh_sizes t.ops device t.irq layout).symm)
    simpa [hvq, hvq₀] using hi
  have hlayout : vq.layout = vq₀.layout :=
    (h.mapped vq (List.mem_of_getElem? hvq)).trans
      ((Registered.fresh t.ops device t.irq layout).mapped vq₀ (List.mem_of_getElem? hvq₀)).symm
  have hshape : vq.shape = vq₀.shape := by rw [Virtqueue.shape, Virtqueue.shape, hsize, hlayout]
  rw [reset_eq_of_shape hshape, fresh_reset _ _ _ _ vq₀ (List.mem_of_getElem? hvq₀)]

theorem AtRest.virtqueues (h : t.AtRest mem) (hreg : t.Registered layout) (device : δ) :
    ((fresh t.ops device t.irq layout).virtqueues.mapIdx fun i vq =>
      match t.queues[i]? with
      | some q => restoreVirtqueue mem q vq
      | none => vq) = t.virtqueues := by
  have hlen : (fresh t.ops device t.irq layout).virtqueues.length = t.virtqueues.length := by
    have hsizes := (fresh_sizes t.ops device t.irq layout).trans hreg.synced.virtqueues.symm
    simpa using congrArg List.length hsizes
  have hqlen := hreg.synced.length_eq
  apply List.ext_getElem
  · rw [List.length_mapIdx, hlen]
  · intro i hi' hi
    rw [List.length_mapIdx] at hi'
    have hq : t.queues[i]? = some t.queues[i] := List.getElem?_eq_getElem (by omega)
    have hvq : t.virtqueues[i]? = some t.virtqueues[i] := List.getElem?_eq_getElem hi
    have hreset := hreg.fresh_virtqueue hvq (List.getElem?_eq_getElem hi')
    rw [List.getElem_mapIdx, hq, hreset]
    exact h.virtqueue hq hvq (hreg.synced.ready_eq hq hvq)

theorem AtRest.resumed (h : t.AtRest mem) (hreg : t.Registered layout) (hdev : t.Resumes layout mem device) :
    ∃ t', (fresh t.ops device t.irq layout).restoreState mem t.snapshotState = some (t', mem) ∧ t.Alike t' := by
  obtain ⟨restored, hrestored, hactivated⟩ := hdev
  have hqueues := h.virtqueues hreg device
  have htransport : { fresh t.ops device t.irq layout with
      deviceStatus := t.deviceStatus
      interruptStatus := t.interruptStatus
      driverFeatures := t.driverFeatures
      queueSel := t.queueSel
      queues := t.queues
      configGeneration := t.configGeneration
      device := restored
      virtqueues := (fresh t.ops device t.irq layout).virtqueues.mapIdx fun i vq =>
        match t.queues[i]? with
        | some q => restoreVirtqueue mem q vq
        | none => vq } = { t with device := restored, activated := false } := by
    rw [hqueues]
    simp only [MmioTransport.fresh, setGuestMemoryWithHole, newWithMem, MmioTransport.mk.injEq]
    exact ⟨trivial, trivial, trivial, trivial, trivial, h.deviceFeaturesSel.symm, h.driverFeaturesSel.symm, trivial, trivial,
      trivial, trivial, trivial, trivial, hreg.hasMem.symm, hreg.guestMemSize.symm, h.vhostInterrupt.symm⟩
  have hops : (fresh t.ops device t.irq layout).ops.restoreState (fresh t.ops device t.irq layout).device
      t.snapshotState.deviceState = some restored := hrestored
  generalize hrun : (fresh t.ops device t.irq layout).restoreState mem t.snapshotState = result
  unfold restoreState at hrun
  rw [hops] at hrun
  dsimp -zeta only at hrun
  extract_lets t₁ at hrun
  have ht₁ : t₁ = { t with device := restored, activated := false } := htransport
  rw [ht₁] at hrun
  by_cases hact : t.activated = true
  · rw [if_pos hact] at hactivated
    obtain ⟨activated, hactivate, halike⟩ := hactivated
    have hdevice : activateDevice { t with device := restored, activated := false } mem = (true, activated, mem) :=
      hactivate
    rw [if_pos ⟨hact, rfl⟩, hdevice] at hrun
    refine ⟨_, hrun.symm, halike, ?_⟩
    rw [← hact]
  · rw [if_neg hact] at hactivated
    rw [if_neg fun hand => hact hand.1] at hrun
    exact ⟨_, hrun.symm, hactivated, rfl⟩

end MmioTransport

namespace MmioBus

variable {serde : SerdeState} {layout : GuestLayout} {mem : ByteStore}

def snapshotAll (bus : MmioBus δ) : List MmioTransportState := bus.devices.map MmioTransport.snapshotState

def restoreAllFromJson (serde : SerdeState) :
    List (MmioTransport δ) → List (List UInt8) → ByteStore → Option (List (MmioTransport δ) × ByteStore)
  | [], _, mem => some ([], mem)
  | transports, [], mem => some (transports, mem)
  | t :: transports, json :: jsonStates, mem =>
    if json = [] then (restoreAllFromJson serde transports jsonStates mem).map fun r => (t :: r.1, r.2)
    else
      match serde.fromSlice json with
      | none => none
      | some state =>
        match t.restoreState mem state with
        | none => none
        | some (t, mem) => (restoreAllFromJson serde transports jsonStates mem).map fun r => (t :: r.1, r.2)

def registered (layout : GuestLayout) (transports : List (MmioTransport δ)) (devices : List δ) : List (MmioTransport δ) :=
  List.zipWith (fun t device => MmioTransport.fresh t.ops device t.irq layout) transports devices

structure TakenUp (serde : SerdeState) (layout : GuestLayout) (mem : ByteStore) (t : MmioTransport δ) (device : δ) :
    Prop where
  registered : t.Registered layout
  atRest : t.AtRest mem
  reads : serde.Reads t.snapshotState
  resumes : t.Resumes layout mem device

theorem resumed {transports : List (MmioTransport δ)} {devices : List δ}
    (h : List.Forall₂ (TakenUp serde layout mem) transports devices) :
    ∃ transports', restoreAllFromJson serde (registered layout transports devices)
      (transports.map fun t => serde.toVec t.snapshotState) mem = some (transports', mem) ∧
      List.Forall₂ MmioTransport.Alike transports transports' := by
  induction h with
  | nil => exact ⟨[], rfl, .nil⟩
  | @cons t device transports devices ht _ ih =>
    obtain ⟨t', hrun, halike⟩ := ht.atRest.resumed ht.registered ht.resumes
    obtain ⟨transports', hrun', halike'⟩ := ih
    refine ⟨t' :: transports', ?_, .cons halike halike'⟩
    rw [registered, List.zipWith_cons_cons, List.map_cons, restoreAllFromJson, if_neg ht.reads.nonempty, ht.reads.read]
    dsimp only
    rw [hrun]
    dsimp only
    rw [← registered, hrun', Option.map_some]

end MmioBus

end CloneVmm.Virtio
