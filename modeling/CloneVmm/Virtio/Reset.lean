import CloneVmm.Virtio.Interrupts

namespace CloneVmm.Virtio

open CloneVmm.Lib

variable {δ : Type} {t t' : MmioTransport δ}

/-- A register access of the guest, a received frame, an interrupt that a host thread raises, or work
of a host thread on the device. -/
inductive TransportEvent (δ : Type)
  | read (offset len : Nat)
  | write (fuel : Nat) (mem : ByteStore) (offset : Nat) (data : List UInt8)
  | injectRx (mem : ByteStore) (frame : List UInt8)
  | raise (how : HostRaise)
  | device (work : δ → δ)

inductive Observation
  | value (data : List UInt8)
  | memory (mem : ByteStore)
  | frame (mem : ByteStore) (delivered : Bool)
  | silent

namespace MmioTransport

/-- The memory that a host thread leaves. -/
def raiseObserved (t : MmioTransport δ) : HostRaise → Observation
  | .netTx fuel mem =>
    let (device, mem) := t.ops.processQueue t.device mem 1
    match processQueueDescriptors fuel { t with device } mem 1 with
    | some (_, mem) => .memory mem
    | none => .silent
  | _ => .silent

def react (t : MmioTransport δ) : TransportEvent δ → Option (MmioTransport δ × Observation)
  | .read offset len => some (t, .value (t.read offset len))
  | .write fuel mem offset data => (t.write fuel mem offset data).map fun p => (p.1, .memory p.2)
  | .injectRx mem frame =>
    some ((t.injectRxFrame mem frame).1, .frame (t.injectRxFrame mem frame).2.1 (t.injectRxFrame mem frame).2.2)
  | .raise how => (t.hostRaise how).map fun t' => (t', t.raiseObserved how)
  | .device work => some ({ t with device := work t.device }, .silent)

/-- The observations of a sequence of events; `none` when a queue is not finished within its fuel. -/
def observe : MmioTransport δ → List (TransportEvent δ) → Option (List Observation)
  | _, [] => some []
  | t, e :: es => (t.react e).bind fun p => (observe p.1 es).map (p.2 :: ·)

end MmioTransport

def TransportEvent.ReadsGeneration : TransportEvent δ → Prop
  | .read offset len => Reg.ofOffset offset = .configGeneration ∧ len = 4
  | _ => False

def Indistinguishable (t t' : MmioTransport δ) : Prop :=
  ∀ es : List (TransportEvent δ), (∀ e ∈ es, ¬ e.ReadsGeneration) → t.observe es = t'.observe es

namespace MmioTransport

def withGeneration (generation : Nat) (t : MmioTransport δ) : MmioTransport δ :=
  { t with configGeneration := generation }

variable (generation : Nat)

theorem processQueueDescriptors_withGeneration (fuel : Nat) (t : MmioTransport δ) (mem : ByteStore) (queueIdx : Nat) :
    (t.withGeneration generation).processQueueDescriptors fuel mem queueIdx =
      (t.processQueueDescriptors fuel mem queueIdx).map fun p => (p.1.withGeneration generation, p.2) := by
  have hvirtqueues : (t.withGeneration generation).virtqueues = t.virtqueues := rfl
  unfold processQueueDescriptors
  rw [hvirtqueues]
  cases t.virtqueues[queueIdx]? with
  | none => rfl
  | some vq =>
    dsimp only
    by_cases hready : (!vq.ready) = true
    · rw [if_pos hready, if_pos hready]
      rfl
    · rw [if_neg hready, if_neg hready, Option.map_map]
      change Option.map _ (processLoop t.ops queueIdx fuel t.device vq mem false) = _
      congr 1
      funext ⟨device, vq, mem, raised⟩
      cases raised <;> rfl

theorem injectRxFrame_withGeneration (t : MmioTransport δ) (mem : ByteStore) (frame : List UInt8) :
    (t.withGeneration generation).injectRxFrame mem frame =
      ((t.injectRxFrame mem frame).1.withGeneration generation, (t.injectRxFrame mem frame).2) := by
  simp only [injectRxFrame, withGeneration]
  cases t.virtqueues[0]? with
  | none => rfl
  | some vq =>
    dsimp only
    split
    · rfl
    · split
      · rfl
      · split <;> rfl

theorem handleStatusWrite_withGeneration (t : MmioTransport δ) (mem : ByteStore) (val : Nat) :
    (t.withGeneration generation).handleStatusWrite mem val =
      ((t.handleStatusWrite mem val).1.withGeneration generation, (t.handleStatusWrite mem val).2) := by
  have hactivate : (t.withGeneration generation).activateDevice mem = t.activateDevice mem := rfl
  have hbits : (t.withGeneration generation).deviceStatus = t.deviceStatus := rfl
  have hactivated : (t.withGeneration generation).activated = t.activated := rfl
  unfold handleStatusWrite
  rw [hactivate, hbits, hactivated]
  by_cases hzero : val = 0
  · rw [if_pos hzero, if_pos hzero]
    rfl
  · rw [if_neg hzero, if_neg hzero]
    by_cases hok : clearBits val t.deviceStatus &&& statusDriverOk ≠ 0 ∧ t.activated = false
    · rw [if_pos hok, if_pos hok]
      obtain ⟨ok, device, mem'⟩ := t.activateDevice mem
      cases ok <;> rfl
    · rw [if_neg hok, if_neg hok]
      rfl

theorem writeQueueReady_withGeneration (t : MmioTransport δ) (val : Nat) :
    (t.withGeneration generation).writeQueueReady val = (t.writeQueueReady val).withGeneration generation := by
  simp only [writeQueueReady, modifyQueue, withGeneration]
  split <;> rfl

theorem writeDriverFeatures_withGeneration (t : MmioTransport δ) (val : Nat) :
    (t.withGeneration generation).writeDriverFeatures val = (t.writeDriverFeatures val).withGeneration generation := by
  have hbits : (t.withGeneration generation).deviceStatus = t.deviceStatus := rfl
  unfold writeDriverFeatures
  rw [hbits]
  by_cases hopen : t.deviceStatus &&& statusFeaturesOk = 0 ∧ t.deviceStatus &&& statusDriver ≠ 0
  · rw [if_pos hopen, if_pos hopen]
    rfl
  · rw [if_neg hopen, if_neg hopen]

theorem writeQueueNotify_eq (fuel : Nat) (t : MmioTransport δ) (mem : ByteStore) (val : Nat) :
    t.writeQueueNotify fuel mem val =
      if t.ops.transportProcessesQueue (t.ops.processQueue t.device mem (val % 2 ^ 16)).1 (val % 2 ^ 16) then
        processQueueDescriptors fuel { t with device := (t.ops.processQueue t.device mem (val % 2 ^ 16)).1 }
          (t.ops.processQueue t.device mem (val % 2 ^ 16)).2 (val % 2 ^ 16)
      else some ({ t with device := (t.ops.processQueue t.device mem (val % 2 ^ 16)).1 },
        (t.ops.processQueue t.device mem (val % 2 ^ 16)).2) := rfl

theorem writeQueueNotify_withGeneration (fuel : Nat) (t : MmioTransport δ) (mem : ByteStore) (val : Nat) :
    (t.withGeneration generation).writeQueueNotify fuel mem val =
      (t.writeQueueNotify fuel mem val).map fun p => (p.1.withGeneration generation, p.2) := by
  have hops : (t.withGeneration generation).ops = t.ops := rfl
  have hdevice : (t.withGeneration generation).device = t.device := rfl
  rw [writeQueueNotify_eq, writeQueueNotify_eq, hops, hdevice]
  generalize t.ops.processQueue t.device mem (val % 2 ^ 16) = after
  by_cases hprocesses : t.ops.transportProcessesQueue after.1 (val % 2 ^ 16) = true
  · rw [if_pos hprocesses, if_pos hprocesses]
    exact processQueueDescriptors_withGeneration generation fuel { t with device := after.1 } after.2 _
  · rw [if_neg hprocesses, if_neg hprocesses]
    rfl

theorem writeRegister_withGeneration (fuel : Nat) (t : MmioTransport δ) (mem : ByteStore) (reg : Reg) (val : Nat) :
    (t.withGeneration generation).writeRegister fuel mem reg val =
      (t.writeRegister fuel mem reg val).map fun p => (p.1.withGeneration generation, p.2) := by
  cases reg with
  | driverFeatures =>
    exact congrArg (fun t => some (t, mem)) (writeDriverFeatures_withGeneration generation t val)
  | queueReady =>
    exact congrArg (fun t => some (t, mem)) (writeQueueReady_withGeneration generation t val)
  | status => exact congrArg some (handleStatusWrite_withGeneration generation t mem val)
  | queueNotify => exact writeQueueNotify_withGeneration generation fuel t mem val
  | _ => rfl

theorem write_withGeneration (fuel : Nat) (t : MmioTransport δ) (mem : ByteStore) (offset : Nat) (data : List UInt8) :
    (t.withGeneration generation).write fuel mem offset data =
      (t.write fuel mem offset data).map fun p => (p.1.withGeneration generation, p.2) := by
  unfold write
  split
  · rfl
  · split
    · rfl
    · exact writeRegister_withGeneration generation fuel t mem _ _

theorem read_withGeneration (t : MmioTransport δ) {offset len : Nat}
    (h : ¬ (Reg.ofOffset offset = .configGeneration ∧ len = 4)) :
    (t.withGeneration generation).read offset len = t.read offset len := by
  unfold read
  split
  · rfl
  · split
    · rfl
    · rename_i hlen
      have hreg : Reg.ofOffset offset ≠ .configGeneration := fun heq => h ⟨heq, Decidable.not_not.mp hlen⟩
      congr 1
      generalize Reg.ofOffset offset = reg at hreg
      cases reg with
      | configGeneration => exact absurd rfl hreg
      | _ => rfl

theorem hostRaise_withGeneration (t : MmioTransport δ) (how : HostRaise) :
    ∃ generation', (t.withGeneration generation).hostRaise how =
      (t.hostRaise how).map (withGeneration generation') := by
  cases how with
  | usedRing => exact ⟨generation, rfl⟩
  | configChange => exact ⟨(generation + 1) % 2 ^ 32, rfl⟩
  | vhost => exact ⟨generation, rfl⟩
  | netTx fuel mem =>
    refine ⟨generation, ?_⟩
    have hloop := processQueueDescriptors_withGeneration generation fuel
      { t with device := (t.ops.processQueue t.device mem 1).1 } (t.ops.processQueue t.device mem 1).2 1
    simp only [hostRaise]
    simp only [withGeneration] at hloop ⊢
    rw [hloop, Option.map_map, Option.map_map]
    rfl

theorem raiseObserved_withGeneration (t : MmioTransport δ) (how : HostRaise) :
    (t.withGeneration generation).raiseObserved how = t.raiseObserved how := by
  cases how with
  | netTx fuel mem =>
    have hloop := processQueueDescriptors_withGeneration generation fuel
      { t with device := (t.ops.processQueue t.device mem 1).1 } (t.ops.processQueue t.device mem 1).2 1
    simp only [raiseObserved]
    simp only [withGeneration] at hloop ⊢
    rw [hloop]
    cases processQueueDescriptors fuel _ _ 1 <;> rfl
  | _ => rfl

theorem react_withGeneration (t : MmioTransport δ) {e : TransportEvent δ} (h : ¬ e.ReadsGeneration) :
    ∃ generation', (t.withGeneration generation).react e =
      (t.react e).map fun p => (p.1.withGeneration generation', p.2) := by
  cases e with
  | read offset len =>
    refine ⟨generation, ?_⟩
    simp only [react, read_withGeneration generation t h]
    rfl
  | write fuel mem offset data =>
    refine ⟨generation, ?_⟩
    simp only [react, write_withGeneration, Option.map_map]
    rfl
  | injectRx mem frame =>
    refine ⟨generation, ?_⟩
    simp only [react, injectRxFrame_withGeneration]
    rfl
  | raise how =>
    obtain ⟨generation', hraise⟩ := hostRaise_withGeneration generation t how
    refine ⟨generation', ?_⟩
    simp only [react, hraise, raiseObserved_withGeneration, Option.map_map]
    rfl
  | device work => exact ⟨generation, rfl⟩

theorem withGeneration_indistinguishable (t : MmioTransport δ) : Indistinguishable (t.withGeneration generation) t := by
  intro es
  induction es generalizing t generation with
  | nil => exact fun _ => rfl
  | cons e es ih =>
    intro hall
    obtain ⟨hhead, htail⟩ := List.forall_mem_cons.mp hall
    obtain ⟨generation', hreact⟩ := react_withGeneration generation t hhead
    rw [observe, observe, hreact]
    cases t.react e with
    | none => rfl
    | some p => exact congrArg (Option.map (p.2 :: ·)) (ih generation' p.1 htail)

end MmioTransport

structure Made (ops : VirtioDevice δ) (irq : Nat) (layout : GuestLayout) (t : MmioTransport δ) : Prop where
  ops_eq : t.ops = ops
  irq_eq : t.irq = irq
  hasMem : t.hasMem = layout.hasMem
  guestMemSize : t.guestMemSize = layout.guestMemSize
  queues : t.queues.map QueueState.maxSize = ops.queueMaxSizes
  virtqueues : t.virtqueues.map Virtqueue.shape = ops.queueMaxSizes.map fun maxSize => (maxSize, layout.effective)
  word : t.vhostInterrupt < 2 ^ 32

def Fixed (t t' : MmioTransport δ) : Prop := t'.irq = t.irq ∧ t'.hasMem = t.hasMem ∧ t'.guestMemSize = t.guestMemSize

theorem processQueueDescriptors_fixed {fuel queueIdx : Nat} {mem mem' : ByteStore}
    (h : t.processQueueDescriptors fuel mem queueIdx = some (t', mem')) :
    Fixed t t' ∧ t'.vhostInterrupt = t.vhostInterrupt := by
  unfold MmioTransport.processQueueDescriptors at h
  split at h
  · cases h
    exact ⟨⟨rfl, rfl, rfl⟩, rfl⟩
  · split at h
    · cases h
      exact ⟨⟨rfl, rfl, rfl⟩, rfl⟩
    · obtain ⟨⟨device, vq', mem'', raised⟩, -, heq⟩ := Option.map_eq_some_iff.mp h
      cases raised <;> cases heq <;> exact ⟨⟨rfl, rfl, rfl⟩, rfl⟩

theorem injectRxFrame_fixed (t : MmioTransport δ) (mem : ByteStore) (frame : List UInt8) :
    Fixed t (t.injectRxFrame mem frame).1 ∧ (t.injectRxFrame mem frame).1.vhostInterrupt = t.vhostInterrupt := by
  unfold MmioTransport.injectRxFrame
  split
  · exact ⟨⟨rfl, rfl, rfl⟩, rfl⟩
  · split
    · exact ⟨⟨rfl, rfl, rfl⟩, rfl⟩
    · split
      · exact ⟨⟨rfl, rfl, rfl⟩, rfl⟩
      · dsimp only
        split <;> exact ⟨⟨rfl, rfl, rfl⟩, rfl⟩

theorem writeRegister_fixed {fuel val : Nat} {mem mem' : ByteStore} {reg : Reg}
    (h : t.writeRegister fuel mem reg val = some (t', mem')) : Fixed t t' := by
  cases reg with
  | queueNotify =>
    rw [MmioTransport.writeRegister, MmioTransport.writeQueueNotify_eq] at h
    split at h
    · exact (processQueueDescriptors_fixed h).1
    · cases h
      exact ⟨rfl, rfl, rfl⟩
  | queueReady =>
    simp only [MmioTransport.writeRegister, MmioTransport.writeQueueReady, MmioTransport.modifyQueue,
      Option.some.injEq, Prod.mk.injEq] at h
    obtain ⟨rfl, -⟩ := h
    split <;> exact ⟨rfl, rfl, rfl⟩
  | status =>
    simp only [MmioTransport.writeRegister, MmioTransport.handleStatusWrite, Option.some.injEq] at h
    split at h
    · cases h
      exact ⟨rfl, rfl, rfl⟩
    · split at h
      · split at h <;> cases h <;> exact ⟨rfl, rfl, rfl⟩
      · cases h
        exact ⟨rfl, rfl, rfl⟩
  | driverFeatures =>
    simp only [MmioTransport.writeRegister, MmioTransport.writeDriverFeatures] at h
    split at h <;> cases h <;> exact ⟨rfl, rfl, rfl⟩
  | _ =>
    cases h
    exact ⟨rfl, rfl, rfl⟩

theorem write_fixed {fuel offset : Nat} {data : List UInt8} {mem mem' : ByteStore}
    (h : t.write fuel mem offset data = some (t', mem')) : Fixed t t' := by
  unfold MmioTransport.write at h
  split at h
  · cases h
    exact ⟨rfl, rfl, rfl⟩
  · split at h
    · cases h
      exact ⟨rfl, rfl, rfl⟩
    · exact writeRegister_fixed h

theorem write_vhost_le {fuel offset : Nat} {data : List UInt8} {mem mem' : ByteStore}
    (h : t.write fuel mem offset data = some (t', mem')) : t'.vhostInterrupt ≤ t.vhostInterrupt := by
  rcases (write_interrupt h).2 with ⟨hsame, -⟩ | ⟨-, hvhost, -⟩
  · rw [hsame]
  · rw [hvhost]
    generalize Reg.ofOffset offset = reg
    cases reg with
    | interruptAck => exact Nat.and_le_left
    | _ => exact Nat.le_refl _

section Made

variable {ops : VirtioDevice δ} {irq : Nat} {layout : GuestLayout}

theorem Made.of_fresh (device : δ) : Made ops irq layout (.fresh ops device irq layout) where
  ops_eq := rfl
  irq_eq := rfl
  hasMem := rfl
  guestMemSize := rfl
  queues := (Shaped.fresh ops device irq layout).queues
  virtqueues := fresh_shapes ops device irq layout
  word := Nat.two_pow_pos 32

theorem Made.of_writes (h : Made ops irq layout t) {queues : List QueueState} (hw : Writes t t' queues)
    (hmax : queues.map QueueState.maxSize = t.queues.map QueueState.maxSize) (hfixed : Fixed t t')
    (hword : t'.vhostInterrupt < 2 ^ 32) : Made ops irq layout t' where
  ops_eq := hw.ops.trans h.ops_eq
  irq_eq := hfixed.1.trans h.irq_eq
  hasMem := hfixed.2.1.trans h.hasMem
  guestMemSize := hfixed.2.2.trans h.guestMemSize
  queues := by rw [hw.queues, hmax, h.queues]
  virtqueues := hw.shapes.trans h.virtqueues
  word := hword

theorem processQueueDescriptors_writes {fuel queueIdx : Nat} {mem mem' : ByteStore}
    (h : t.processQueueDescriptors fuel mem queueIdx = some (t', mem')) : Writes t t' t.queues := by
  obtain ⟨hops, hqueues, f, hvqs⟩ := processQueueDescriptors_cases h
  refine ⟨hops, ?_, hqueues⟩
  rw [hvqs]
  apply map_modify_of_eq
  intro vq
  rfl

theorem Made.raise (h : Made ops irq layout t) {how : HostRaise} (hraise : t.hostRaise how = some t') :
    Made ops irq layout t' := by
  have hword : ∀ {word : Nat}, word < 2 ^ 32 → word ||| 1 < 2 ^ 32 := fun hlt => Nat.or_lt_two_pow hlt (by decide)
  cases how with
  | usedRing =>
    cases hraise
    exact ⟨h.ops_eq, h.irq_eq, h.hasMem, h.guestMemSize, h.queues, h.virtqueues, h.word⟩
  | configChange =>
    cases hraise
    exact ⟨h.ops_eq, h.irq_eq, h.hasMem, h.guestMemSize, h.queues, h.virtqueues, h.word⟩
  | vhost =>
    cases hraise
    exact ⟨h.ops_eq, h.irq_eq, h.hasMem, h.guestMemSize, h.queues, h.virtqueues, hword h.word⟩
  | netTx fuel mem =>
    obtain ⟨⟨t₁, mem₁⟩, hloop, rfl⟩ := Option.map_eq_some_iff.mp hraise
    obtain ⟨hfixed, hvhost⟩ := processQueueDescriptors_fixed hloop
    have hw := processQueueDescriptors_writes hloop
    have hmade : Made ops irq layout { t with device := (t.ops.processQueue t.device mem 1).1 } :=
      ⟨h.ops_eq, h.irq_eq, h.hasMem, h.guestMemSize, h.queues, h.virtqueues, h.word⟩
    have h₁ := hmade.of_writes hw rfl hfixed (hvhost ▸ h.word)
    exact ⟨h₁.ops_eq, h₁.irq_eq, h₁.hasMem, h₁.guestMemSize, h₁.queues, h₁.virtqueues, hword h₁.word⟩

theorem Made.react (h : Made ops irq layout t) {e : TransportEvent δ} {o : Observation}
    (hreact : t.react e = some (t', o)) : Made ops irq layout t' := by
  cases e with
  | read offset len =>
    cases hreact
    exact h
  | write fuel mem offset data =>
    obtain ⟨⟨t₁, mem₁⟩, hwrite, heq⟩ := Option.map_eq_some_iff.mp hreact
    cases heq
    refine h.of_writes (write_writes hwrite) ?_ (write_fixed hwrite) ((write_vhost_le hwrite).trans_lt h.word)
    split
    · exact queuesAfter_maxSize t _ _
    · rfl
  | injectRx mem frame =>
    cases hreact
    obtain ⟨hfixed, hvhost⟩ := injectRxFrame_fixed t mem frame
    exact h.of_writes (injectRxFrame_writes t mem frame) rfl hfixed (hvhost ▸ h.word)
  | raise how =>
    obtain ⟨t₁, hraise, heq⟩ := Option.map_eq_some_iff.mp hreact
    cases heq
    exact h.raise hraise
  | device work =>
    cases hreact
    exact ⟨h.ops_eq, h.irq_eq, h.hasMem, h.guestMemSize, h.queues, h.virtqueues, h.word⟩

end Made

def MmioTransport.createdOver (ops : VirtioDevice δ) (device : δ) (irq : Nat) (layout : GuestLayout) :
    MmioTransport δ :=
  { fresh ops device irq layout with device }

def Virtqueue.ofShape (shape : Nat × GuestLayout) : Virtqueue where
  size := shape.1
  hasMem := shape.2.hasMem
  guestMemSize := shape.2.guestMemSize
  holeStart := shape.2.holeStart
  holeEnd := shape.2.holeEnd

theorem map_reset (vqs : List Virtqueue) :
    vqs.map Virtqueue.reset = (vqs.map Virtqueue.shape).map Virtqueue.ofShape := by
  rw [List.map_map]
  rfl

section Reset

variable {ops : VirtioDevice δ} {irq : Nat} {layout : GuestLayout}

theorem fresh_virtqueues (device : δ) : (MmioTransport.fresh ops device irq layout).virtqueues =
    (ops.queueMaxSizes.map fun maxSize => (maxSize, layout.effective)).map Virtqueue.ofShape := by
  rw [← fresh_shapes ops device irq layout, ← map_reset]
  rw [List.map_congr_left (fresh_reset ops device irq layout), List.map_id']

theorem Made.reset (h : Made ops irq layout t) :
    t.resetTransport = MmioTransport.withGeneration t.configGeneration
      { MmioTransport.createdOver ops (ops.reset t.device) irq layout with vhostInterrupt := t.vhostInterrupt } := by
  have hqueues : t.queues.map (fun q => ({ maxSize := q.maxSize, size := q.maxSize } : QueueState)) =
      ops.queueMaxSizes.map fun maxSize => { maxSize, size := maxSize } := by
    rw [← h.queues, List.map_map]
    rfl
  have hvirtqueues : t.virtqueues.map Virtqueue.reset =
      (MmioTransport.fresh ops (ops.reset t.device) irq layout).virtqueues := by
    rw [map_reset, h.virtqueues, fresh_virtqueues]
  obtain ⟨hops, hirq, hmem, hsize, -, -, -⟩ := h
  obtain ⟨ops', device, irq', deviceStatus, interruptStatus, deviceFeaturesSel, driverFeaturesSel, driverFeatures,
    queueSel, queues, virtqueues, activated, configGeneration, hasMem, guestMemSize, vhostInterrupt⟩ := t
  dsimp only at hops hirq hmem hsize hqueues hvirtqueues
  subst hops hirq hmem hsize
  simp only [MmioTransport.resetTransport, hqueues, hvirtqueues]
  rfl

theorem write_status_zero (fuel : Nat) (mem : ByteStore) :
    t.write fuel mem 0x070 [0, 0, 0, 0] = some (t.resetTransport, mem) := rfl

theorem observe_interruptStatus (t : MmioTransport δ) :
    t.observe [.read 0x060 4] = some [.value (leBytes 4 (t.interruptStatus ||| t.vhostInterrupt))] := rfl

end Reset

/-- After a reset the transport is as good as new when no vhost bit was set. -/
theorem reset_indistinguishable_iff (ops : VirtioDevice δ) (device : δ) (irq : Nat) (layout : GuestLayout)
    (run : List (TransportEvent δ)) (t t' : MmioTransport δ)
    (hrun : Steps (fun t e t' => ∃ o, t.react e = some (t', o)) (.fresh ops device irq layout) run t)
    (fuel : Nat) (mem mem' : ByteStore) (hreset : t.write fuel mem 0x070 [0, 0, 0, 0] = some (t', mem')) :
    Indistinguishable t' (.createdOver ops (ops.reset t.device) irq layout) ↔ t.vhostInterrupt = 0 := by
  have hmade : Made ops irq layout t := by
    apply Steps.invariant (P := Made ops irq layout) _ hrun (.of_fresh device)
    rintro t e t' ⟨o, hreact⟩ h
    exact h.react hreact
  rw [write_status_zero, Option.some.injEq, Prod.mk.injEq, hmade.reset] at hreset
  obtain ⟨rfl, rfl⟩ := hreset
  constructor
  · intro h
    have hread := h [.read 0x060 4] (by simp [TransportEvent.ReadsGeneration, Reg.ofOffset])
    rw [observe_interruptStatus, observe_interruptStatus] at hread
    have hvalue : leBytes 4 (0 ||| t.vhostInterrupt) = leBytes 4 (0 ||| 0) :=
      Observation.value.inj (List.cons.inj (Option.some.inj hread)).1
    have hnat := congrArg leNat hvalue
    have hword : t.vhostInterrupt < 256 ^ 4 := hmade.word
    rw [leNat_leBytes, leNat_leBytes, Nat.zero_or, Nat.mod_eq_of_lt hword] at hnat
    exact hnat
  · intro hword
    rw [hword]
    exact MmioTransport.withGeneration_indistinguishable _ _

theorem reset_indistinguishable_idle :
    ∃ t t' : MmioTransport Unit,
      Steps (fun t e t' => ∃ o, t.react e = some (t', o)) (.fresh idleDevice () 5 ringLayout)
        [.write 0 (fun _ => 0) 0x044 [1, 0, 0, 0], .raise .usedRing, .raise .configChange] t ∧
      t.write 0 (fun _ => 0) 0x070 [0, 0, 0, 0] = some (t', fun _ => 0) ∧
      Indistinguishable t' (.createdOver idleDevice () 5 ringLayout) := by
  have hrun : Steps (fun (t : MmioTransport Unit) e t' => ∃ o, t.react e = some (t', o))
      (.fresh idleDevice () 5 ringLayout)
      [.write 0 (fun _ => 0) 0x044 [1, 0, 0, 0], .raise .usedRing, .raise .configChange] _ :=
    .cons ⟨_, rfl⟩ (.cons ⟨_, rfl⟩ (.cons ⟨_, rfl⟩ (.nil _)))
  refine ⟨_, _, hrun, rfl, ?_⟩
  exact (reset_indistinguishable_iff idleDevice () 5 ringLayout _ _ _ hrun 0 (fun _ => 0) (fun _ => 0) rfl).mpr rfl

theorem reset_indistinguishable_fails :
    ∃ t t' : MmioTransport Unit,
      Steps (fun t e t' => ∃ o, t.react e = some (t', o)) (.fresh idleDevice () 5 ringLayout) [.raise .vhost] t ∧
      t.write 0 (fun _ => 0) 0x070 [0, 0, 0, 0] = some (t', fun _ => 0) ∧ t'.read 0x060 4 = [1, 0, 0, 0] ∧
      (MmioTransport.createdOver idleDevice () 5 ringLayout).read 0x060 4 = [0, 0, 0, 0] ∧
      ¬ Indistinguishable t' (.createdOver idleDevice () 5 ringLayout) := by
  refine ⟨_, _, .cons ⟨_, rfl⟩ (.nil _), rfl, rfl, rfl, ?_⟩
  intro h
  have hread := h [.read 0x060 4] (by simp [TransportEvent.ReadsGeneration, Reg.ofOffset])
  rw [observe_interruptStatus, observe_interruptStatus] at hread
  exact absurd (Observation.value.inj (List.cons.inj (Option.some.inj hread)).1) (by decide)

end CloneVmm.Virtio
