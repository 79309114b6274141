import CloneVmm.Lib.Simulation
import CloneVmm.Virtio.Restore

namespace CloneVmm.Virtio

open CloneVmm.Lib

variable {δ : Type}

namespace VirtioDevice

variable {ops : VirtioDevice δ} {R : δ → δ → Prop} {d d' : δ}

structure Bisimulation (ops : VirtioDevice δ) (R : δ → δ → Prop) : Prop where
  features : ∀ d d' page, R d d' → ops.features d page = ops.features d' page
  ackFeatures : ∀ d d' page val, R d d' → R (ops.ackFeatures d page val) (ops.ackFeatures d' page val)
  readConfig : ∀ d d' offset len, R d d' → ops.readConfig d offset len = ops.readConfig d' offset len
  writeConfig : ∀ d d' offset data, R d d' → R (ops.writeConfig d offset data) (ops.writeConfig d' offset data)
  activate : ∀ d d' mem, R d d' → (ops.activate d mem).1 = (ops.activate d' mem).1 ∧
    R (ops.activate d mem).2.1 (ops.activate d' mem).2.1 ∧ (ops.activate d mem).2.2 = (ops.activate d' mem).2.2
  processQueue : ∀ d d' mem i, R d d' →
    R (ops.processQueue d mem i).1 (ops.processQueue d' mem i).1 ∧
      (ops.processQueue d mem i).2 = (ops.processQueue d' mem i).2
  processDescriptorChain : ∀ d d' mem i chain vq, R d d' →
    (ops.processDescriptorChain d mem i chain vq).1 = (ops.processDescriptorChain d' mem i chain vq).1 ∧
      R (ops.processDescriptorChain d mem i chain vq).2.1 (ops.processDescriptorChain d' mem i chain vq).2.1 ∧
      (ops.processDescriptorChain d mem i chain vq).2.2 = (ops.processDescriptorChain d' mem i chain vq).2.2
  transportProcessesQueue : ∀ d d' i, R d d' → ops.transportProcessesQueue d i = ops.transportProcessesQueue d' i
  prepareActivate : ∀ d d' mem infos hasMem size, R d d' →
    R (ops.prepareActivate d mem infos hasMem size) (ops.prepareActivate d' mem infos hasMem size)
  reset : ∀ d d', R d d' → R (ops.reset d) (ops.reset d')

def Alike (ops : VirtioDevice δ) (d d' : δ) : Prop := ∃ R, ops.Bisimulation R ∧ R d d'

theorem Bisimulation.eq (ops : VirtioDevice δ) : ops.Bisimulation Eq := by
  constructor <;> intros <;> subst_vars <;> simp

theorem Bisimulation.flip (h : ops.Bisimulation R) : ops.Bisimulation fun d d' => R d' d where
  features d d' page hR := (h.features d' d page hR).symm
  ackFeatures d d' page val := h.ackFeatures d' d page val
  readConfig d d' offset len hR := (h.readConfig d' d offset len hR).symm
  writeConfig d d' offset data := h.writeConfig d' d offset data
  activate d d' mem hR := by
    obtain ⟨hok, hdev, hmem⟩ := h.activate d' d mem hR
    exact ⟨hok.symm, hdev, hmem.symm⟩
  processQueue d d' mem i hR := by
    obtain ⟨hdev, hmem⟩ := h.processQueue d' d mem i hR
    exact ⟨hdev, hmem.symm⟩
  processDescriptorChain d d' mem i chain vq hR := by
    obtain ⟨hwritten, hdev, hmem⟩ := h.processDescriptorChain d' d mem i chain vq hR
    exact ⟨hwritten.symm, hdev, hmem.symm⟩
  transportProcessesQueue d d' i hR := (h.transportProcessesQueue d' d i hR).symm
  prepareActivate d d' mem infos hasMem size := h.prepareActivate d' d mem infos hasMem size
  reset d d' := h.reset d' d

namespace Alike

theorem refl (ops : VirtioDevice δ) (d : δ) : ops.Alike d d := ⟨Eq, .eq ops, rfl⟩

theorem symm (h : ops.Alike d d') : ops.Alike d' d := by
  obtain ⟨R, hR, hd⟩ := h
  exact ⟨_, hR.flip, hd⟩

theorem features (h : ops.Alike d d') (page : Nat) : ops.features d page = ops.features d' page := by
  obtain ⟨R, hR, hd⟩ := h
  exact hR.features d d' page hd

theorem readConfig (h : ops.Alike d d') (offset len : Nat) :
    ops.readConfig d offset len = ops.readConfig d' offset len := by
  obtain ⟨R, hR, hd⟩ := h
  exact hR.readConfig d d' offset len hd

theorem transportProcessesQueue (h : ops.Alike d d') (i : Nat) :
    ops.transportProcessesQueue d i = ops.transportProcessesQueue d' i := by
  obtain ⟨R, hR, hd⟩ := h
  exact hR.transportProcessesQueue d d' i hd

theorem ackFeatures (h : ops.Alike d d') (page val : Nat) :
    ops.Alike (ops.ackFeatures d page val) (ops.ackFeatures d' page val) := by
  obtain ⟨R, hR, hd⟩ := h
  exact ⟨R, hR, hR.ackFeatures d d' page val hd⟩

theorem writeConfig (h : ops.Alike d d') (offset : Nat) (data : List UInt8) :
    ops.Alike (ops.writeConfig d offset data) (ops.writeConfig d' offset data) := by
  obtain ⟨R, hR, hd⟩ := h
  exact ⟨R, hR, hR.writeConfig d d' offset data hd⟩

theorem reset (h : ops.Alike d d') : ops.Alike (ops.reset d) (ops.reset d') := by
  obtain ⟨R, hR, hd⟩ := h
  exact ⟨R, hR, hR.reset d d' hd⟩

theorem prepareActivate (h : ops.Alike d d') (mem : ByteStore) (infos : List QueueInfo) (hasMem : Bool) (size : Nat) :
    ops.Alike (ops.prepareActivate d mem infos hasMem size) (ops.prepareActivate d' mem infos hasMem size) := by
  obtain ⟨R, hR, hd⟩ := h
  exact ⟨R, hR, hR.prepareActivate d d' mem infos hasMem size hd⟩

theorem activate (h : ops.Alike d d') (mem : ByteStore) : (ops.activate d mem).1 = (ops.activate d' mem).1 ∧
    ops.Alike (ops.activate d mem).2.1 (ops.activate d' mem).2.1 ∧
      (ops.activate d mem).2.2 = (ops.activate d' mem).2.2 := by
  obtain ⟨R, hR, hd⟩ := h
  obtain ⟨hok, hdev, hmem⟩ := hR.activate d d' mem hd
  exact ⟨hok, ⟨R, hR, hdev⟩, hmem⟩

theorem processQueue (h : ops.Alike d d') (mem : ByteStore) (i : Nat) :
    ops.Alike (ops.processQueue d mem i).1 (ops.processQueue d' mem i).1 ∧
      (ops.processQueue d mem i).2 = (ops.processQueue d' mem i).2 := by
  obtain ⟨R, hR, hd⟩ := h
  obtain ⟨hdev, hmem⟩ := hR.processQueue d d' mem i hd
  exact ⟨⟨R, hR, hdev⟩, hmem⟩

theorem processDescriptorChain (h : ops.Alike d d') (mem : ByteStore) (i : Nat) (chain : DescriptorChain)
    (vq : Virtqueue) :
    (ops.processDescriptorChain d mem i chain vq).1 = (ops.processDescriptorChain d' mem i chain vq).1 ∧
      ops.Alike (ops.processDescriptorChain d mem i chain vq).2.1 (ops.processDescriptorChain d' mem i chain vq).2.1 ∧
      (ops.processDescriptorChain d mem i chain vq).2.2 = (ops.processDescriptorChain d' mem i chain vq).2.2 := by
  obtain ⟨R, hR, hd⟩ := h
  obtain ⟨hwritten, hdev, hmem⟩ := hR.processDescriptorChain d d' mem i chain vq hd
  exact ⟨hwritten, ⟨R, hR, hdev⟩, hmem⟩

end Alike

end VirtioDevice

namespace MmioTransport

variable {t t' : MmioTransport δ}

structure Alike (t t' : MmioTransport δ) : Prop where
  device : t.ops.Alike t.device t'.device
  rest : t' = { t with device := t'.device }

def Results : Option (MmioTransport δ × ByteStore) → Option (MmioTransport δ × ByteStore) → Prop :=
  Option.Rel fun r r' => r.1.Alike r'.1 ∧ r.2 = r'.2

namespace Alike

theorem symm (h : t.Alike t') : t'.Alike t := by
  obtain ⟨hdev, hrest⟩ := h
  have hops : t'.ops = t.ops := by rw [hrest]
  refine ⟨?_, ?_⟩
  · rw [hops]
    exact hdev.symm
  · rw [hrest]

theorem ops_eq (h : t.Alike t') : t'.ops = t.ops := by rw [h.rest]

theorem interruptStatus_eq (h : t.Alike t') : t'.interruptStatus = t.interruptStatus := by rw [h.rest]

theorem irq_eq (h : t.Alike t') : t'.irq = t.irq := by rw [h.rest]

theorem of_device {d : δ} (h : t.ops.Alike t.device d) : t.Alike { t with device := d } := ⟨h, rfl⟩

theorem read (h : t.Alike t') (offset len : Nat) : t.read offset len = t'.read offset len := by
  obtain ⟨hdev, hrest⟩ := h
  rw [hrest]
  unfold MmioTransport.read
  split
  · exact hdev.readConfig _ _
  · split
    · rfl
    · congr 1
      cases Reg.ofOffset offset with
      | deviceFeatures => exact hdev.features _
      | _ => rfl

theorem processLoop {ops : VirtioDevice δ} {d d' : δ} (h : ops.Alike d d') (queueIdx fuel : Nat) (vq : Virtqueue)
    (mem : ByteStore) (raised : Bool) :
    Option.Rel (fun r r' => ops.Alike r.1 r'.1 ∧ r.2 = r'.2)
      (MmioTransport.processLoop ops queueIdx fuel d vq mem raised)
      (MmioTransport.processLoop ops queueIdx fuel d' vq mem raised) := by
  induction fuel generalizing d d' vq mem raised with
  | zero => exact .none
  | succ fuel ih =>
    unfold MmioTransport.processLoop
    split
    · exact .some ⟨h, rfl⟩
    · rename_i chain next _
      obtain ⟨hwritten, hdev, hmem⟩ := h.processDescriptorChain mem queueIdx chain next
      simp only [← hwritten, ← hmem]
      exact ih hdev _ _ _

theorem processQueueDescriptors {d : δ} (h : t.ops.Alike t.device d) (fuel : Nat) (mem : ByteStore) (queueIdx : Nat) :
    Results (t.processQueueDescriptors fuel mem queueIdx)
      (MmioTransport.processQueueDescriptors fuel { t with device := d } mem queueIdx) := by
  unfold MmioTransport.processQueueDescriptors
  dsimp only
  split
  · exact .some ⟨of_device h, rfl⟩
  · rename_i vq _
    split
    · exact .some ⟨of_device h, rfl⟩
    · apply rel_map (processLoop h queueIdx fuel vq mem false)
      rintro ⟨dev, vq', mem', raised⟩ ⟨dev', vq'', mem'', raised'⟩ ⟨hdev, hsame⟩
      cases hsame
      refine ⟨?_, rfl⟩
      cases raised with
      | true => exact ⟨hdev, rfl⟩
      | false => exact ⟨hdev, rfl⟩

theorem writeQueueNotify {d : δ} (h : t.ops.Alike t.device d) (fuel : Nat) (mem : ByteStore) (val : Nat) :
    Results (t.writeQueueNotify fuel mem val) (MmioTransport.writeQueueNotify fuel { t with device := d } mem val) := by
  obtain ⟨hdev, hmem⟩ := h.processQueue mem (val % 2 ^ 16)
  unfold MmioTransport.writeQueueNotify
  dsimp only
  rw [← hmem, ← hdev.transportProcessesQueue]
  split
  · exact processQueueDescriptors (t := { t with device := (t.ops.processQueue t.device mem (val % 2 ^ 16)).1 }) hdev fuel
      _ _
  · exact .some ⟨⟨hdev, rfl⟩, rfl⟩

theorem handleStatusWrite {d : δ} (h : t.ops.Alike t.device d) (mem : ByteStore) (val : Nat) :
    (t.handleStatusWrite mem val).1.Alike (MmioTransport.handleStatusWrite { t with device := d } mem val).1 ∧
      (t.handleStatusWrite mem val).2 = (MmioTransport.handleStatusWrite { t with device := d } mem val).2 := by
  obtain ⟨hok, hdev, hmem⟩ := (h.prepareActivate mem t.queueInfos t.hasMem t.guestMemSize).activate mem
  unfold MmioTransport.handleStatusWrite
  dsimp only
  split
  · exact ⟨⟨h.reset, rfl⟩, rfl⟩
  · split
    · change (t.activateDevice mem).1 = (MmioTransport.activateDevice { t with device := d } mem).1 at hok
      change t.ops.Alike (t.activateDevice mem).2.1 (MmioTransport.activateDevice { t with device := d } mem).2.1 at hdev
      change (t.activateDevice mem).2.2 = (MmioTransport.activateDevice { t with device := d } mem).2.2 at hmem
      cases hrun : t.activateDevice mem with
      | mk ok r =>
        cases hrun' : MmioTransport.activateDevice { t with device := d } mem with
        | mk ok' r' =>
          rw [hrun, hrun'] at hok hdev hmem
          cases (show ok = ok' from hok)
          cases ok with
          | true => exact ⟨⟨hdev, rfl⟩, hmem⟩
          | false => exact ⟨⟨hdev, rfl⟩, hmem⟩
    · exact ⟨⟨h, rfl⟩, rfl⟩

theorem writeRegister {d : δ} (h : t.ops.Alike t.device d) (fuel : Nat) (mem : ByteStore) (reg : Reg) (val : Nat) :
    Results (t.writeRegister fuel mem reg val) (MmioTransport.writeRegister fuel { t with device := d } mem reg val) := by
  cases reg with
  | queueNotify => exact writeQueueNotify h fuel mem val
  | status => exact .some (handleStatusWrite h mem val)
  | driverFeatures =>
    refine .some ⟨?_, rfl⟩
    unfold MmioTransport.writeDriverFeatures
    dsimp only
    split
    · exact ⟨h.ackFeatures _ _, rfl⟩
    · exact ⟨h, rfl⟩
  | queueReady =>
    refine .some ⟨?_, rfl⟩
    unfold MmioTransport.writeQueueReady MmioTransport.modifyQueue
    dsimp only
    split
    · exact ⟨h, rfl⟩
    · exact ⟨h, rfl⟩
  | _ => exact .some ⟨⟨h, rfl⟩, rfl⟩

theorem write (h : t.Alike t') (fuel : Nat) (mem : ByteStore) (offset : Nat) (data : List UInt8) :
    Results (t.write fuel mem offset data) (t'.write fuel mem offset data) := by
  obtain ⟨hdev, hrest⟩ := h
  rw [hrest]
  unfold MmioTransport.write
  split
  · exact .some ⟨⟨hdev.writeConfig _ _, rfl⟩, rfl⟩
  · split
    · exact .some ⟨⟨hdev, rfl⟩, rfl⟩
    · exact writeRegister hdev fuel mem _ _

end Alike

end MmioTransport

namespace MmioBus

variable {bus bus' : MmioBus δ}

def Alike (bus bus' : MmioBus δ) : Prop := List.Forall₂ MmioTransport.Alike bus.devices bus'.devices

theorem Alike.symm (h : bus.Alike bus') : bus'.Alike bus := by
  apply List.Forall₂.flip
  exact h.imp fun _ _ htransport => htransport.symm

theorem Alike.handleRead (h : bus.Alike bus') (addr len : Nat) : bus.handleRead addr len = bus'.handleRead addr len := by
  unfold MmioBus.handleRead
  split
  · rfl
  · apply eq_of_rel
    apply rel_map (rel_getElem? h _)
    exact fun t t' ht => ht.read _ _

theorem Alike.handleWrite (h : bus.Alike bus') (fuel : Nat) (mem : ByteStore) (addr : Nat) (data : List UInt8) :
    Option.Rel (fun r r' => r.1.Alike r'.1 ∧ r.2 = r'.2) (bus.handleWrite fuel mem addr data)
      (bus'.handleWrite fuel mem addr data) := by
  unfold MmioBus.handleWrite
  dsimp only
  split
  · exact .some ⟨h, rfl⟩
  · have hrel := rel_getElem? h ((addr - mmioBase) / mmioStride)
    generalize hx : bus.devices[(addr - mmioBase) / mmioStride]? = x at hrel ⊢
    generalize hy : bus'.devices[(addr - mmioBase) / mmioStride]? = y at hrel ⊢
    cases hrel with
    | none => exact .some ⟨h, rfl⟩
    | @some t t' ht =>
      apply rel_map (ht.write fuel mem _ data)
      rintro ⟨u, mem₁⟩ ⟨u', mem₁'⟩ ⟨hu, hmem⟩
      cases hmem
      refine ⟨forall₂_set h hu _, ?_⟩
      dsimp only
      rw [ht.interruptStatus_eq, ht.irq_eq, hu.interruptStatus_eq]

end MmioBus

end CloneVmm.Virtio
