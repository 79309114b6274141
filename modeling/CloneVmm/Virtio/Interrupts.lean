import Mathlib.Tactic.IntervalCases
import CloneVmm.Virtio.Restore

namespace CloneVmm.Virtio

open CloneVmm.Lib

variable {δ : Type} {t t' : MmioTransport δ}

namespace MmioTransport

def queueRaises (fuel : Nat) (t : MmioTransport δ) (mem : ByteStore) (queueIdx : Nat) : Bool :=
  match t.virtqueues[queueIdx]? with
  | none => false
  | some vq =>
    vq.ready && ((processLoop t.ops queueIdx fuel t.device vq mem false).map fun out => out.2.2.2).getD false

def notifyRaises (fuel : Nat) (t : MmioTransport δ) (mem : ByteStore) (val : Nat) : Bool :=
  let (device, mem) := t.ops.processQueue t.device mem (val % 2 ^ 16)
  t.ops.transportProcessesQueue device (val % 2 ^ 16) &&
    queueRaises fuel { t with device } mem (val % 2 ^ 16)

def interruptBits (t : MmioTransport δ) : Nat := t.interruptStatus ||| t.vhostInterrupt

end MmioTransport

def MmioTransport.acked (t : MmioTransport δ) (val : Nat) : MmioTransport δ :=
  { t with
    interruptStatus := clearBits t.interruptStatus val
    vhostInterrupt := clearBits t.vhostInterrupt val }

/-- How a host thread raises an interrupt: the poll thread of vhost-net, the balloon's timer and the
control socket, the vsock signal, and the thread of the userspace net device, which also processes
the transmit queue. -/
inductive HostRaise
  | usedRing
  | configChange
  | vhost
  | netTx (fuel : Nat) (mem : ByteStore)

def MmioTransport.raiseVhost (t : MmioTransport δ) : MmioTransport δ :=
  { t with vhostInterrupt := t.vhostInterrupt ||| 1 }

def MmioTransport.hostRaise (t : MmioTransport δ) : HostRaise → Option (MmioTransport δ)
  | .usedRing => some t.raiseUsedRingInterrupt
  | .configChange => some t.raiseConfigChangeInterrupt
  | .vhost => some t.raiseVhost
  | .netTx fuel mem =>
    let (device, mem) := t.ops.processQueue t.device mem 1
    (processQueueDescriptors fuel { t with device } mem 1).map fun (t, _) => t.raiseVhost

inductive HandlerPhase
  | idle
  | entered
  | read (status : Nat)
  | acked
  deriving DecidableEq

/-- One device of the bus with its interrupt line: the edge that is latched for the guest, and the
pulses that threads have still to make for bits they have set. -/
structure IrqState (δ : Type) where
  bus : MmioBus δ
  latched : Bool := false
  owed : Nat := 0
  handler : HandlerPhase := .idle

inductive IrqAction
  | write (fuel : Nat) (mem : ByteStore) (addr : Nat) (data : List UInt8)
  | raise (how : HostRaise)
  | pulse
  | deliver
  | readStatus
  | ack (fuel : Nat) (mem : ByteStore)
  | finish

def regAddr (index offset : Nat) : Nat := mmioBase + index * mmioStride + offset

namespace IrqState

variable (index : Nat)

def busWrite (s : IrqState δ) (fuel : Nat) (mem : ByteStore) (addr : Nat) (data : List UInt8) :
    Option (IrqState δ) :=
  (s.bus.handleWrite fuel mem addr data).map fun (bus, _, _, inject) =>
    let irq := s.bus.devices[index]?.map MmioTransport.irq
    { s with bus, owed := if inject ≠ none ∧ inject = irq then s.owed + 1 else s.owed }

def step (s : IrqState δ) : IrqAction → Option (IrqState δ)
  | .write fuel mem addr data =>
    if addr = regAddr index 0x064 then none else s.busWrite index fuel mem addr data
  | .raise how =>
    match s.bus.devices[index]? with
    | none => none
    | some t =>
      (t.hostRaise how).map fun t' =>
        { s with bus := ⟨s.bus.devices.set index t'⟩, owed := s.owed + 1 }
  | .pulse => if 0 < s.owed then some { s with owed := s.owed - 1, latched := true } else none
  | .deliver =>
    if s.latched ∧ s.handler = .idle then some { s with latched := false, handler := .entered } else none
  | .readStatus =>
    if s.handler = .entered then
      (s.bus.handleRead (regAddr index 0x060) 4).map fun data => { s with handler := .read (leNat data) }
    else none
  | .ack fuel mem =>
    match s.handler with
    | .read status =>
      (s.busWrite index fuel mem (regAddr index 0x064) (leBytes 4 status)).map fun s =>
        { s with handler := .acked }
    | _ => none
  | .finish => if s.handler = .acked then some { s with handler := .idle } else none

def Lost (s : IrqState δ) : Prop :=
  ∃ t, s.bus.devices[index]? = some t ∧ t.interruptBits ≠ 0 ∧
    s.latched = false ∧ s.owed = 0 ∧ s.handler = .idle

def Quiet (s : IrqState δ) : Prop :=
  s.handler = .idle ∧
    ∃ t, s.bus.devices[index]? = some t ∧ t.interruptStatus = 0 ∧ t.vhostInterrupt = 0

def EdgeOk (s : IrqState δ) : IrqAction → Prop
  | .write fuel mem addr data =>
    ∀ status t, s.handler = .read status → status &&& 1 = 0 → s.latched = false → s.owed = 0 →
      s.bus.devices[index]? = some t → t.interruptStatus ≠ 0 →
      addr = regAddr index 0x050 → data.length = 4 → t.notifyRaises fuel mem (leNat data) = false
  | _ => True

end IrqState

theorem processQueueDescriptors_interrupt {fuel queueIdx : Nat} {mem mem' : ByteStore}
    (h : t.processQueueDescriptors fuel mem queueIdx = some (t', mem')) :
    t'.irq = t.irq ∧ t'.vhostInterrupt = t.vhostInterrupt ∧
      t'.interruptStatus =
        if t.queueRaises fuel mem queueIdx then t.interruptStatus ||| 1 else t.interruptStatus := by
  unfold MmioTransport.processQueueDescriptors at h
  cases hvq : t.virtqueues[queueIdx]? with
  | none =>
    have hraises : t.queueRaises fuel mem queueIdx = false := by rw [MmioTransport.queueRaises, hvq]
    rw [hvq] at h
    cases h
    rw [hraises]
    exact ⟨rfl, rfl, rfl⟩
  | some vq =>
    have hraises : t.queueRaises fuel mem queueIdx = (vq.ready &&
        ((MmioTransport.processLoop t.ops queueIdx fuel t.device vq mem false).map
          fun out => out.2.2.2).getD false) := by
      rw [MmioTransport.queueRaises, hvq]
    rw [hvq] at h
    dsimp only at h
    split at h
    · rename_i hready
      rw [Bool.not_eq_true'] at hready
      rw [hready, Bool.false_and] at hraises
      cases h
      rw [hraises]
      exact ⟨rfl, rfl, rfl⟩
    · rename_i hready
      rw [Bool.not_eq_true', Bool.not_eq_false] at hready
      obtain ⟨⟨device, vq', mem'', raised⟩, hloop, heq⟩ := Option.map_eq_some_iff.mp h
      rw [hready, hloop] at hraises
      rw [hraises]
      cases raised <;> cases heq <;> exact ⟨rfl, rfl, rfl⟩

theorem writeQueueNotify_interrupt {fuel val : Nat} {mem mem' : ByteStore}
    (h : t.writeQueueNotify fuel mem val = some (t', mem')) :
    t'.irq = t.irq ∧ t'.vhostInterrupt = t.vhostInterrupt ∧
      t'.interruptStatus =
        if t.notifyRaises fuel mem val then t.interruptStatus ||| 1 else t.interruptStatus := by
  unfold MmioTransport.writeQueueNotify at h
  rcases hqueue : t.ops.processQueue t.device mem (val % 2 ^ 16) with ⟨device, mem₁⟩
  have hraises : t.notifyRaises fuel mem val = (t.ops.transportProcessesQueue device (val % 2 ^ 16) &&
      MmioTransport.queueRaises fuel { t with device } mem₁ (val % 2 ^ 16)) := by
    simp only [MmioTransport.notifyRaises, hqueue]
  simp only [hqueue] at h
  split at h
  · rename_i hprocess
    rw [hprocess, Bool.true_and] at hraises
    rw [hraises]
    exact processQueueDescriptors_interrupt h
  · rename_i hprocess
    rw [Bool.eq_false_of_not_eq_true hprocess, Bool.false_and] at hraises
    cases h
    rw [hraises]
    exact ⟨rfl, rfl, rfl⟩

def interruptAfter (fuel : Nat) (t : MmioTransport δ) (mem : ByteStore) (reg : Reg) (val : Nat) : Nat :=
  match reg with
  | .queueNotify => if t.notifyRaises fuel mem val then t.interruptStatus ||| 1 else t.interruptStatus
  | .interruptAck => MmioTransport.clearBits t.interruptStatus val
  | .status => if val = 0 then 0 else t.interruptStatus
  | _ => t.interruptStatus

def vhostAfter (t : MmioTransport δ) (reg : Reg) (val : Nat) : Nat :=
  match reg with
  | .interruptAck => MmioTransport.clearBits t.vhostInterrupt val
  | _ => t.vhostInterrupt

theorem writeRegister_interrupt {fuel val : Nat} {mem mem' : ByteStore} {reg : Reg}
    (h : t.writeRegister fuel mem reg val = some (t', mem')) :
    t'.irq = t.irq ∧ t'.vhostInterrupt = vhostAfter t reg val ∧
      t'.interruptStatus = interruptAfter fuel t mem reg val := by
  cases reg with
  | queueNotify =>
    exact writeQueueNotify_interrupt h
  | queueReady =>
    simp only [MmioTransport.writeRegister, MmioTransport.writeQueueReady, MmioTransport.modifyQueue,
      Option.some.injEq, Prod.mk.injEq] at h
    obtain ⟨rfl, -⟩ := h
    split <;> exact ⟨rfl, rfl, rfl⟩
  | status =>
    simp only [MmioTransport.writeRegister, MmioTransport.handleStatusWrite, Option.some.injEq] at h
    simp only [vhostAfter, interruptAfter]
    split at h
    · rename_i hzero
      cases h
      exact ⟨rfl, rfl, (if_pos hzero).symm⟩
    · rename_i hnonzero
      rw [if_neg hnonzero]
      split at h
      · split at h <;> cases h <;> exact ⟨rfl, rfl, rfl⟩
      · cases h
        exact ⟨rfl, rfl, rfl⟩
  | driverFeatures =>
    simp only [MmioTransport.writeRegister, MmioTransport.writeDriverFeatures] at h
    split at h <;> cases h <;> exact ⟨rfl, rfl, rfl⟩
  | _ =>
    cases h
    exact ⟨rfl, rfl, rfl⟩

theorem write_interrupt {fuel offset : Nat} {data : List UInt8} {mem mem' : ByteStore}
    (h : t.write fuel mem offset data = some (t', mem')) :
    t'.irq = t.irq ∧
      (t'.vhostInterrupt = t.vhostInterrupt ∧ t'.interruptStatus = t.interruptStatus ∨
        (offset < configSpace ∧ data.length = 4) ∧
          t'.vhostInterrupt = vhostAfter t (.ofOffset offset) (leNat data) ∧
          t'.interruptStatus = interruptAfter fuel t mem (.ofOffset offset) (leNat data)) := by
  unfold MmioTransport.write at h
  split at h
  · cases h
    exact ⟨rfl, .inl ⟨rfl, rfl⟩⟩
  · split at h
    · cases h
      exact ⟨rfl, .inl ⟨rfl, rfl⟩⟩
    · obtain ⟨hirq, hvhost, hstatus⟩ := writeRegister_interrupt h
      exact ⟨hirq, .inr ⟨by omega, hvhost, hstatus⟩⟩

theorem ofOffset_notify {offset : Nat} (h : Reg.ofOffset offset = .queueNotify) : offset = 0x050 := by
  unfold Reg.ofOffset at h
  split at h <;> first | rfl | cases h

theorem ofOffset_ack {offset : Nat} (h : Reg.ofOffset offset = .interruptAck) : offset = 0x064 := by
  unfold Reg.ofOffset at h
  split at h <;> first | rfl | cases h

theorem write_bits {fuel offset : Nat} {data : List UInt8} {mem mem' : ByteStore}
    (h : t.write fuel mem offset data = some (t', mem')) (hoffset : offset ≠ 0x064) :
    t'.irq = t.irq ∧ t'.vhostInterrupt = t.vhostInterrupt ∧
      (t'.interruptStatus = t.interruptStatus ∨ t'.interruptStatus = 0 ∨
        offset = 0x050 ∧ data.length = 4 ∧ t.notifyRaises fuel mem (leNat data) = true ∧
          t'.interruptStatus = t.interruptStatus ||| 1) := by
  obtain ⟨hirq, ⟨hvhost, hstatus⟩ | ⟨⟨-, hlen⟩, hvhost, hstatus⟩⟩ := write_interrupt h
  · exact ⟨hirq, hvhost, .inl hstatus⟩
  · refine ⟨hirq, ?_⟩
    cases hreg : Reg.ofOffset offset with
    | queueNotify =>
      rw [hreg] at hvhost hstatus
      refine ⟨hvhost, ?_⟩
      rw [interruptAfter] at hstatus
      split at hstatus
      · rename_i hraises
        exact .inr (.inr ⟨ofOffset_notify hreg, hlen, hraises, hstatus⟩)
      · exact .inl hstatus
    | interruptAck => exact absurd (ofOffset_ack hreg) hoffset
    | status =>
      rw [hreg] at hvhost hstatus
      refine ⟨hvhost, ?_⟩
      rw [interruptAfter] at hstatus
      split at hstatus
      · exact .inr (.inl hstatus)
      · exact .inl hstatus
    | _ =>
      rw [hreg] at hvhost hstatus
      exact ⟨hvhost, .inl hstatus⟩

theorem write_notify {fuel : Nat} {data : List UInt8} {mem mem' : ByteStore} (hlen : data.length = 4)
    (hraises : t.notifyRaises fuel mem (leNat data) = true)
    (h : t.write fuel mem 0x050 data = some (t', mem')) :
    t'.vhostInterrupt = t.vhostInterrupt ∧ t'.interruptStatus = t.interruptStatus ||| 1 := by
  have hreg : t.writeQueueNotify fuel mem (leNat data) = some (t', mem') := by
    simpa [MmioTransport.write, configSpace, hlen, MmioTransport.writeRegister, Reg.ofOffset] using h
  obtain ⟨-, hvhost, hstatus⟩ := writeQueueNotify_interrupt hreg
  rw [hraises, if_pos rfl] at hstatus
  exact ⟨hvhost, hstatus⟩

section Bus

variable {bus bus' : MmioBus δ} {fuel addr index : Nat} {mem mem' : ByteStore} {data : List UInt8}
  {handled : Bool} {inject : Option Nat}

theorem handleWrite_cases (h : bus.handleWrite fuel mem addr data = some (bus', mem', handled, inject))
    (ht : bus.devices[index]? = some t) :
    bus'.devices[index]? = some t ∨
    ∃ offset t', addr = regAddr index offset ∧ t.write fuel mem offset data = some (t', mem') ∧
      bus'.devices[index]? = some t' ∧
      inject = if t'.interruptStatus ≠ 0 ∧ t.interruptStatus = 0 then some t.irq else none := by
  unfold MmioBus.handleWrite at h
  dsimp only at h
  split at h
  · cases h
    exact .inl ht
  · rename_i hbase
    split at h
    · cases h
      exact .inl ht
    · rename_i t₁ ht₁
      obtain ⟨⟨t₁', mem''⟩, hwrite, heq⟩ := Option.map_eq_some_iff.mp h
      cases heq
      by_cases hindex : (addr - mmioBase) / mmioStride = index
      · subst hindex
        cases ht.symm.trans ht₁
        refine .inr ⟨(addr - mmioBase) % mmioStride, t₁', ?_, hwrite, ?_, rfl⟩
        · have hdiv := Nat.div_add_mod' (addr - mmioBase) mmioStride
          simp only [regAddr]
          omega
        · obtain ⟨hlt, -⟩ := List.getElem?_eq_some_iff.mp ht
          simp [hlt]
      · left
        rw [List.getElem?_set_ne hindex]
        exact ht

theorem regAddr_index (index offset : Nat) (h : offset < mmioStride) :
    (regAddr index offset - mmioBase) / mmioStride = index ∧
      (regAddr index offset - mmioBase) % mmioStride = offset ∧ ¬ regAddr index offset < mmioBase := by
  have hsub : regAddr index offset - mmioBase = offset + mmioStride * index := by
    simp only [regAddr, Nat.mul_comm mmioStride]
    omega
  have hpos : 0 < mmioStride := by decide
  rw [hsub, Nat.add_mul_div_left _ _ hpos, Nat.div_eq_of_lt h, Nat.add_mul_mod_self_left,
    Nat.mod_eq_of_lt h]
  refine ⟨by omega, rfl, ?_⟩
  simp only [regAddr]
  omega

end Bus

theorem clearBits_or (a b val : Nat) :
    MmioTransport.clearBits (a ||| b) val = MmioTransport.clearBits a val ||| MmioTransport.clearBits b val :=
  Nat.and_or_distrib_right a b _

theorem clearBits_self {bits : Nat} (h : bits < 4) : MmioTransport.clearBits bits bits = 0 := by
  interval_cases bits <;> rfl

theorem clearBits_raised {bits val : Nat} (h : bits < 4) (hval : val < 4) (hbit : val &&& 1 ≠ 0) :
    MmioTransport.clearBits (bits ||| 1) val = MmioTransport.clearBits bits val := by
  interval_cases bits <;> interval_cases val <;> first | rfl | cases hbit rfl

theorem clearBits_missed {bits val : Nat} (h : bits < 4) (hval : val < 4) (hbit : val &&& 1 = 0) :
    MmioTransport.clearBits (bits ||| 1) val ≠ 0 := by
  interval_cases bits <;> interval_cases val <;> first | decide | cases hbit

theorem interruptBits_raised (hstatus : t'.interruptStatus = t.interruptStatus ||| 1)
    (hvhost : t'.vhostInterrupt = t.vhostInterrupt) : t'.interruptBits = t.interruptBits ||| 1 := by
  rw [MmioTransport.interruptBits, MmioTransport.interruptBits, hstatus, hvhost, Nat.or_assoc,
    Nat.or_comm 1, ← Nat.or_assoc]

namespace IrqState

def unseen (handler : HandlerPhase) (bits : Nat) : Nat :=
  match handler with
  | .entered => 0
  | .read status => MmioTransport.clearBits bits status
  | .idle | .acked => bits

theorem unseen_or (handler : HandlerPhase) (a b : Nat) :
    unseen handler (a ||| b) = unseen handler a ||| unseen handler b := by
  cases handler with
  | read status => exact clearBits_or a b status
  | entered => exact (Nat.or_self 0).symm
  | idle => rfl
  | acked => rfl

structure Covered (s : IrqState δ) (t : MmioTransport δ) : Prop where
  status_lt : t.interruptStatus < 4
  vhost_lt : t.vhostInterrupt < 4
  read_lt : ∀ status, s.handler = .read status → status < 4
  edge : unseen s.handler t.interruptBits ≠ 0 → s.latched = true ∨ 0 < s.owed

theorem or_lt_four {a b : Nat} (ha : a < 4) (hb : b < 4) : a ||| b < 4 := Nat.or_lt_two_pow ha hb (n := 2)

theorem Covered.bits_lt {s : IrqState δ} (h : Covered s t) : t.interruptBits < 4 :=
  or_lt_four h.status_lt h.vhost_lt

theorem Covered.mono {s s' : IrqState δ} (h : Covered s t) (hhandler : s'.handler = s.handler)
    (hedge : s.latched = true ∨ 0 < s.owed → s'.latched = true ∨ 0 < s'.owed)
    (hstatus : t'.interruptStatus = t.interruptStatus) (hvhost : t'.vhostInterrupt = t.vhostInterrupt) :
    Covered s' t' where
  status_lt := by rw [hstatus]; exact h.status_lt
  vhost_lt := by rw [hvhost]; exact h.vhost_lt
  read_lt := by rw [hhandler]; exact h.read_lt
  edge := by
    rw [hhandler, MmioTransport.interruptBits, hstatus, hvhost]
    exact fun hbits => hedge (h.edge hbits)

theorem Covered.reset {s : IrqState δ} (h : Covered s t) (hstatus : t'.interruptStatus = 0)
    (hvhost : t'.vhostInterrupt = t.vhostInterrupt) : Covered s t' where
  status_lt := by omega
  vhost_lt := by rw [hvhost]; exact h.vhost_lt
  read_lt := h.read_lt
  edge := by
    intro hbits
    apply h.edge
    rw [MmioTransport.interruptBits, hstatus, hvhost, Nat.zero_or] at hbits
    rw [MmioTransport.interruptBits, unseen_or]
    intro hzero
    exact hbits (Nat.or_eq_zero_iff.mp hzero).2

theorem Covered.raised {s : IrqState δ} (h : Covered s t)
    (hstatus : t'.interruptStatus = t.interruptStatus ||| 1) (hvhost : t'.vhostInterrupt = t.vhostInterrupt)
    (hseen : s.latched = false → s.owed = 0 → t.interruptStatus ≠ 0 ∧
      ∀ status, s.handler = .read status → status &&& 1 ≠ 0) : Covered s t' where
  status_lt := by rw [hstatus]; exact or_lt_four h.status_lt (by decide)
  vhost_lt := by rw [hvhost]; exact h.vhost_lt
  read_lt := h.read_lt
  edge := by
    intro hbits
    by_contra hno
    rw [not_or, Bool.not_eq_true, Nat.pos_iff_ne_zero, not_not] at hno
    obtain ⟨hne, hread⟩ := hseen hno.1 hno.2
    have hunseen : unseen s.handler t.interruptBits = 0 := by
      by_contra hne'
      have hedge := h.edge hne'
      simp [hno.1, hno.2] at hedge
    rw [interruptBits_raised hstatus hvhost] at hbits
    -- A bit is already set, so only a handler that has read, or will read, leaves nothing unseen.
    cases hhandler : s.handler with
    | entered =>
      rw [hhandler] at hbits
      exact hbits rfl
    | read status =>
      rw [hhandler] at hbits hunseen
      apply hbits
      rw [unseen, clearBits_raised h.bits_lt (h.read_lt status hhandler) (hread status hhandler)]
      exact hunseen
    | idle =>
      rw [hhandler] at hunseen
      exact hne (Nat.or_eq_zero_iff.mp hunseen).1
    | acked =>
      rw [hhandler] at hunseen
      exact hne (Nat.or_eq_zero_iff.mp hunseen).1

theorem Covered.write {s : IrqState δ} {index fuel offset : Nat} {mem mem' : ByteStore}
    {data : List UInt8} (h : Covered s t) (ht : s.bus.devices[index]? = some t)
    (hwrite : t.write fuel mem offset data = some (t', mem')) (hoffset : offset ≠ 0x064)
    (hok : EdgeOk index s (.write fuel mem (regAddr index offset) data)) (bus : MmioBus δ) (owed : Nat)
    (howed : owed = if t'.interruptStatus ≠ 0 ∧ t.interruptStatus = 0 then s.owed + 1 else s.owed) :
    Covered { s with bus, owed } t' := by
  have hedge : s.latched = true ∨ 0 < s.owed → s.latched = true ∨ 0 < owed := by
    intro hedge
    rw [howed]
    split
    · exact .inr (Nat.succ_pos _)
    · exact hedge
  have hmono : Covered { s with bus, owed } t := h.mono rfl hedge rfl rfl
  obtain ⟨-, hvhost, hsame | hzero | ⟨rfl, hlen, hraises, hraised⟩⟩ := write_bits hwrite hoffset
  · exact h.mono rfl hedge hsame hvhost
  · exact hmono.reset hzero hvhost
  · apply hmono.raised hraised hvhost
    intro hlatched hnone
    have hset : t'.interruptStatus ≠ 0 := by
      rw [hraised]
      intro hzero
      cases (Nat.or_eq_zero_iff.mp hzero).2
    change owed = 0 at hnone
    rw [howed] at hnone
    split at hnone
    · cases hnone
    · rename_i hno
      have hstatus : t.interruptStatus ≠ 0 := fun hzero => hno ⟨hset, hzero⟩
      refine ⟨hstatus, ?_⟩
      intro status hread hbit
      have hquiet := hok status t hread hbit hlatched hnone ht hstatus rfl hlen
      rw [hraises] at hquiet
      cases hquiet

variable {index : Nat} {s s' : IrqState δ}

theorem busWrite_cases {fuel addr : Nat} {mem : ByteStore} {data : List UInt8}
    (h : s.busWrite index fuel mem addr data = some s') (ht : s.bus.devices[index]? = some t) :
    ∃ bus owed, s' = { s with bus, owed } ∧
      (bus.devices[index]? = some t ∧ s.owed ≤ owed ∨
        ∃ offset t' mem', addr = regAddr index offset ∧ t.write fuel mem offset data = some (t', mem') ∧
          bus.devices[index]? = some t' ∧
          owed = if t'.interruptStatus ≠ 0 ∧ t.interruptStatus = 0 then s.owed + 1 else s.owed) := by
  obtain ⟨⟨bus, mem', handled, inject⟩, hwrite, rfl⟩ := Option.map_eq_some_iff.mp h
  refine ⟨_, _, rfl, ?_⟩
  rcases handleWrite_cases hwrite ht with hsame | ⟨offset, t', haddr, hreg, ht', hinject⟩
  · left
    refine ⟨hsame, ?_⟩
    split <;> omega
  · right
    refine ⟨offset, t', mem', haddr, hreg, ht', ?_⟩
    rw [hinject, ht]
    by_cases hedge : t'.interruptStatus ≠ 0 ∧ t.interruptStatus = 0
    · simp [hedge]
    · simp [hedge]

theorem regAddr_injective {offset offset' : Nat} (h : regAddr index offset = regAddr index offset') :
    offset = offset' := by
  simp only [regAddr] at h
  omega

theorem leNat_status {status : Nat} (h : status < 4) : leNat (leBytes 4 status) = status := by
  rw [leNat_leBytes, Nat.mod_eq_of_lt (Nat.lt_trans h (by decide))]

theorem busWrite_register (fuel : Nat) (mem : ByteStore) (data : List UInt8) {offset : Nat}
    (ht : s.bus.devices[index]? = some t) (hoffset : offset < mmioStride) :
    s.busWrite index fuel mem (regAddr index offset) data =
      (t.write fuel mem offset data).map fun (t', _) =>
        { s with
          bus := ⟨s.bus.devices.set index t'⟩
          owed := if t'.interruptStatus ≠ 0 ∧ t.interruptStatus = 0 then s.owed + 1 else s.owed } := by
  obtain ⟨hdiv, hmod, hbase⟩ := regAddr_index index offset hoffset
  simp only [busWrite, MmioBus.handleWrite, hdiv, hmod, if_neg hbase, ht, Option.map_map]
  apply Option.map_congr
  rintro ⟨t', mem'⟩ -
  dsimp only [Function.comp_apply]
  by_cases hedge : t'.interruptStatus ≠ 0 ∧ t.interruptStatus = 0
  · simp [hedge]
  · simp [hedge]

theorem busWrite_ack {fuel status : Nat} {mem : ByteStore} (ht : s.bus.devices[index]? = some t)
    (hstatus : status < 4) :
    s.busWrite index fuel mem (regAddr index 0x064) (leBytes 4 status) =
      some { s with bus := ⟨s.bus.devices.set index (t.acked status)⟩ } := by
  have hwrite : t.write fuel mem 0x064 (leBytes 4 status) = some (t.acked (leNat (leBytes 4 status)), mem) := rfl
  have hinject : ¬ ((t.acked status).interruptStatus ≠ 0 ∧ t.interruptStatus = 0) := by
    rintro ⟨hne, hzero⟩
    apply hne
    rw [MmioTransport.acked, hzero]
    exact Nat.zero_and _
  have hregister := busWrite_register fuel mem (leBytes 4 status) ht (show 0x064 < mmioStride by decide)
  rw [hwrite, leNat_status hstatus, Option.map_some] at hregister
  rw [hregister]
  simp only [if_neg hinject]

theorem hostRaise_lt {how : HostRaise} (h : t.hostRaise how = some t') (hstatus : t.interruptStatus < 4)
    (hvhost : t.vhostInterrupt < 4) : t'.interruptStatus < 4 ∧ t'.vhostInterrupt < 4 := by
  cases how with
  | usedRing =>
    cases h
    exact ⟨or_lt_four hstatus (by decide), hvhost⟩
  | configChange =>
    cases h
    exact ⟨or_lt_four hstatus (by decide), hvhost⟩
  | vhost =>
    cases h
    exact ⟨hstatus, or_lt_four hvhost (by decide)⟩
  | netTx fuel mem =>
    obtain ⟨⟨t₁, mem'⟩, hprocess, rfl⟩ := Option.map_eq_some_iff.mp h
    obtain ⟨-, hvhost₁, hstatus₁⟩ := processQueueDescriptors_interrupt hprocess
    constructor
    · change t₁.interruptStatus < 4
      rw [hstatus₁]
      split
      · exact or_lt_four hstatus (by decide)
      · exact hstatus
    · apply or_lt_four _ (by decide)
      rw [hvhost₁]
      exact hvhost

theorem clearBits_lt {bits : Nat} (h : bits < 4) (val : Nat) : MmioTransport.clearBits bits val < 4 :=
  Nat.lt_of_le_of_lt Nat.and_le_left h

theorem interruptBits_acked (t : MmioTransport δ) (status : Nat) :
    (t.acked status).interruptBits = MmioTransport.clearBits t.interruptBits status :=
  (clearBits_or t.interruptStatus t.vhostInterrupt status).symm

theorem Covered.ack {status : Nat} (h : Covered s t) (hread : s.handler = .read status) (bus : MmioBus δ) :
    Covered { s with bus, handler := .acked } (t.acked status) := by
  constructor
  · exact clearBits_lt h.status_lt _
  · exact clearBits_lt h.vhost_lt _
  · rintro status' ⟨⟩
  · intro hbits
    apply h.edge
    rw [hread, unseen, ← interruptBits_acked]
    exact hbits

theorem handleRead_status (ht : s.bus.devices[index]? = some t) :
    s.bus.handleRead (regAddr index 0x060) 4 = some (leBytes 4 t.interruptBits) := by
  obtain ⟨hdiv, hmod, hbase⟩ := regAddr_index index 0x060 (by decide)
  rw [MmioBus.handleRead, if_neg hbase, hdiv, hmod, ht]
  rfl

def Inv (index : Nat) (s : IrqState δ) : Prop := ∃ t, s.bus.devices[index]? = some t ∧ Covered s t

theorem Inv.step (h : Inv index s) {a : IrqAction} (hstep : s.step index a = some s')
    (hok : s.EdgeOk index a) : Inv index s' := by
  obtain ⟨t, ht, hcov⟩ := h
  cases a with
  | write fuel mem addr data =>
    simp only [IrqState.step] at hstep
    split at hstep
    · cases hstep
    · rename_i haddr
      obtain ⟨bus, owed, rfl, ⟨hsame, howed⟩ | ⟨offset, t', mem', rfl, hwrite, ht', howed⟩⟩ :=
        busWrite_cases hstep ht
      · refine ⟨t, hsame, hcov.mono rfl ?_ rfl rfl⟩
        exact Or.imp_right fun hpos => Nat.lt_of_lt_of_le hpos howed
      · refine ⟨t', ht', hcov.write ht hwrite ?_ hok bus owed howed⟩
        intro hoffset
        exact haddr (congrArg (regAddr index) hoffset)
  | raise how =>
    simp only [IrqState.step, ht] at hstep
    obtain ⟨t', hraise, rfl⟩ := Option.map_eq_some_iff.mp hstep
    obtain ⟨hstatus, hvhost⟩ := hostRaise_lt hraise hcov.status_lt hcov.vhost_lt
    obtain ⟨hlt, -⟩ := List.getElem?_eq_some_iff.mp ht
    refine ⟨t', by simp [hlt], hstatus, hvhost, hcov.read_lt, ?_⟩
    intro _
    exact .inr (Nat.succ_pos _)
  | pulse =>
    simp only [IrqState.step] at hstep
    split at hstep
    · cases hstep
      exact ⟨t, ht, hcov.mono rfl (fun _ => .inl rfl) rfl rfl⟩
    · cases hstep
  | deliver =>
    simp only [IrqState.step] at hstep
    split at hstep
    · cases hstep
      refine ⟨t, ht, hcov.status_lt, hcov.vhost_lt, by rintro status ⟨⟩, ?_⟩
      intro hbits
      exact absurd rfl hbits
    · cases hstep
  | readStatus =>
    simp only [IrqState.step, handleRead_status ht, Option.map_some] at hstep
    split at hstep
    · cases hstep
      rw [leNat_status hcov.bits_lt]
      refine ⟨t, ht, hcov.status_lt, hcov.vhost_lt, ?_, ?_⟩
      · rintro status ⟨⟩
        exact hcov.bits_lt
      · intro hbits
        exact absurd (clearBits_self hcov.bits_lt) hbits
    · cases hstep
  | ack fuel mem =>
    simp only [IrqState.step] at hstep
    split at hstep
    · rename_i status hread
      rw [busWrite_ack ht (hcov.read_lt status hread)] at hstep
      cases hstep
      obtain ⟨hlt, -⟩ := List.getElem?_eq_some_iff.mp ht
      exact ⟨t.acked status, by simp [hlt], hcov.ack hread _⟩
    · cases hstep
  | finish =>
    simp only [IrqState.step] at hstep
    split at hstep
    · rename_i hacked
      cases hstep
      refine ⟨t, ht, hcov.status_lt, hcov.vhost_lt, by rintro status ⟨⟩, ?_⟩
      have hedge := hcov.edge
      rw [hacked] at hedge
      exact hedge
    · cases hstep

theorem Inv.of_quiet (h : s.Quiet index) : Inv index s := by
  obtain ⟨hidle, t, ht, hstatus, hvhost⟩ := h
  refine ⟨t, ht, by omega, by omega, ?_, ?_⟩
  · intro status hread
    rw [hidle] at hread
    cases hread
  · intro hbits
    rw [hidle, MmioTransport.interruptBits, hstatus, hvhost] at hbits
    exact absurd rfl hbits

theorem Inv.not_lost (h : Inv index s) : ¬ s.Lost index := by
  obtain ⟨t, ht, hcov⟩ := h
  rintro ⟨t', ht', hbits, hlatched, howed, hidle⟩
  cases ht.symm.trans ht'
  have hedge := hcov.edge
  rw [hidle] at hedge
  rcases hedge hbits with htrue | hpos
  · rw [hlatched] at htrue
    cases htrue
  · omega

theorem lost_of_missed {status : Nat} (ht : s.bus.devices[index]? = some t)
    (hread : s.handler = .read status) (hstatus : status < 4)
    (hbits : MmioTransport.clearBits t.interruptBits status ≠ 0) (hlatched : s.latched = false)
    (howed : s.owed = 0) : ∃ s'',
      Steps (fun s a s' => s.step index a = some s') s [.ack 0 fun _ => 0, .finish] s'' ∧ s''.Lost index := by
  obtain ⟨hlt, -⟩ := List.getElem?_eq_some_iff.mp ht
  have hack : s.step index (.ack 0 fun _ => 0) =
      some { s with bus := ⟨s.bus.devices.set index (t.acked status)⟩, handler := .acked } := by
    simp only [IrqState.step, hread, busWrite_ack ht hstatus, Option.map_some]
  refine ⟨_, .cons hack (.cons rfl (.nil _)), t.acked status, by simp [hlt], ?_, hlatched, howed, rfl⟩
  rw [interruptBits_acked]
  exact hbits

theorem Inv.lost_of_not_edgeOk (h : Inv index s) {a : IrqAction} (hstep : s.step index a = some s')
    (hok : ¬ s.EdgeOk index a) : ∃ s'',
      Steps (fun s a s' => s.step index a = some s') s' [.ack 0 fun _ => 0, .finish] s'' ∧ s''.Lost index := by
  obtain ⟨t, ht, hcov⟩ := h
  cases a with
  | write fuel mem addr data =>
    simp only [EdgeOk, not_forall] at hok
    obtain ⟨status, t₁, hread, hbit, hlatched, howed, ht₁, hstatus, rfl, hlen, hraises⟩ := hok
    cases ht.symm.trans ht₁
    have hne : regAddr index 0x050 ≠ regAddr index 0x064 := fun h => absurd (regAddr_injective h) (by decide)
    simp only [IrqState.step, if_neg hne, busWrite_register fuel mem data ht (show 0x050 < mmioStride by decide)] at hstep
    obtain ⟨⟨t', mem'⟩, hwrite, rfl⟩ := Option.map_eq_some_iff.mp hstep
    obtain ⟨hvhost, hraised⟩ := write_notify hlen (Bool.eq_true_of_not_eq_false hraises) hwrite
    obtain ⟨hlt, -⟩ := List.getElem?_eq_some_iff.mp ht
    have hbits : t'.interruptBits = t.interruptBits ||| 1 := interruptBits_raised hraised hvhost
    have hedge : ¬ (t'.interruptStatus ≠ 0 ∧ t.interruptStatus = 0) := fun h => hstatus h.2
    have hmissed : MmioTransport.clearBits t'.interruptBits status ≠ 0 := by
      rw [hbits]
      exact clearBits_missed hcov.bits_lt (hcov.read_lt status hread) hbit
    refine lost_of_missed (t := t') ?_ hread (hcov.read_lt status hread) hmissed hlatched ?_
    · simp [hlt]
    · dsimp only
      rw [if_neg hedge]
      exact howed
  | _ => exact absurd trivial hok

end IrqState

/-- In every run whose writes meet `EdgeOk` no interrupt is lost, and a write that does not meet it
is followed by a run in which one is. -/
theorem interrupt_not_lost {index : Nat} {s₀ s : IrqState δ} {run : List IrqAction} (h₀ : s₀.Quiet index)
    (hrun : Steps (fun s a s' => s.step index a = some s' ∧ s.EdgeOk index a) s₀ run s) :
    ¬ s.Lost index ∧ ∀ a s', s.step index a = some s' → ¬ s.EdgeOk index a → ∃ s'',
      Steps (fun s a s' => s.step index a = some s') s' [.ack 0 fun _ => 0, .finish] s'' ∧
        s''.Lost index := by
  have hinv : s.Inv index := by
    apply Steps.invariant (P := IrqState.Inv index) _ hrun (IrqState.Inv.of_quiet h₀)
    intro s a s' hstep h
    exact h.step hstep.1 hstep.2
  constructor
  · exact hinv.not_lost
  · intro a s' hstep hok
    exact hinv.lost_of_not_edgeOk hstep hok

def readyBus : IrqState Unit := { bus := ⟨[readyTransport]⟩ }

theorem readyBus_quiet : readyBus.Quiet 0 := ⟨rfl, readyTransport, rfl, rfl, rfl⟩

theorem interrupt_not_lost_seen : ∃ s,
    Steps (fun s a s' => s.step 0 a = some s' ∧ s.EdgeOk 0 a) readyBus
      [.raise .configChange, .pulse, .deliver, .write 2 (ringMemory 1) (regAddr 0 0x050) [0, 0, 0, 0],
        .readStatus, .ack 0 fun _ => 0, .finish] s ∧ ¬ s.Lost 0 := by
  have hrun : Steps (fun s a s' => IrqState.step 0 s a = some s' ∧ s.EdgeOk 0 a) readyBus
      [.raise .configChange, .pulse, .deliver, .write 2 (ringMemory 1) (regAddr 0 0x050) [0, 0, 0, 0],
        .readStatus, .ack 0 fun _ => 0, .finish] _ :=
    .cons ⟨rfl, trivial⟩ (.cons ⟨rfl, trivial⟩ (.cons ⟨rfl, trivial⟩ (.cons ⟨rfl, by rintro _ _ ⟨⟩⟩
      (.cons ⟨rfl, trivial⟩ (.cons ⟨rfl, trivial⟩ (.cons ⟨rfl, trivial⟩ (.nil _)))))))
  exact ⟨_, hrun, (interrupt_not_lost readyBus_quiet hrun).1⟩

theorem interrupt_not_lost_fails :
    ¬ ∀ (s₀ s : IrqState Unit) (run : List IrqAction), s₀.Quiet 0 →
      Steps (fun s a s' => s.step 0 a = some s') s₀ run s → ¬ s.Lost 0 := by
  intro h
  have hrun : Steps (fun s a s' => IrqState.step 0 s a = some s') readyBus
      [.raise .configChange, .pulse, .deliver, .readStatus,
        .write 2 (ringMemory 1) (regAddr 0 0x050) [0, 0, 0, 0], .ack 0 fun _ => 0, .finish] _ :=
    .cons rfl (.cons rfl (.cons rfl (.cons rfl (.cons rfl (.cons rfl (.cons rfl (.nil _)))))))
  apply h _ _ _ readyBus_quiet hrun
  exact ⟨_, rfl, by decide, rfl, rfl, rfl⟩

end CloneVmm.Virtio
