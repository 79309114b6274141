import CloneVmm.Virtio.Queue

/-!
`virtio/mmio.rs`: the MMIO transport of one device and the bus that routes accesses to it.
The device behind the transport is any implementation of the trait `VirtioDevice`.
-/

namespace CloneVmm.Virtio

open CloneVmm.Lib

inductive Reg
  | magicValue | version | deviceId | vendorId | deviceFeatures | deviceFeaturesSel | driverFeatures
  | driverFeaturesSel | queueSel | queueNumMax | queueNum | queueReady | queueNotify
  | interruptStatus | interruptAck | status | queueDescLow | queueDescHigh | queueAvailLow
  | queueAvailHigh | queueUsedLow | queueUsedHigh | shmSel | shmLenLow | shmLenHigh | shmBaseLow
  | shmBaseHigh | configGeneration | unknown
  deriving DecidableEq

def Reg.ofOffset : Nat → Reg
  | 0x000 => .magicValue
  | 0x004 => .version
  | 0x008 => .deviceId
  | 0x00c => .vendorId
  | 0x010 => .deviceFeatures
  | 0x014 => .deviceFeaturesSel
  | 0x020 => .driverFeatures
  | 0x024 => .driverFeaturesSel
  | 0x030 => .queueSel
  | 0x034 => .queueNumMax
  | 0x038 => .queueNum
  | 0x044 => .queueReady
  | 0x050 => .queueNotify
  | 0x060 => .interruptStatus
  | 0x064 => .interruptAck
  | 0x070 => .status
  | 0x080 => .queueDescLow
  | 0x084 => .queueDescHigh
  | 0x090 => .queueAvailLow
  | 0x094 => .queueAvailHigh
  | 0x0a0 => .queueUsedLow
  | 0x0a4 => .queueUsedHigh
  | 0x0ac => .shmSel
  | 0x0b0 => .shmLenLow
  | 0x0b4 => .shmLenHigh
  | 0x0b8 => .shmBaseLow
  | 0x0bc => .shmBaseHigh
  | 0x0fc => .configGeneration
  | _ => .unknown

def configSpace : Nat := 0x100

def statusDriver : Nat := 2
def statusDriverOk : Nat := 4
def statusFeaturesOk : Nat := 8
def statusDeviceNeedsReset : Nat := 64

structure QueueInfo where
  size : Nat
  descAddr : Nat
  availAddr : Nat
  usedAddr : Nat

structure QueueState where
  maxSize : Nat := 0
  size : Nat := 0
  ready : Bool := false
  descAddr : Nat := 0
  availAddr : Nat := 0
  usedAddr : Nat := 0
  deriving DecidableEq

structure VirtioDevice (δ : Type) where
  deviceType : Nat
  queueMaxSizes : List Nat
  features : δ → Nat → Nat
  ackFeatures : δ → Nat → Nat → δ
  readConfig : δ → Nat → Nat → List UInt8
  writeConfig : δ → Nat → List UInt8 → δ
  activate : δ → ByteStore → Bool × δ × ByteStore
  processQueue : δ → ByteStore → Nat → δ × ByteStore
  processDescriptorChain : δ → ByteStore → Nat → DescriptorChain → Virtqueue → Nat × δ × ByteStore
  transportProcessesQueue : δ → Nat → Bool
  prepareActivate : δ → ByteStore → List QueueInfo → Bool → Nat → δ
  setMemoryHole : δ → Nat → Nat → δ
  reset : δ → δ
  snapshotState : δ → List UInt8
  restoreState : δ → List UInt8 → Option δ

structure MmioTransportState where
  deviceStatus : Nat
  interruptStatus : Nat
  driverFeatures : Nat × Nat
  queueSel : Nat
  queues : List QueueState
  activated : Bool
  configGeneration : Nat
  deviceState : List UInt8

structure MmioTransport (δ : Type) where
  ops : VirtioDevice δ
  device : δ
  irq : Nat
  deviceStatus : Nat := 0
  interruptStatus : Nat := 0
  deviceFeaturesSel : Nat := 0
  driverFeaturesSel : Nat := 0
  driverFeatures : Nat × Nat := (0, 0)
  queueSel : Nat := 0
  queues : List QueueState
  virtqueues : List Virtqueue
  activated : Bool := false
  configGeneration : Nat := 0
  hasMem : Bool
  guestMemSize : Nat
  vhostInterrupt : Nat := 0

namespace MmioTransport

variable {δ : Type}

def newWithMem (ops : VirtioDevice δ) (device : δ) (irq : Nat) (hasMem : Bool) (guestMemSize : Nat) :
    MmioTransport δ where
  ops := ops
  device := device
  irq := irq
  queues := ops.queueMaxSizes.map fun maxSize => { maxSize, size := maxSize }
  virtqueues := ops.queueMaxSizes.map fun maxSize => Virtqueue.new maxSize hasMem guestMemSize
  hasMem := hasMem
  guestMemSize := guestMemSize

def setGuestMemoryWithHole (t : MmioTransport δ) (hasMem : Bool) (guestMemSize holeStart holeEnd : Nat) :
    MmioTransport δ :=
  { t with
    hasMem, guestMemSize
    device := if 0 < holeStart then t.ops.setMemoryHole t.device holeStart holeEnd else t.device
    virtqueues := t.ops.queueMaxSizes.map fun maxSize =>
      let q := Virtqueue.new maxSize hasMem guestMemSize
      if 0 < holeStart then q.setHole holeStart holeEnd else q }

def raiseUsedRingInterrupt (t : MmioTransport δ) : MmioTransport δ :=
  { t with interruptStatus := t.interruptStatus ||| 1 }

def raiseConfigChangeInterrupt (t : MmioTransport δ) : MmioTransport δ :=
  { t with
    interruptStatus := t.interruptStatus ||| 2
    configGeneration := (t.configGeneration + 1) % 2 ^ 32 }

def queueInfos (t : MmioTransport δ) : List QueueInfo :=
  t.queues.map fun q => ⟨q.size, q.descAddr, q.availAddr, q.usedAddr⟩

def readRegister (t : MmioTransport δ) : Reg → Nat
  | .magicValue => 0x74726976
  | .version => 2
  | .deviceId => t.ops.deviceType
  | .vendorId => 0x004E564D
  | .deviceFeatures => t.ops.features t.device t.deviceFeaturesSel
  | .queueNumMax => (t.queues[t.queueSel]?.map QueueState.maxSize).getD 0
  | .queueReady => (t.queues[t.queueSel]?.map fun q => q.ready.toNat).getD 0
  | .interruptStatus => t.interruptStatus ||| t.vhostInterrupt
  | .status => t.deviceStatus
  | .shmLenLow | .shmLenHigh => 0xFFFFFFFF
  | .configGeneration => t.configGeneration
  | _ => 0

def read (t : MmioTransport δ) (offset len : Nat) : List UInt8 :=
  if configSpace ≤ offset then t.ops.readConfig t.device (offset - configSpace) len
  else if len ≠ 4 then List.replicate len 0
  else leBytes 4 (t.readRegister (.ofOffset offset))

def modifyQueue (t : MmioTransport δ) (f : QueueState → QueueState) : MmioTransport δ :=
  { t with queues := t.queues.modify t.queueSel f }

def setLow (addr val : Nat) : Nat := (addr &&& 0xFFFFFFFF00000000) ||| val

def setHigh (addr val : Nat) : Nat := (addr &&& 0x00000000FFFFFFFF) ||| (val <<< 32)

def clearBits (bits val : Nat) : Nat := bits &&& (val ^^^ 0xFFFFFFFF)

def writeQueueNum (t : MmioTransport δ) (val : Nat) : MmioTransport δ :=
  t.modifyQueue fun q => if val ≤ q.maxSize then { q with size := val } else q

def writeQueueReady (t : MmioTransport δ) (val : Nat) : MmioTransport δ :=
  let t := t.modifyQueue fun q => { q with ready := val == 1 }
  match t.queues[t.queueSel]? with
  | none => t
  | some qs =>
    { t with
      virtqueues := t.virtqueues.modify t.queueSel fun vq =>
        if val = 1 then (vq.configure qs.descAddr qs.availAddr qs.usedAddr).setReady true
        else vq.setReady false }

/-- The loop over the available chains; `none` when it has not ended within `fuel` iterations. -/
def processLoop (ops : VirtioDevice δ) (queueIdx : Nat) :
    Nat → δ → Virtqueue → ByteStore → Bool → Option (δ × Virtqueue × ByteStore × Bool)
  | 0, _, _, _, _ => none
  | fuel + 1, device, vq, mem, raised =>
    match vq.popAvail mem with
    | none => some (device, vq, mem, raised)
    | some (chain, vq) =>
      let (bytesWritten, device, mem) := ops.processDescriptorChain device mem queueIdx chain vq
      let mem := (vq.pushUsed mem chain.index bytesWritten).1
      processLoop ops queueIdx fuel device vq mem (raised || vq.needsNotification mem)

def processQueueDescriptors (fuel : Nat) (t : MmioTransport δ) (mem : ByteStore) (queueIdx : Nat) :
    Option (MmioTransport δ × ByteStore) :=
  match t.virtqueues[queueIdx]? with
  | none => some (t, mem)
  | some vq =>
    if !vq.ready then some (t, mem)
    else
      (processLoop t.ops queueIdx fuel t.device vq mem false).map fun (device, vq, mem, raised) =>
        let t := { t with device, virtqueues := t.virtqueues.set queueIdx vq }
        (if raised then t.raiseUsedRingInterrupt else t, mem)

def fillDescriptors (vq : Virtqueue) : List Descriptor → List UInt8 → Nat → ByteStore → Nat × ByteStore
  | [], _, written, mem => (written, mem)
  | desc :: descs, src, written, mem =>
    if desc.flags &&& vringDescFWrite = 0 then fillDescriptors vq descs src written mem
    else if src.isEmpty then (written, mem)
    else
      match vq.writeDescriptorData desc with
      | none => fillDescriptors vq descs src written mem
      | some offset =>
        let copied := src.take desc.len
        fillDescriptors vq descs (src.drop copied.length) (written + copied.length)
          (writeBytes mem offset copied)

def injectRxFrame (t : MmioTransport δ) (mem : ByteStore) (frame : List UInt8) :
    MmioTransport δ × ByteStore × Bool :=
  match t.virtqueues[0]? with
  | none => (t, mem, false)
  | some vq =>
    if !vq.ready || !vq.hasAvailable mem then (t, mem, false)
    else
      match vq.popAvail mem with
      | none => (t, mem, false)
      | some (chain, vq) =>
        let (written, mem) := fillDescriptors vq chain.descriptors (List.replicate 12 0 ++ frame) 0 mem
        let mem := (vq.pushUsed mem chain.index written).1
        let t := { t with virtqueues := t.virtqueues.set 0 vq }
        (if vq.needsNotification mem then t.raiseUsedRingInterrupt else t, mem, true)

def writeQueueNotify (fuel : Nat) (t : MmioTransport δ) (mem : ByteStore) (val : Nat) :
    Option (MmioTransport δ × ByteStore) :=
  let queueIdx := val % 2 ^ 16
  let (device, mem) := t.ops.processQueue t.device mem queueIdx
  let t := { t with device }
  if t.ops.transportProcessesQueue t.device queueIdx then processQueueDescriptors fuel t mem queueIdx
  else some (t, mem)

def resetTransport (t : MmioTransport δ) : MmioTransport δ :=
  { t with
    deviceStatus := 0, interruptStatus := 0, activated := false, deviceFeaturesSel := 0
    driverFeaturesSel := 0, driverFeatures := (0, 0), queueSel := 0
    queues := t.queues.map fun q => { maxSize := q.maxSize, size := q.maxSize }
    virtqueues := t.virtqueues.map Virtqueue.reset
    device := t.ops.reset t.device }

def activateDevice (t : MmioTransport δ) (mem : ByteStore) : Bool × δ × ByteStore :=
  t.ops.activate (t.ops.prepareActivate t.device mem t.queueInfos t.hasMem t.guestMemSize) mem

def handleStatusWrite (t : MmioTransport δ) (mem : ByteStore) (val : Nat) : MmioTransport δ × ByteStore :=
  if val = 0 then (t.resetTransport, mem)
  else if clearBits val t.deviceStatus &&& statusDriverOk ≠ 0 ∧ t.activated = false then
    match t.activateDevice mem with
    | (true, device, mem) => ({ t with device, activated := true, deviceStatus := val }, mem)
    | (false, device, mem) =>
      ({ t with device, deviceStatus := t.deviceStatus ||| statusDeviceNeedsReset }, mem)
  else ({ t with deviceStatus := val }, mem)

def writeDriverFeatures (t : MmioTransport δ) (val : Nat) : MmioTransport δ :=
  if t.deviceStatus &&& statusFeaturesOk = 0 ∧ t.deviceStatus &&& statusDriver ≠ 0 then
    { t with
      driverFeatures :=
        if t.driverFeaturesSel &&& 1 = 0 then (val, t.driverFeatures.2) else (t.driverFeatures.1, val)
      device := t.ops.ackFeatures t.device t.driverFeaturesSel val }
  else t

def writeRegister (fuel : Nat) (t : MmioTransport δ) (mem : ByteStore) (reg : Reg) (val : Nat) :
    Option (MmioTransport δ × ByteStore) :=
  match reg with
  | .deviceFeaturesSel => some ({ t with deviceFeaturesSel := val }, mem)
  | .driverFeatures => some (t.writeDriverFeatures val, mem)
  | .driverFeaturesSel => some ({ t with driverFeaturesSel := val }, mem)
  | .queueSel => some ({ t with queueSel := val }, mem)
  | .queueNum => some (t.writeQueueNum val, mem)
  | .queueReady => some (t.writeQueueReady val, mem)
  | .queueNotify => writeQueueNotify fuel t mem val
  | .interruptAck =>
    some ({ t with
      interruptStatus := clearBits t.interruptStatus val
      vhostInterrupt := clearBits t.vhostInterrupt val }, mem)
  | .status => some (t.handleStatusWrite mem val)
  | .queueDescLow => some (t.modifyQueue fun q => { q with descAddr := setLow q.descAddr val }, mem)
  | .queueDescHigh => some (t.modifyQueue fun q => { q with descAddr := setHigh q.descAddr val }, mem)
  | .queueAvailLow => some (t.modifyQueue fun q => { q with availAddr := setLow q.availAddr val }, mem)
  | .queueAvailHigh => some (t.modifyQueue fun q => { q with availAddr := setHigh q.availAddr val }, mem)
  | .queueUsedLow => some (t.modifyQueue fun q => { q with usedAddr := setLow q.usedAddr val }, mem)
  | .queueUsedHigh => some (t.modifyQueue fun q => { q with usedAddr := setHigh q.usedAddr val }, mem)
  | _ => some (t, mem)

def write (fuel : Nat) (t : MmioTransport δ) (mem : ByteStore) (offset : Nat) (data : List UInt8) :
    Option (MmioTransport δ × ByteStore) :=
  if configSpace ≤ offset then
    some ({ t with device := t.ops.writeConfig t.device (offset - configSpace) data }, mem)
  else if data.length ≠ 4 then some (t, mem)
  else writeRegister fuel t mem (.ofOffset offset) (leNat data)

def snapshotState (t : MmioTransport δ) : MmioTransportState where
  deviceStatus := t.deviceStatus
  interruptStatus := t.interruptStatus
  driverFeatures := t.driverFeatures
  queueSel := t.queueSel
  queues := t.queues
  activated := t.activated
  configGeneration := t.configGeneration
  deviceState := t.ops.snapshotState t.device

def restoreVirtqueue (mem : ByteStore) (q : QueueState) (vq : Virtqueue) : Virtqueue :=
  if q.ready then
    ((vq.configure q.descAddr q.availAddr q.usedAddr).setReady true).syncAvailFromGuest mem
  else vq

def restoreState (t : MmioTransport δ) (mem : ByteStore) (state : MmioTransportState) :
    Option (MmioTransport δ × ByteStore) :=
  match t.ops.restoreState t.device state.deviceState with
  | none => none
  | some device =>
    let t := { t with
      deviceStatus := state.deviceStatus
      interruptStatus := state.interruptStatus
      driverFeatures := state.driverFeatures
      queueSel := state.queueSel
      queues := state.queues
      configGeneration := state.configGeneration
      device
      virtqueues := t.virtqueues.mapIdx fun i vq =>
        match state.queues[i]? with
        | some q => restoreVirtqueue mem q vq
        | none => vq }
    if state.activated ∧ t.activated = false then
      let (ok, device, mem) := t.activateDevice mem
      some ({ t with device, activated := ok }, mem)
    else some ({ t with activated := state.activated }, mem)

end MmioTransport

def mmioBase : Nat := 0xd0000000
def mmioStride : Nat := 0x200

structure MmioBus (δ : Type) where
  devices : List (MmioTransport δ)

def MmioBus.handleRead {δ : Type} (bus : MmioBus δ) (addr len : Nat) : Option (List UInt8) :=
  if addr < mmioBase then none
  else (bus.devices[(addr - mmioBase) / mmioStride]?).map fun t => t.read ((addr - mmioBase) % mmioStride) len

def MmioBus.handleWrite {δ : Type} (fuel : Nat) (bus : MmioBus δ) (mem : ByteStore) (addr : Nat)
    (data : List UInt8) : Option (MmioBus δ × ByteStore × Bool × Option Nat) :=
  let index := (addr - mmioBase) / mmioStride
  if addr < mmioBase then some (bus, mem, false, none)
  else
    match bus.devices[index]? with
    | none => some (bus, mem, false, none)
    | some t =>
      (t.write fuel mem ((addr - mmioBase) % mmioStride) data).map fun (t', mem') =>
        let inject := if t'.interruptStatus ≠ 0 ∧ t.interruptStatus = 0 then some t.irq else none
        ({ bus with devices := bus.devices.set index t' }, mem', true, inject)

end CloneVmm.Virtio
