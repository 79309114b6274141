import CloneVmm.Lib.Writes
import CloneVmm.Storage.Qcow2
import CloneVmm.Virtio.Queue

/-!
`virtio/block.rs`: a disk image, and the requests that move bytes between it and the buffers of the guest.
-/

namespace CloneVmm.Virtio.Block

open CloneVmm.Lib

def virtioBlkTIn : Nat := 0
def virtioBlkTOut : Nat := 1
def virtioBlkTFlush : Nat := 4
def virtioBlkTGetId : Nat := 8
def virtioBlkTDiscard : Nat := 11

def virtioBlkSOk : Nat := 0
def virtioBlkSIoerr : Nat := 1
def virtioBlkSUnsupp : Nat := 2

def sectorSize : Nat := 512

/-- An image that is a file of the host; the next operations move at most `faults` bytes before they fail. -/
structure RawFile where
  file : HostFile
  faults : List Nat

namespace RawFile

def moved (f : RawFile) (count room : Nat) : Nat := min count (min room (f.faults.headD room))

def readExact (f : RawFile) (offset count : Nat) : List UInt8 × Bool × RawFile :=
  let moved := f.moved count (f.file.len - offset)
  (readBytes f.file.data offset moved, moved == count, { f with faults := f.faults.tail })

def writeAll (f : RawFile) (limit offset : Nat) (data : List UInt8) : Bool × RawFile :=
  let moved := f.moved data.length (limit - offset)
  (moved == data.length, ⟨f.file.write offset (data.take moved), f.faults.tail⟩)

def syncAll (f : RawFile) : Bool × RawFile := (f.faults.head? != some 0, { f with faults := f.faults.tail })

/-- `fallocate` refuses what is negative as an `i64`, an empty range, and one past the limit of the host. -/
def punches (f : RawFile) (limit offset count : Nat) : Bool :=
  offset < 2 ^ 63 && 0 < count && count < 2 ^ 63 && offset + count ≤ limit && f.faults.head? != some 0

def punchHole (f : RawFile) (limit offset count : Nat) : Bool × RawFile :=
  (f.punches limit offset count,
    ⟨if f.punches limit offset count then f.file.write offset (List.replicate (min count (f.file.len - offset)) 0)
      else f.file, f.faults.tail⟩)

end RawFile

inductive BlockBackend (B : Type)
  | raw (file : RawFile)
  | qcow2 (image : Storage.Qcow2File B)

namespace BlockBackend

variable {B : Type}

/-- Whether an operation on the range gets to the bytes of the disk: a file is positioned with an `i64`, and an image
has its own check. -/
def Accepts (backend : BlockBackend B) (offset count : Nat) : Prop :=
  match backend with
  | raw _ => offset < 2 ^ 63
  | qcow2 image => offset + count < 2 ^ 64 ∧ offset + count ≤ image.header.size

instance (backend : BlockBackend B) (offset count : Nat) : Decidable (backend.Accepts offset count) :=
  match backend with
  | raw _ => inferInstanceAs (Decidable (offset < 2 ^ 63))
  | qcow2 image => inferInstanceAs (Decidable (offset + count < 2 ^ 64 ∧ offset + count ≤ image.header.size))

end BlockBackend

/-- `touched` are the ranges of the disk that operations went to. -/
structure VirtioBlock (B : Type) where
  backend : BlockBackend B
  fileName : List UInt8
  readonly : Bool
  capacitySectors : Nat
  touched : List Span

structure Env (B : Type) where
  host : Storage.Host
  scrap : Storage.Qcow2File B → Nat → Nat → List UInt8

/-- The status for what an operation of an image returned; a panic leaves none. -/
def imageStatus {α : Type} : Except Storage.Qcow2Error α → Option Nat
  | .ok _ => some virtioBlkSOk
  | .error .panicked => none
  | .error _ => some virtioBlkSIoerr

def fileStatus (ok : Bool) : Option Nat := if ok then some virtioBlkSOk else some virtioBlkSIoerr

namespace VirtioBlock

variable {B : Type} [Storage.Backing B] (env : Env B) (dev : VirtioBlock B)

def byteOffset (sector : Nat) : Nat := sector * sectorSize % 2 ^ 64

def PastEnd (sector count : Nat) : Prop :=
  dev.capacitySectors * sectorSize % 2 ^ 64 < (byteOffset sector + count) % 2 ^ 64

instance (sector count : Nat) : Decidable (dev.PastEnd sector count) := inferInstanceAs (Decidable (_ < _))

def touch (offset count : Nat) : VirtioBlock B :=
  if dev.backend.Accepts offset count then { dev with touched := dev.touched ++ [⟨offset, count⟩] } else dev

def readBackend (offset count : Nat) : Option Nat × List UInt8 × BlockBackend B :=
  match dev.backend with
  | .raw file =>
    if 2 ^ 63 ≤ offset then (some virtioBlkSIoerr, [], .raw file)
    else
      let result := file.readExact offset count
      (fileStatus result.2.1, result.1, .raw result.2.2)
  | .qcow2 image =>
    let result := (Storage.Qcow2File.readAt env.host offset count).exec image
    (imageStatus result.1,
      match result.1 with
        | .ok bytes => bytes
        | .error _ => if dev.backend.Accepts offset count then (env.scrap image offset count).take count else [],
      .qcow2 result.2)

def writeBackend (offset : Nat) (data : List UInt8) : Option Nat × BlockBackend B :=
  match dev.backend with
  | .raw file =>
    if 2 ^ 63 ≤ offset then (some virtioBlkSIoerr, .raw file)
    else
      let result := file.writeAll env.host.limit offset data
      (fileStatus result.1, .raw result.2)
  | .qcow2 image =>
    let result := (Storage.Qcow2File.writeAt env.host offset data).exec image
    (imageStatus result.1, .qcow2 result.2)

def doRead (sector count : Nat) : Option Nat × List UInt8 × VirtioBlock B :=
  if dev.PastEnd sector count then (some virtioBlkSIoerr, [], dev)
  else
    let result := dev.readBackend env (byteOffset sector) count
    (result.1, result.2.1, { dev.touch (byteOffset sector) count with backend := result.2.2 })

def doWrite (sector : Nat) (data : List UInt8) : Option Nat × VirtioBlock B :=
  if dev.readonly then (some virtioBlkSIoerr, dev)
  else if dev.PastEnd sector data.length then (some virtioBlkSIoerr, dev)
  else
    let result := dev.writeBackend env (byteOffset sector) data
    (result.1, { dev.touch (byteOffset sector) data.length with backend := result.2 })

def doFlush : Option Nat × VirtioBlock B :=
  match dev.backend with
  | .raw file =>
    let result := file.syncAll
    (fileStatus result.1, { dev with backend := .raw result.2 })
  | .qcow2 image =>
    let result := (Storage.Qcow2File.flush env.host).exec image
    (imageStatus result.1, { dev with backend := .qcow2 result.2 })

def doDiscard (sector byteLen : Nat) : Option Nat × VirtioBlock B :=
  if dev.readonly then (some virtioBlkSIoerr, dev)
  else
    match dev.backend with
    | .qcow2 _ => (some virtioBlkSOk, dev)
    | .raw file =>
      let result := file.punchHole env.host.limit (byteOffset sector) byteLen
      (fileStatus result.1,
        if result.1 then { dev.touch (byteOffset sector) byteLen with backend := .raw result.2 }
        else { dev with backend := .raw result.2 })

def diskId (count : Nat) : List UInt8 :=
  dev.fileName.take count ++ List.replicate (count - dev.fileName.length) 0

def processRequest (requestType sector : Nat) (data : List UInt8) : Option Nat × List UInt8 × VirtioBlock B :=
  if requestType = virtioBlkTIn then dev.doRead env sector data.length
  else if requestType = virtioBlkTOut then
    let result := dev.doWrite env sector data
    (result.1, [], result.2)
  else if requestType = virtioBlkTFlush then
    let result := dev.doFlush env
    (result.1, [], result.2)
  else if requestType = virtioBlkTGetId then (some virtioBlkSOk, dev.diskId data.length, dev)
  else if requestType = virtioBlkTDiscard then
    let result := dev.doDiscard env sector data.length
    (result.1, [], result.2)
  else (some virtioBlkSUnsupp, [], dev)

end VirtioBlock

/-- A request on its way: `filled` are the writes to guest memory, each with the descriptor it is for, `served` the
descriptors of data whose transfer was reported as successful, and `status` the status byte once it is written. -/
structure Request (B : Type) where
  dev : VirtioBlock B
  mem : ByteStore
  filled : List (Descriptor × Write)
  served : List Descriptor
  totalWritten : Nat
  status : Option Nat

namespace Request

variable {B : Type} [Storage.Backing B] (env : Env B)

def start (dev : VirtioBlock B) (mem : ByteStore) : Request B := ⟨dev, mem, [], [], 0, none⟩

def fill (r : Request B) (desc : Descriptor) (offset : Nat) (bytes : List UInt8) : Request B :=
  { r with mem := writeBytes r.mem offset bytes, filled := r.filled ++ [(desc, ⟨offset, bytes⟩)] }

def count (r : Request B) (n : Nat) : Request B := { r with totalWritten := (r.totalWritten + n) % 2 ^ 32 }

def finish (r : Request B) (vq : Virtqueue) (statusDesc : Descriptor) : Option Nat → Request B
  | none => r
  | some status =>
    match vq.writeDescriptorData statusDesc with
    | some offset =>
      if statusDesc.len = 0 then r
      else { (r.fill statusDesc offset [UInt8.ofNat status]).count 1 with status := some status }
    | none => r

def Takes (requestType : Nat) (desc : Descriptor) : Prop :=
  if requestType = virtioBlkTOut then desc.flags &&& vringDescFWrite = 0 else desc.flags &&& vringDescFWrite ≠ 0

instance (requestType : Nat) (desc : Descriptor) : Decidable (Takes requestType desc) :=
  inferInstanceAs (Decidable
    (if requestType = virtioBlkTOut then desc.flags &&& vringDescFWrite = 0 else desc.flags &&& vringDescFWrite ≠ 0))

def move (r : Request B) (requestType curSector : Nat) (desc : Descriptor) (offset : Nat) : Option Nat × Request B :=
  let result := r.dev.processRequest env requestType curSector (readBytes r.mem offset desc.len)
  (result.1, { r.fill desc offset result.2.1 with dev := result.2.2 })

def done (r : Request B) (requestType : Nat) (desc : Descriptor) : Request B :=
  { (if requestType = virtioBlkTOut then r else r.count desc.len) with served := r.served ++ [desc] }

def moveData (vq : Virtqueue) (requestType : Nat) : Nat → List Descriptor → Request B → Option Nat × Request B
  | _, [], r => (some virtioBlkSOk, r)
  | curSector, desc :: descs, r =>
    if Takes requestType desc then
      match vq.guestRange desc.addr desc.len with
      | none => moveData vq requestType curSector descs r
      | some offset =>
        let result := r.move env requestType curSector desc offset
        if result.1 = some virtioBlkSOk then
          moveData vq requestType ((curSector + desc.len / sectorSize) % 2 ^ 64) descs (result.2.done requestType desc)
        else result
    else moveData vq requestType curSector descs r

def dispatch (r : Request B) (vq : Virtqueue) (requestType sector : Nat) (data : List Descriptor)
    (statusDesc : Descriptor) : Request B :=
  if requestType = virtioBlkTIn ∨ requestType = virtioBlkTOut ∨ requestType = virtioBlkTGetId then
    let result := moveData env vq requestType sector data r
    result.2.finish vq statusDesc result.1
  else if requestType = virtioBlkTFlush then
    let result := r.dev.processRequest env virtioBlkTFlush 0 []
    { r with dev := result.2.2 }.finish vq statusDesc result.1
  else r.finish vq statusDesc (some virtioBlkSUnsupp)

end Request

def requestTypeOf (header : List UInt8) : Nat := leNat (header.take 4)

def sectorOf (header : List UInt8) : Nat := leNat ((header.drop 8).take 8)

def processDescriptorChain {B : Type} [Storage.Backing B] (env : Env B) (dev : VirtioBlock B) (mem : ByteStore)
    (chain : DescriptorChain) (vq : Virtqueue) : Request B :=
  match chain.descriptors with
  | headerDesc :: desc :: descs =>
    if headerDesc.len < 16 then Request.start dev mem
    else
      match vq.guestRead mem headerDesc.addr headerDesc.len with
      | none => Request.start dev mem
      | some header =>
        (Request.start dev mem).dispatch env vq (requestTypeOf header) (sectorOf header) (desc :: descs).dropLast
          ((desc :: descs).getLast (List.cons_ne_nil desc descs))
  | _ => Request.start dev mem

end CloneVmm.Virtio.Block
