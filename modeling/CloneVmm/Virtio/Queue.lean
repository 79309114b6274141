import CloneVmm.Lib.Bytes

/-!
`virtio/queue.rs`: the split virtqueue. The rings live in guest memory, here a store indexed by
offsets into the userspace mapping; addresses are those of the guest and wrap at 64 bits.
-/

namespace CloneVmm.Virtio

open CloneVmm.Lib

def vringDescFNext : Nat := 1
def vringDescFWrite : Nat := 2

structure Descriptor where
  addr : Nat
  len : Nat
  flags : Nat
  next : Nat
  deriving DecidableEq

structure DescriptorChain where
  index : Nat
  descriptors : List Descriptor
  deriving DecidableEq

/-- `hasMem` says that the pointer `guest_mem` is not null. -/
structure Virtqueue where
  size : Nat
  ready : Bool := false
  descTable : Nat := 0
  availRing : Nat := 0
  usedRing : Nat := 0
  lastAvailIdx : Nat := 0
  hasMem : Bool
  guestMemSize : Nat
  holeStart : Nat := 0
  holeEnd : Nat := 0

structure GuestLayout where
  hasMem : Bool
  guestMemSize : Nat
  holeStart : Nat
  holeEnd : Nat
  deriving DecidableEq

namespace Virtqueue

def layout (vq : Virtqueue) : GuestLayout := ⟨vq.hasMem, vq.guestMemSize, vq.holeStart, vq.holeEnd⟩

def new (size : Nat) (hasMem : Bool) (guestMemSize : Nat) : Virtqueue := { size, hasMem, guestMemSize }

def setHole (vq : Virtqueue) (holeStart holeEnd : Nat) : Virtqueue := { vq with holeStart, holeEnd }

def configure (vq : Virtqueue) (descTable availRing usedRing : Nat) : Virtqueue :=
  { vq with descTable, availRing, usedRing }

def setReady (vq : Virtqueue) (ready : Bool) : Virtqueue := { vq with ready }

def reset (vq : Virtqueue) : Virtqueue :=
  { vq with ready := false, descTable := 0, availRing := 0, usedRing := 0, lastAvailIdx := 0 }

def gpaToOffset (vq : Virtqueue) (gpa : Nat) : Option Nat :=
  if vq.holeStart = 0 then
    if vq.guestMemSize ≤ gpa then none else some gpa
  else if gpa < vq.holeStart then some gpa
  else if vq.holeEnd ≤ gpa then
    let offset := (vq.holeStart + (gpa - vq.holeEnd)) % 2 ^ 64
    if vq.guestMemSize ≤ offset then none else some offset
  else none

def guestRange (vq : Virtqueue) (gpa len : Nat) : Option Nat :=
  match vq.gpaToOffset gpa with
  | none => none
  | some offset => if vq.guestMemSize < (offset + len) % 2 ^ 64 ∨ !vq.hasMem then none else some offset

def guestRead (vq : Virtqueue) (mem : ByteStore) (gpa len : Nat) : Option (List UInt8) :=
  (vq.guestRange gpa len).map fun offset => readBytes mem offset len

def readU16 (vq : Virtqueue) (mem : ByteStore) (gpa : Nat) : Option Nat :=
  (vq.guestRead mem (gpa % 2 ^ 64) 2).map leNat

def readU32 (vq : Virtqueue) (mem : ByteStore) (gpa : Nat) : Option Nat :=
  (vq.guestRead mem (gpa % 2 ^ 64) 4).map leNat

def readU64 (vq : Virtqueue) (mem : ByteStore) (gpa : Nat) : Option Nat :=
  (vq.guestRead mem (gpa % 2 ^ 64) 8).map leNat

def writeU16 (vq : Virtqueue) (mem : ByteStore) (gpa val : Nat) : Option ByteStore :=
  (vq.guestRange (gpa % 2 ^ 64) 2).map fun offset => writeBytes mem offset (leBytes 2 val)

def writeU32 (vq : Virtqueue) (mem : ByteStore) (gpa val : Nat) : Option ByteStore :=
  (vq.guestRange (gpa % 2 ^ 64) 4).map fun offset => writeBytes mem offset (leBytes 4 val)

def hasAvailable (vq : Virtqueue) (mem : ByteStore) : Bool :=
  if !vq.ready || !vq.hasMem then false
  else
    match vq.readU16 mem (vq.availRing + 2) with
    | some availIdx => availIdx != vq.lastAvailIdx
    | none => false

def readDescriptor (vq : Virtqueue) (mem : ByteStore) (idx : Nat) : Option Descriptor := do
  let descGpa := vq.descTable + idx * 16
  let addr ← vq.readU64 mem descGpa
  let len ← vq.readU32 mem (descGpa + 8)
  let flags ← vq.readU16 mem (descGpa + 12)
  let next ← vq.readU16 mem (descGpa + 14)
  return { addr, len, flags, next }

def walk (vq : Virtqueue) (mem : ByteStore) : Nat → Nat → Option (List Descriptor)
  | 0, _ => none
  | left + 1, idx =>
    if vq.size ≤ idx then none
    else
      match vq.readDescriptor mem idx with
      | none => none
      | some desc =>
        if desc.flags &&& vringDescFNext ≠ 0 then (vq.walk mem left desc.next).map (desc :: ·)
        else some [desc]

def popAvail (vq : Virtqueue) (mem : ByteStore) : Option (DescriptorChain × Virtqueue) :=
  if !vq.ready || !vq.hasMem then none
  else
    match vq.readU16 mem (vq.availRing + 2) with
    | none => none
    | some availIdx =>
      if availIdx = vq.lastAvailIdx then none
      else
        match vq.readU16 mem (vq.availRing + 4 + vq.lastAvailIdx % vq.size * 2) with
        | none => none
        | some headIdx =>
          (vq.walk mem vq.size headIdx).map fun descriptors =>
            (⟨headIdx, descriptors⟩, { vq with lastAvailIdx := (vq.lastAvailIdx + 1) % 2 ^ 16 })

def pushUsed (vq : Virtqueue) (mem : ByteStore) (descIndex bytesWritten : Nat) : ByteStore × Bool :=
  if !vq.ready || !vq.hasMem then (mem, false)
  else
    match vq.readU16 mem (vq.usedRing + 2) with
    | none => (mem, false)
    | some usedIdx =>
      let elemGpa := vq.usedRing + 4 + usedIdx % vq.size * 8
      match vq.writeU32 mem elemGpa descIndex with
      | none => (mem, false)
      | some mem =>
        match vq.writeU32 mem (elemGpa + 4) bytesWritten with
        | none => (mem, false)
        | some mem =>
          match vq.writeU16 mem (vq.usedRing + 2) ((usedIdx + 1) % 2 ^ 16) with
          | none => (mem, false)
          | some mem => (mem, true)

def needsNotification (vq : Virtqueue) (mem : ByteStore) : Bool :=
  if !vq.ready || !vq.hasMem then false
  else
    match vq.readU16 mem vq.availRing with
    | none => true
    | some flags => flags &&& 1 == 0

def writeDescriptorData (vq : Virtqueue) (desc : Descriptor) : Option Nat := vq.guestRange desc.addr desc.len

def readAvailIdx (vq : Virtqueue) (mem : ByteStore) : Nat :=
  match vq.gpaToOffset ((vq.availRing + 2) % 2 ^ 64) with
  | some offset => leNat (readBytes mem offset 2)
  | none => 0

def syncAvailFromGuest (vq : Virtqueue) (mem : ByteStore) : Virtqueue :=
  if !vq.hasMem || vq.availRing == 0 then vq else { vq with lastAvailIdx := vq.readAvailIdx mem }

theorem popAvail_cases {vq vq' : Virtqueue} {mem : ByteStore} {chain : DescriptorChain}
    (h : vq.popAvail mem = some (chain, vq')) :
    vq.ready = true ∧ vq.hasMem = true ∧
      (∃ availIdx, vq.readU16 mem (vq.availRing + 2) = some availIdx ∧ availIdx ≠ vq.lastAvailIdx) ∧
      vq.readU16 mem (vq.availRing + 4 + vq.lastAvailIdx % vq.size * 2) = some chain.index ∧
      vq.walk mem vq.size chain.index = some chain.descriptors ∧
      vq' = { vq with lastAvailIdx := (vq.lastAvailIdx + 1) % 2 ^ 16 } := by
  unfold popAvail at h
  split at h
  · cases h
  · rename_i hready
    rw [Bool.or_eq_true, not_or, Bool.not_eq_true', Bool.not_eq_true', Bool.not_eq_false,
      Bool.not_eq_false] at hready
    split at h
    · cases h
    · rename_i availIdx havail
      split at h
      · cases h
      · rename_i hne
        split at h
        · cases h
        · rename_i headIdx hhead
          obtain ⟨descriptors, hwalk, heq⟩ := Option.map_eq_some_iff.mp h
          cases heq
          exact ⟨hready.1, hready.2, ⟨availIdx, havail, hne⟩, hhead, hwalk, rfl⟩

end Virtqueue

end CloneVmm.Virtio
