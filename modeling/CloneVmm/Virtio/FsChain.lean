import CloneVmm.Lib.Writes
import CloneVmm.Virtio.Fs
import CloneVmm.Virtio.Queue

/-!
`virtio/fs.rs`: the request is gathered from the readable descriptors of a chain, and the response is spread over the
writable ones.
-/

namespace CloneVmm.Virtio.VirtioFs

open CloneVmm.Lib

/-- `filled` are the writes to guest memory so far, each with its descriptor, and `written` their length. -/
structure Spread where
  mem : ByteStore
  filled : List (Descriptor × Write)
  written : Nat

def gatherRequest (vq : Virtqueue) (mem : ByteStore) (descs : List Descriptor) : Bytes :=
  (descs.filter fun desc => desc.flags &&& vringDescFWrite = 0).flatMap fun desc =>
    (vq.guestRead mem desc.addr desc.len).getD []

def Spread.copy (s : Spread) (response : Bytes) (desc : Descriptor) (offset : Nat) : Spread :=
  let bytes := (response.drop s.written).take desc.len
  ⟨writeBytes s.mem offset bytes, s.filled ++ [(desc, ⟨offset, bytes⟩)], s.written + bytes.length⟩

def spreadResponse (vq : Virtqueue) (response : Bytes) : List Descriptor → Spread → Spread
  | [], s => s
  | desc :: descs, s =>
    if desc.flags &&& vringDescFWrite = 0 then spreadResponse vq response descs s
    else if response.length ≤ s.written then s
    else
      match vq.writeDescriptorData desc with
      | none => spreadResponse vq response descs s
      | some offset => spreadResponse vq response descs (s.copy response desc offset)

/-- `process_descriptor_chain`: the device, what was written, and the length that is returned. A handler that panics has
written nothing. -/
def processDescriptorChain (host : Host) (fs : VirtioFs) (mem : ByteStore) (chain : DescriptorChain) (vq : Virtqueue) :
    VirtioFs × Spread × Nat :=
  let request := gatherRequest vq mem chain.descriptors
  if request = [] then (fs, ⟨mem, [], 0⟩, 0)
  else
    let outcome := handleFuseRequest host request fs
    let response := outcome.1.getD []
    if response = [] then (outcome.2, ⟨mem, [], 0⟩, 0)
    else
      let spread := spreadResponse vq response chain.descriptors ⟨mem, [], 0⟩
      (outcome.2, spread, spread.written % 2 ^ 32)

end CloneVmm.Virtio.VirtioFs
