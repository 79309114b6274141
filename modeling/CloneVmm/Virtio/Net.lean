import CloneVmm.Virtio.Features

/-!
`virtio/net.rs`: the frames that the guest transmits. Each comes in a chain of the transmit queue, behind a header of
twelve bytes that the chain may split anywhere.
-/

namespace CloneVmm.Virtio.Net

open CloneVmm.Lib

def rxQueue : Nat := 0
def txQueue : Nat := 1
def queueMaxSize : Nat := 256
def virtioNetHdrSize : Nat := 12

/-- The device without vhost-net. `frames` are those handed to the TAP so far. -/
structure VirtioNet where
  frames : List (List UInt8)

def readDescriptorData (vq : Virtqueue) (mem : ByteStore) (desc : Descriptor) : Option (List UInt8) :=
  vq.guestRead mem desc.addr desc.len

def readable (desc : Descriptor) : Bool := desc.flags &&& vringDescFWrite == 0

def gather (vq : Virtqueue) (mem : ByteStore) : List Descriptor → List UInt8 → Nat → List UInt8
  | [], frame, _ => frame
  | desc :: descs, frame, totalRead =>
    if readable desc then
      match readDescriptorData vq mem desc with
      | none => gather vq mem descs frame totalRead
      | some data =>
        let frame :=
          if totalRead < virtioNetHdrSize then
            let skip := virtioNetHdrSize - totalRead
            if skip < data.length then frame ++ data.drop skip else frame
          else frame ++ data
        gather vq mem descs frame (totalRead + data.length)
    else gather vq mem descs frame totalRead

def VirtioNet.writeTap (net : VirtioNet) (frame : List UInt8) : VirtioNet :=
  { net with frames := net.frames ++ [frame] }

def VirtioNet.processTxChain (net : VirtioNet) (vq : Virtqueue) (mem : ByteStore) (chain : DescriptorChain) :
    Nat × VirtioNet :=
  if chain.descriptors.isEmpty then (0, net)
  else
    let frame := gather vq mem chain.descriptors [] 0
    (0, if frame.isEmpty then net else net.writeTap frame)

def VirtioNet.processDescriptorChain (net : VirtioNet) (mem : ByteStore) (queueIdx : Nat) (chain : DescriptorChain)
    (vq : Virtqueue) : Nat × VirtioNet × ByteStore :=
  if queueIdx = txQueue then
    let (bytesWritten, net) := net.processTxChain vq mem chain
    (bytesWritten, net, mem)
  else (0, net, mem)

def device : VirtioDevice VirtioNet :=
  { VirtioDevice.inert VirtioNet with
    deviceType := 1
    queueMaxSizes := [queueMaxSize, queueMaxSize]
    processDescriptorChain := VirtioNet.processDescriptorChain
    transportProcessesQueue := fun _ queueIdx => queueIdx != rxQueue }

def contents (vq : Virtqueue) (mem : ByteStore) (descs : List Descriptor) : List UInt8 :=
  ((descs.filter readable).filterMap (readDescriptorData vq mem)).flatten

section Transmit

variable {vq : Virtqueue} {mem : ByteStore}

theorem contents_cons (desc : Descriptor) (descs : List Descriptor) :
    contents vq mem (desc :: descs) =
      if readable desc then (readDescriptorData vq mem desc).getD [] ++ contents vq mem descs
      else contents vq mem descs := by
  unfold contents
  by_cases hreadable : readable desc = true
  · rw [if_pos hreadable, List.filter_cons_of_pos hreadable]
    cases hdata : readDescriptorData vq mem desc with
    | none => rw [List.filterMap_cons_none hdata, Option.getD_none, List.nil_append]
    | some data => rw [List.filterMap_cons_some hdata, List.flatten_cons, Option.getD_some]
  · rw [if_neg hreadable, List.filter_cons_of_neg hreadable]

theorem gather_eq (descs : List Descriptor) (frame : List UInt8) (totalRead : Nat) :
    gather vq mem descs frame totalRead =
      frame ++ (contents vq mem descs).drop (virtioNetHdrSize - totalRead) := by
  induction descs generalizing frame totalRead with
  | nil =>
    rw [gather, contents, List.filter_nil, List.filterMap_nil, List.flatten_nil, List.drop_nil, List.append_nil]
  | cons desc descs ih =>
    rw [gather, contents_cons]
    by_cases hreadable : readable desc = true
    · rw [if_pos hreadable, if_pos hreadable]
      cases readDescriptorData vq mem desc with
      | none => exact ih frame totalRead
      | some data =>
        have hleft : virtioNetHdrSize - (totalRead + data.length) = virtioNetHdrSize - totalRead - data.length := by
          omega
        dsimp only
        rw [ih, hleft, Option.getD_some, List.drop_append, ← List.append_assoc]
        congr 1
        split
        · split
          · rfl
          · rename_i hshort
            rw [List.drop_eq_nil_of_le (by omega), List.append_nil]
        · rename_i hpast
          rw [show virtioNetHdrSize - totalRead = 0 by omega, List.drop_zero]
    · rw [if_neg hreadable, if_neg hreadable]
      exact ih frame totalRead

/-- The frame written to the TAP is the contents of the chain without the header, if there is anything behind it. -/
theorem processTxChain_frames (net : VirtioNet) (vq : Virtqueue) (mem : ByteStore) (chain : DescriptorChain) :
    (net.processTxChain vq mem chain).2.frames =
      net.frames ++ if virtioNetHdrSize < (contents vq mem chain.descriptors).length
        then [(contents vq mem chain.descriptors).drop virtioNetHdrSize] else [] := by
  have hframe : gather vq mem chain.descriptors [] 0 = (contents vq mem chain.descriptors).drop virtioNetHdrSize :=
    gather_eq _ _ _
  unfold VirtioNet.processTxChain
  rw [hframe]
  split
  · rename_i hempty
    rw [List.isEmpty_iff] at hempty
    rw [hempty]
    exact (List.append_nil net.frames).symm
  · dsimp only
    split
    · rename_i hnothing
      rw [List.isEmpty_iff, List.drop_eq_nil_iff] at hnothing
      rw [if_neg (by omega), List.append_nil]
    · rename_i hsome
      rw [List.isEmpty_iff, List.drop_eq_nil_iff] at hsome
      rw [if_pos (by omega)]
      rfl

end Transmit

end CloneVmm.Virtio.Net
