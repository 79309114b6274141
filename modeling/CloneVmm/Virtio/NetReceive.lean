import CloneVmm.Virtio.Net
import CloneVmm.Virtio.RawQueue

/-!
`process_rx_from_tap` of `virtio/net.rs`. It keeps no index of its own: `used.idx` is where it is in the available ring.
-/

namespace CloneVmm.Virtio.Net

open CloneVmm.Lib Raw

structure Frame where
  bytes : List UInt8
  pos : 0 < bytes.length
  le : bytes.length ≤ 65535

structure Filling where
  hdr : List UInt8
  frame : List UInt8
  written : UInt32

def Filling.start (frame : Frame) : Filling := ⟨List.replicate virtioNetHdrSize 0, frame.bytes, 0⟩

def fill : Visit Filling where
  needs desc p := if desc.flags &&& vringDescFWrite ≠ 0 then min (p.hdr.length + p.frame.length) desc.len else 0
  copy offset desc s :=
    if desc.flags &&& vringDescFWrite ≠ 0 then
      let pos := min s.2.hdr.length desc.len
      let mem := writeBytes s.1 offset (s.2.hdr.take pos)
      let hdr := s.2.hdr.drop pos
      if pos < desc.len ∧ s.2.frame ≠ [] then
        let n := min s.2.frame.length (desc.len - pos)
        (writeBytes mem (offset + pos) (s.2.frame.take n),
          ⟨hdr, s.2.frame.drop n, s.2.written + .ofNat (pos + n)⟩)
      else (mem, ⟨hdr, s.2.frame, s.2.written + .ofNat pos⟩)
    else s

def rxPopAvail (l : GuestLayout) (queueConfigs : List QueueInfo) (mem : ByteStore) :
    Except Raw.Fault (Option (QueueInfo × Nat × Nat)) :=
  match l.hasMem, queueConfigs[rxQueue]? with
  | true, some q =>
    if q.availAddr = 0 then .ok none
    else do
      let availIdx ← readAvailIdx l q mem
      let last ← readUsedIdx l q mem
      if availIdx = last then return none
      else
        let descIdx ← readAvailRingEntry l q mem last
        return some (q, descIdx, last)
  | _, _ => .ok none

def processRxFromTap (l : GuestLayout) (queueConfigs : List QueueInfo) (tap : Option Frame) (fuel : Nat)
    (mem : ByteStore) : Option (Except Raw.Fault (ByteStore × Bool)) :=
  match rxPopAvail l queueConfigs mem, tap with
  | .error fault, _ => some (.error fault)
  | .ok none, _ => some (.ok (mem, false))
  | .ok (some _), none => some (.ok (mem, false))
  | .ok (some (q, descIdx, usedIdx)), some frame =>
    match walk l q fill fuel descIdx (mem, .start frame) with
    | none => none
    | some (.error fault) => some (.error fault)
    | some (.ok (mem, filling)) =>
      some ((pushUsed l q mem usedIdx descIdx filling.written.toNat).map fun mem =>
        (mem, decide (0 < filling.written)))

variable {l : GuestLayout} {queueConfigs : List QueueInfo} {q : QueueInfo} {tap : Option Frame} {mem : ByteStore}

theorem rxPopAvail_eq_ok (hmem : l.hasMem = true) (hq : queueConfigs[rxQueue]? = some q) (haddr : q.availAddr ≠ 0)
    {r : Option (QueueInfo × Nat × Nat)} :
    rxPopAvail l queueConfigs mem = .ok r ↔ Inside l (availIdxPtr l q) 2 ∧ Inside l (usedIdxPtr l q) 2 ∧
      if availIdxOf l q mem = usedIdxOf l q mem then none = r
      else ∃ head, readAvailRingEntry l q mem (usedIdxOf l q mem) = .ok head ∧
        some (q, head, usedIdxOf l q mem) = r := by
  unfold rxPopAvail
  simp only [hmem, hq, if_neg haddr, exceptBind_eq_ok, readAvailIdx_eq_ok, readUsedIdx_eq_ok, and_assoc,
    exists_and_left, exists_eq_left']
  refine and_congr_right fun _ => and_congr_right fun _ => ?_
  by_cases hsame : availIdxOf l q mem = usedIdxOf l q mem
  · rw [if_pos hsame, if_pos hsame]
    simp [pure, Except.pure]
  · rw [if_neg hsame, if_neg hsame]
    simp [exceptBind_eq_ok, pure, Except.pure, usedIdxOf]

theorem processRxFromTap_eq_ok {fuel : Nat} {out : ByteStore × Bool} :
    processRxFromTap l queueConfigs tap fuel mem = some (.ok out) ↔
      ∃ popped, rxPopAvail l queueConfigs mem = .ok popped ∧
        ((popped = none ∨ tap = none) ∧ (mem, false) = out ∨
          ∃ q head usedIdx frame t mem', popped = some (q, head, usedIdx) ∧ tap = some frame ∧
            walk l q fill fuel head (mem, .start frame) = some (.ok t) ∧
            pushUsed l q t.1 usedIdx head t.2.written.toNat = .ok mem' ∧
            (mem', decide (0 < t.2.written)) = out) := by
  unfold processRxFromTap
  cases rxPopAvail l queueConfigs mem with
  | error fault => simp
  | ok popped =>
    rcases popped with - | ⟨q, head, usedIdx⟩
    · simp
    · cases tap with
      | none => simp
      | some frame =>
        dsimp only
        rcases hwalk : walk l q fill fuel head (mem, .start frame) with - | fault | ⟨mem₁, filling⟩
        · simp [hwalk]
        · simp [hwalk]
        · cases hpush : pushUsed l q mem₁ usedIdx head filling.written.toNat with
          | error fault => simp [Except.map, hwalk, hpush]
          | ok mem' => simp [Except.map, hwalk, hpush]

end CloneVmm.Virtio.Net
