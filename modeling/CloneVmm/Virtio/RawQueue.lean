import CloneVmm.Lib.Loop
import CloneVmm.Lib.Prog
import CloneVmm.Virtio.Mmio
import Mathlib.Tactic.Ring

namespace CloneVmm.Virtio.Raw

open CloneVmm.Lib

inductive Fault
  | zeroSize
  | outside (offset len : Nat)
  | noQueue

def gpaToPtr (l : GuestLayout) (gpa : Nat) : Nat :=
  if 0 < l.holeStart ∧ l.holeEnd ≤ gpa then (l.holeStart + (gpa - l.holeEnd)) % 2 ^ 64 else gpa

def Inside (l : GuestLayout) (offset len : Nat) : Prop := len = 0 ∨ offset + len ≤ l.guestMemSize

instance (l : GuestLayout) (offset len : Nat) : Decidable (Inside l offset len) := inferInstanceAs (Decidable (_ ∨ _))

def load (l : GuestLayout) (mem : ByteStore) (offset len : Nat) : Except Fault (List UInt8) :=
  if Inside l offset len then .ok (readBytes mem offset len) else .error (.outside offset len)

def store (l : GuestLayout) (mem : ByteStore) (offset : Nat) (data : List UInt8) : Except Fault ByteStore :=
  if Inside l offset data.length then .ok (writeBytes mem offset data) else .error (.outside offset data.length)

section Rings

variable (l : GuestLayout) (q : QueueInfo) (mem : ByteStore)

def availIdxPtr : Nat := gpaToPtr l ((q.availAddr + 2) % 2 ^ 64)

def availEntryPtr (slot : Nat) : Nat := gpaToPtr l ((q.availAddr + (4 + slot * 2)) % 2 ^ 64)

def descPtr (idx : Nat) : Nat := gpaToPtr l ((q.descAddr + idx * 16) % 2 ^ 64)

def usedEntryPtr (slot : Nat) : Nat := gpaToPtr l ((q.usedAddr + (4 + slot * 8)) % 2 ^ 64)

def usedIdxPtr : Nat := gpaToPtr l ((q.usedAddr + 2) % 2 ^ 64)

def slotOf (idx : Nat) : Except Fault Nat := if q.size = 0 then .error .zeroSize else .ok (idx % q.size)

def readAvailIdx : Except Fault Nat := return leNat (← load l mem (availIdxPtr l q) 2)

def readUsedIdx : Except Fault Nat := return leNat (← load l mem (usedIdxPtr l q) 2)

def readAvailRingEntry (idx : Nat) : Except Fault Nat := do
  let slot ← slotOf q idx
  return leNat (← load l mem (availEntryPtr l q slot) 2)

def readDescriptor (idx : Nat) : Except Fault Descriptor := do
  let ptr := descPtr l q idx
  let addr ← load l mem ptr 8
  let len ← load l mem (ptr + 8) 4
  let flags ← load l mem (ptr + 12) 2
  let next ← load l mem (ptr + 14) 2
  return ⟨leNat addr, leNat len, leNat flags, leNat next⟩

def writeUsedEntry (usedIdx descIdx len : Nat) : Except Fault ByteStore := do
  let slot ← slotOf q usedIdx
  let mem ← store l mem (usedEntryPtr l q slot) (leBytes 4 descIdx)
  store l mem (usedEntryPtr l q slot + 4) (leBytes 4 len)

def writeUsedIdx (idx : Nat) : Except Fault ByteStore := store l mem (usedIdxPtr l q) (leBytes 2 idx)

def pushUsed (usedIdx descIdx len : Nat) : Except Fault ByteStore := do
  let mem ← writeUsedEntry l q mem usedIdx descIdx len
  writeUsedIdx l q mem ((usedIdx + 1) % 2 ^ 16)

end Rings

structure Visit (τ : Type) where
  needs : Descriptor → τ → Nat
  copy : Nat → Descriptor → ByteStore × τ → ByteStore × τ

section Walk

variable {τ : Type} (l : GuestLayout) (q : QueueInfo) (v : Visit τ)

def walk : Nat → Nat → ByteStore × τ → Option (Except Fault (ByteStore × τ))
  | 0, _, _ => none
  | fuel + 1, idx, s =>
    match readDescriptor l q s.1 idx with
    | .error fault => some (.error fault)
    | .ok desc =>
      let offset := gpaToPtr l desc.addr
      if Inside l offset (v.needs desc s.2) then
        let s := v.copy offset desc s
        if desc.flags &&& vringDescFNext ≠ 0 then walk fuel desc.next s else some (.ok s)
      else some (.error (.outside offset (v.needs desc s.2)))

def descriptorAt (mem : ByteStore) (idx : Nat) : Descriptor :=
  let ptr := descPtr l q idx
  ⟨leNat (readBytes mem ptr 8), leNat (readBytes mem (ptr + 8) 4), leNat (readBytes mem (ptr + 12) 2),
    leNat (readBytes mem (ptr + 14) 2)⟩

structure DescriptorIn (idx : Nat) (s : ByteStore × τ) : Prop where
  entry : Inside l (descPtr l q idx) 16
  buffer : Inside l (gpaToPtr l (descriptorAt l q s.1 idx).addr) (v.needs (descriptorAt l q s.1 idx) s.2)

def visited (idx : Nat) (s : ByteStore × τ) : ByteStore × τ :=
  v.copy (gpaToPtr l (descriptorAt l q s.1 idx).addr) (descriptorAt l q s.1 idx) s

def descriptors : Nat → Nat → ByteStore × τ → List Descriptor
  | 0, _, _ => []
  | fuel + 1, idx, s =>
    let desc := descriptorAt l q s.1 idx
    desc :: if desc.flags &&& vringDescFNext ≠ 0 then descriptors fuel desc.next (visited l q v idx s) else []

def room (descs : List Descriptor) : Nat :=
  (descs.map fun desc => if desc.flags &&& vringDescFWrite ≠ 0 then desc.len else 0).sum

inductive ChainIn : Nat → ByteStore × τ → Prop
  | last {idx : Nat} {s : ByteStore × τ} (hin : DescriptorIn l q v idx s)
      (hlast : (descriptorAt l q s.1 idx).flags &&& vringDescFNext = 0) : ChainIn idx s
  | next {idx : Nat} {s : ByteStore × τ} (hin : DescriptorIn l q v idx s)
      (hnext : (descriptorAt l q s.1 idx).flags &&& vringDescFNext ≠ 0)
      (rest : ChainIn (descriptorAt l q s.1 idx).next (visited l q v idx s)) : ChainIn idx s

end Walk

section Accessors

variable {l : GuestLayout} {q : QueueInfo} {mem mem' : ByteStore} {offset len idx usedIdx : Nat}

theorem load_eq_ok {bytes : List UInt8} :
    load l mem offset len = .ok bytes ↔ Inside l offset len ∧ readBytes mem offset len = bytes := by
  unfold load
  by_cases hin : Inside l offset len
  · simp [hin]
  · simp [hin]

theorem store_eq_ok {data : List UInt8} :
    store l mem offset data = .ok mem' ↔ Inside l offset data.length ∧ writeBytes mem offset data = mem' := by
  unfold store
  by_cases hin : Inside l offset data.length
  · simp [hin]
  · simp [hin]

theorem slotOf_eq_ok {slot : Nat} : slotOf q idx = .ok slot ↔ q.size ≠ 0 ∧ idx % q.size = slot := by
  unfold slotOf
  by_cases hzero : q.size = 0
  · simp [hzero]
  · simp [hzero]

def availIdxOf (l : GuestLayout) (q : QueueInfo) (mem : ByteStore) : Nat := leNat (readBytes mem (availIdxPtr l q) 2)

def usedIdxOf (l : GuestLayout) (q : QueueInfo) (mem : ByteStore) : Nat := leNat (readBytes mem (usedIdxPtr l q) 2)

def entryOf (l : GuestLayout) (q : QueueInfo) (mem : ByteStore) (idx : Nat) : Nat :=
  leNat (readBytes mem (availEntryPtr l q (idx % q.size)) 2)

theorem readAvailIdx_eq_ok {i : Nat} :
    readAvailIdx l q mem = .ok i ↔ Inside l (availIdxPtr l q) 2 ∧ availIdxOf l q mem = i := by
  simp [readAvailIdx, exceptBind_eq_ok, load_eq_ok, pure, Except.pure, availIdxOf]

theorem readUsedIdx_eq_ok {i : Nat} :
    readUsedIdx l q mem = .ok i ↔ Inside l (usedIdxPtr l q) 2 ∧ usedIdxOf l q mem = i := by
  simp [readUsedIdx, exceptBind_eq_ok, load_eq_ok, pure, Except.pure, usedIdxOf]

theorem readAvailRingEntry_eq_ok {head : Nat} :
    readAvailRingEntry l q mem idx = .ok head ↔
      (q.size ≠ 0 ∧ Inside l (availEntryPtr l q (idx % q.size)) 2) ∧ entryOf l q mem idx = head := by
  simp [readAvailRingEntry, exceptBind_eq_ok, load_eq_ok, slotOf_eq_ok, pure, Except.pure, and_assoc, entryOf]

theorem availIdxOf_lt : availIdxOf l q mem < 2 ^ 16 := by
  have hlt := leNat_lt (readBytes mem (availIdxPtr l q) 2)
  rwa [readBytes_length] at hlt

theorem inside_descriptor (ptr : Nat) :
    Inside l ptr 8 ∧ Inside l (ptr + 8) 4 ∧ Inside l (ptr + 12) 2 ∧ Inside l (ptr + 14) 2 ↔ Inside l ptr 16 := by
  unfold Inside
  omega

theorem readDescriptor_eq_ok {desc : Descriptor} :
    readDescriptor l q mem idx = .ok desc ↔ Inside l (descPtr l q idx) 16 ∧ descriptorAt l q mem idx = desc := by
  rw [← inside_descriptor]
  simp [readDescriptor, exceptBind_eq_ok, load_eq_ok, descriptorAt, pure, Except.pure, and_assoc]

def pushed (l : GuestLayout) (q : QueueInfo) (mem : ByteStore) (usedIdx descIdx len : Nat) : ByteStore :=
  let entry := usedEntryPtr l q (usedIdx % q.size)
  writeBytes (writeBytes (writeBytes mem entry (leBytes 4 descIdx)) (entry + 4) (leBytes 4 len)) (usedIdxPtr l q)
    (leBytes 2 ((usedIdx + 1) % 2 ^ 16))

structure UsedIn (l : GuestLayout) (q : QueueInfo) (usedIdx : Nat) : Prop where
  size : q.size ≠ 0
  entry : Inside l (usedEntryPtr l q (usedIdx % q.size)) 8
  idx : Inside l (usedIdxPtr l q) 2

theorem inside_entry (ptr : Nat) : Inside l ptr 4 ∧ Inside l (ptr + 4) 4 ↔ Inside l ptr 8 := by
  unfold Inside
  omega

theorem pushUsed_eq_ok {descIdx : Nat} :
    pushUsed l q mem usedIdx descIdx len = .ok mem' ↔
      UsedIn l q usedIdx ∧ pushed l q mem usedIdx descIdx len = mem' := by
  have hin : UsedIn l q usedIdx ↔ q.size ≠ 0 ∧ Inside l (usedEntryPtr l q (usedIdx % q.size)) 8 ∧
      Inside l (usedIdxPtr l q) 2 := ⟨fun h => ⟨h.1, h.2, h.3⟩, fun h => ⟨h.1, h.2.1, h.2.2⟩⟩
  rw [hin, ← inside_entry]
  simp [pushUsed, writeUsedEntry, writeUsedIdx, exceptBind_eq_ok, store_eq_ok, slotOf_eq_ok, leBytes_length, pushed,
    and_assoc]

end Accessors

section Walk

variable {τ : Type} {l : GuestLayout} {q : QueueInfo} {v : Visit τ} {idx fuel : Nat} {s t : ByteStore × τ}

theorem walk_steady {r : Except Fault (ByteStore × τ)} {k : Nat} (h : walk l q v fuel idx s = some r) (hle : fuel ≤ k) :
    walk l q v k idx s = some r := by
  induction fuel generalizing idx s k with
  | zero => cases h
  | succ fuel ih =>
    obtain ⟨k, rfl⟩ := Nat.exists_eq_add_of_lt hle
    rw [walk] at h ⊢
    cases hread : readDescriptor l q s.1 idx with
    | error fault =>
      rw [hread] at h
      exact h
    | ok desc =>
      rw [hread] at h
      dsimp only at h ⊢
      by_cases hin : Inside l (gpaToPtr l desc.addr) (v.needs desc s.2)
      · rw [if_pos hin] at h ⊢
        split
        · rename_i hnext
          rw [if_pos hnext] at h
          exact ih h (Nat.le_add_right fuel k)
        · rename_i hlast
          rwa [if_neg hlast] at h
      · rwa [if_neg hin] at h ⊢

theorem walk_eq_ok : walk l q v (fuel + 1) idx s = some (.ok t) ↔
    DescriptorIn l q v idx s ∧
      if (descriptorAt l q s.1 idx).flags &&& vringDescFNext ≠ 0
        then walk l q v fuel (descriptorAt l q s.1 idx).next (visited l q v idx s) = some (.ok t)
        else visited l q v idx s = t := by
  have hread : ∀ desc, readDescriptor l q s.1 idx = .ok desc ↔ _ := fun _ => readDescriptor_eq_ok
  rw [walk]
  cases hresult : readDescriptor l q s.1 idx with
  | error fault =>
    have hout : ¬ Inside l (descPtr l q idx) 16 := by
      intro hin
      have hok := (hread _).mpr ⟨hin, rfl⟩
      rw [hresult] at hok
      cases hok
    simp only [Option.some.injEq, reduceCtorEq, false_iff, not_and]
    exact fun hin => absurd hin.entry hout
  | ok desc =>
    obtain ⟨hentry, rfl⟩ := (hread desc).mp hresult
    dsimp only
    by_cases hin : Inside l (gpaToPtr l (descriptorAt l q s.1 idx).addr) (v.needs (descriptorAt l q s.1 idx) s.2)
    · rw [if_pos hin, and_iff_right ⟨hentry, hin⟩]
      by_cases hnext : (descriptorAt l q s.1 idx).flags &&& vringDescFNext ≠ 0
      · rw [if_pos hnext, if_pos hnext]
        rfl
      · rw [if_neg hnext, if_neg hnext, Option.some.injEq, Except.ok.injEq]
        rfl
    · rw [if_neg hin]
      simp only [Option.some.injEq, reduceCtorEq, false_iff, not_and]
      exact fun h => absurd h.buffer hin

theorem walk_eq_foldl (h : walk l q v fuel idx s = some (.ok t)) :
    t = (descriptors l q v fuel idx s).foldl (fun s desc => v.copy (gpaToPtr l desc.addr) desc s) s := by
  induction fuel generalizing idx s with
  | zero => cases h
  | succ fuel ih =>
    obtain ⟨-, hrest⟩ := walk_eq_ok.mp h
    rw [descriptors]
    split at hrest
    · rename_i hnext
      rw [if_pos hnext]
      exact ih hrest
    · rename_i hlast
      rw [if_neg hlast]
      exact hrest.symm

theorem walk_completes_iff : (∃ fuel t, walk l q v fuel idx s = some (.ok t)) ↔ ChainIn l q v idx s := by
  constructor
  · rintro ⟨fuel, t, h⟩
    induction fuel generalizing idx s with
    | zero => cases h
    | succ fuel ih =>
      obtain ⟨hin, hrest⟩ := walk_eq_ok.mp h
      split at hrest
      · rename_i hnext
        exact .next hin hnext (ih hrest)
      · rename_i hlast
        exact .last hin (not_not.mp hlast)
  · intro h
    induction h with
    | @last idx s hin hlast =>
      refine ⟨1, visited l q v idx s, walk_eq_ok.mpr ⟨hin, ?_⟩⟩
      rw [if_neg (not_not.mpr hlast)]
    | @next idx s hin hnext _ ih =>
      obtain ⟨fuel, t, hrest⟩ := ih
      refine ⟨fuel + 1, t, walk_eq_ok.mpr ⟨hin, ?_⟩⟩
      rw [if_pos hnext]
      exact hrest

end Walk

end CloneVmm.Virtio.Raw
