import CloneVmm.Virtio.Mmio

namespace CloneVmm.Virtio

open CloneVmm.Lib

def word16 (mem : ByteStore) (off : Nat) : Nat := leNat (readBytes mem off 2)

def word32 (mem : ByteStore) (off : Nat) : Nat := leNat (readBytes mem off 4)

def Apart (off len off' len' : Nat) : Prop := off + len ≤ off' ∨ off' + len' ≤ off

def AgreeOn (off len : Nat) (mem mem' : ByteStore) : Prop := ∀ a, off ≤ a → a < off + len → mem' a = mem a

section Words

variable {mem mem' : ByteStore} {off off' len len' val : Nat}

theorem AgreeOn.readBytes_eq (h : AgreeOn off len mem mem') {i n : Nat} (hn : i + n ≤ len) :
    readBytes mem' (off + i) n = readBytes mem (off + i) n :=
  readBytes_congr fun a ha ha' => h a (by omega) (by omega)

theorem AgreeOn.word16_eq (h : AgreeOn off len mem mem') {i : Nat} (hi : i + 2 ≤ len) :
    word16 mem' (off + i) = word16 mem (off + i) := by
  rw [word16, word16, h.readBytes_eq hi]

theorem AgreeOn.word32_eq (h : AgreeOn off len mem mem') {i : Nat} (hi : i + 4 ≤ len) :
    word32 mem' (off + i) = word32 mem (off + i) := by
  rw [word32, word32, h.readBytes_eq hi]

theorem AgreeOn.trans {mem'' : ByteStore} (h : AgreeOn off len mem mem') (h' : AgreeOn off len mem' mem'') :
    AgreeOn off len mem mem'' :=
  fun a ha ha' => (h' a ha ha').trans (h a ha ha')

theorem AgreeOn.writeBytes {bs : List UInt8} (h : Apart off len off' bs.length) :
    AgreeOn off len mem (writeBytes mem off' bs) := by
  intro a ha ha'
  apply writeBytes_outside
  unfold Apart at h
  omega

theorem word16_writeBytes : word16 (writeBytes mem off (leBytes 2 val)) off = val % 2 ^ 16 := by
  have hread := readBytes_writeBytes mem off (leBytes 2 val)
  rw [leBytes_length] at hread
  rw [word16, hread, leNat_leBytes]
  rfl

theorem word32_writeBytes : word32 (writeBytes mem off (leBytes 4 val)) off = val % 2 ^ 32 := by
  have hread := readBytes_writeBytes mem off (leBytes 4 val)
  rw [leBytes_length] at hread
  rw [word32, hread, leNat_leBytes]
  rfl

theorem word16_apart {bs : List UInt8} (h : Apart off 2 off' bs.length) :
    word16 (writeBytes mem off' bs) off = word16 mem off := by
  rw [word16, word16, readBytes_writeBytes_disjoint _ _ _ _ _ h]

theorem word32_apart {bs : List UInt8} (h : Apart off 4 off' bs.length) :
    word32 (writeBytes mem off' bs) off = word32 mem off := by
  rw [word32, word32, readBytes_writeBytes_disjoint _ _ _ _ _ h]

theorem word16_lt : word16 mem off < 2 ^ 16 := by
  have hlt := leNat_lt (readBytes mem off 2)
  rwa [readBytes_length] at hlt

end Words

namespace Virtqueue

variable {vq : Virtqueue} {gpa len off : Nat} {mem mem' : ByteStore}

structure Mapped (vq : Virtqueue) (gpa len off : Nat) : Prop where
  hasMem : vq.hasMem = true
  gpa_le : gpa + len ≤ 2 ^ 64
  off_le : off + len ≤ vq.guestMemSize
  size_lt : vq.guestMemSize < 2 ^ 64
  offset : ∀ i < len, vq.gpaToOffset (gpa + i) = some (off + i)

theorem Mapped.withoutHole (hmem : vq.hasMem = true) (hhole : vq.holeStart = 0) (hsize : vq.guestMemSize < 2 ^ 64)
    (h : gpa + len ≤ vq.guestMemSize) : vq.Mapped gpa len gpa where
  hasMem := hmem
  gpa_le := by omega
  off_le := h
  size_lt := hsize
  offset := by
    intro i hi
    rw [gpaToOffset, if_pos hhole, if_neg (by omega)]

theorem Mapped.guestRange_eq (h : vq.Mapped gpa len off) {i n : Nat} (hpos : 0 < n) (hi : i + n ≤ len) :
    vq.guestRange ((gpa + i) % 2 ^ 64) n = some (off + i) := by
  have hgpa := h.gpa_le
  have hoff := h.off_le
  have hsize := h.size_lt
  rw [Nat.mod_eq_of_lt (by omega), guestRange, h.offset i (by omega)]
  have hbound : ¬ (vq.guestMemSize < (off + i + n) % 2 ^ 64 ∨ (!vq.hasMem) = true) := by
    rw [Nat.mod_eq_of_lt (by omega), h.hasMem]
    simp only [Bool.not_true, Bool.false_eq_true, or_false]
    omega
  simp only [if_neg hbound]

theorem Mapped.readU16_eq (h : vq.Mapped gpa len off) {i : Nat} (hi : i + 2 ≤ len) :
    vq.readU16 mem (gpa + i) = some (word16 mem (off + i)) := by
  rw [readU16, guestRead, h.guestRange_eq (by decide) hi]
  rfl

theorem Mapped.readU32_eq (h : vq.Mapped gpa len off) {i : Nat} (hi : i + 4 ≤ len) :
    vq.readU32 mem (gpa + i) = some (word32 mem (off + i)) := by
  rw [readU32, guestRead, h.guestRange_eq (by decide) hi]
  rfl

theorem Mapped.readU64_eq (h : vq.Mapped gpa len off) {i : Nat} (hi : i + 8 ≤ len) :
    vq.readU64 mem (gpa + i) = some (leNat (readBytes mem (off + i) 8)) := by
  rw [readU64, guestRead, h.guestRange_eq (by decide) hi]
  rfl

theorem Mapped.writeU16_eq (h : vq.Mapped gpa len off) {i val : Nat} (hi : i + 2 ≤ len) :
    vq.writeU16 mem (gpa + i) val = some (writeBytes mem (off + i) (leBytes 2 val)) := by
  rw [writeU16, h.guestRange_eq (by decide) hi]
  rfl

theorem Mapped.writeU32_eq (h : vq.Mapped gpa len off) {i val : Nat} (hi : i + 4 ≤ len) :
    vq.writeU32 mem (gpa + i) val = some (writeBytes mem (off + i) (leBytes 4 val)) := by
  rw [writeU32, h.guestRange_eq (by decide) hi]
  rfl

theorem readDescriptor_congr (h : vq.Mapped vq.descTable (16 * vq.size) off)
    (hagree : AgreeOn off (16 * vq.size) mem mem') {idx : Nat} (hidx : idx < vq.size) :
    vq.readDescriptor mem' idx = vq.readDescriptor mem idx := by
  simp only [readDescriptor, Nat.add_assoc]
  rw [h.readU64_eq (by omega), h.readU64_eq (by omega), h.readU32_eq (by omega), h.readU32_eq (by omega),
    h.readU16_eq (by omega), h.readU16_eq (by omega), h.readU16_eq (by omega), h.readU16_eq (by omega),
    hagree.readBytes_eq (by omega), hagree.word32_eq (by omega), hagree.word16_eq (by omega),
    hagree.word16_eq (by omega)]

theorem walk_congr (h : vq.Mapped vq.descTable (16 * vq.size) off)
    (hagree : AgreeOn off (16 * vq.size) mem mem') (left idx : Nat) :
    vq.walk mem' left idx = vq.walk mem left idx := by
  induction left generalizing idx with
  | zero => rfl
  | succ left ih =>
    unfold walk
    by_cases hidx : vq.size ≤ idx
    · rw [if_pos hidx, if_pos hidx]
    · rw [if_neg hidx, if_neg hidx, readDescriptor_congr h hagree (by omega)]
      simp only [ih]

theorem walk_lastAvailIdx (vq : Virtqueue) (n : Nat) (mem : ByteStore) (left idx : Nat) :
    Virtqueue.walk { vq with lastAvailIdx := n } mem left idx = vq.walk mem left idx := by
  induction left generalizing idx with
  | zero => rfl
  | succ left ih =>
    unfold walk
    simp only [ih]
    rfl

end Virtqueue

structure Rings (vq : Virtqueue) where
  desc : Nat
  avail : Nat
  used : Nat
  descMapped : vq.Mapped vq.descTable (16 * vq.size) desc
  availMapped : vq.Mapped vq.availRing (4 + 2 * vq.size) avail
  usedMapped : vq.Mapped vq.usedRing (4 + 8 * vq.size) used
  descAvail : Apart desc (16 * vq.size) avail (4 + 2 * vq.size)
  descUsed : Apart desc (16 * vq.size) used (4 + 8 * vq.size)
  availUsed : Apart avail (4 + 2 * vq.size) used (4 + 8 * vq.size)

namespace Rings

variable {vq : Virtqueue} (rings : Rings vq) {mem : ByteStore}

def availEntry (slot : Nat) : Nat := rings.avail + (4 + 2 * slot)

def usedEntry (slot : Nat) : Nat := rings.used + (4 + 8 * slot)

def pushed (mem : ByteStore) (idx id len : Nat) : ByteStore :=
  let entry := rings.usedEntry (idx % vq.size)
  writeBytes (writeBytes (writeBytes mem entry (leBytes 4 id)) (entry + 4) (leBytes 4 len)) (rings.used + 2)
    (leBytes 2 ((idx + 1) % 2 ^ 16))

theorem popAvail_none (h : word16 mem (rings.avail + 2) = vq.lastAvailIdx) : vq.popAvail mem = none := by
  unfold Virtqueue.popAvail
  rw [rings.availMapped.readU16_eq (by omega), h]
  simp

theorem popAvail_some (hready : vq.ready = true) (hsize : 0 < vq.size)
    (hne : word16 mem (rings.avail + 2) ≠ vq.lastAvailIdx) {descs : List Descriptor}
    (hwalk : vq.walk mem vq.size (word16 mem (rings.availEntry (vq.lastAvailIdx % vq.size))) = some descs) :
    vq.popAvail mem = some
      (⟨word16 mem (rings.availEntry (vq.lastAvailIdx % vq.size)), descs⟩,
        { vq with lastAvailIdx := (vq.lastAvailIdx + 1) % 2 ^ 16 }) := by
  have hslot := Nat.mod_lt vq.lastAvailIdx hsize
  have hentry : vq.readU16 mem (vq.availRing + 4 + vq.lastAvailIdx % vq.size * 2) =
      some (word16 mem (rings.availEntry (vq.lastAvailIdx % vq.size))) := by
    rw [Nat.add_assoc, Nat.mul_comm, rings.availMapped.readU16_eq (by omega)]
    rfl
  have hbusy : ¬ ((!vq.ready || !vq.hasMem) = true) := by simp [hready, rings.availMapped.hasMem]
  unfold Virtqueue.popAvail
  rw [if_neg hbusy, rings.availMapped.readU16_eq (by omega)]
  dsimp only
  rw [if_neg hne, hentry]
  dsimp only
  rw [hwalk]
  rfl

theorem pushUsed_eq (hready : vq.ready = true) (hsize : 0 < vq.size) (id len : Nat) :
    vq.pushUsed mem id len = (rings.pushed mem (word16 mem (rings.used + 2)) id len, true) := by
  have hbusy : ¬ ((!vq.ready || !vq.hasMem) = true) := by simp [hready, rings.usedMapped.hasMem]
  unfold Virtqueue.pushUsed
  rw [if_neg hbusy, rings.usedMapped.readU16_eq (by omega)]
  generalize word16 mem (rings.used + 2) = idx
  have hslot := Nat.mod_lt idx hsize
  dsimp only
  rw [Nat.add_assoc vq.usedRing 4, Nat.mul_comm (idx % vq.size) 8, rings.usedMapped.writeU32_eq (by omega)]
  dsimp only
  rw [Nat.add_assoc vq.usedRing, rings.usedMapped.writeU32_eq (by omega)]
  dsimp only
  rw [rings.usedMapped.writeU16_eq (by omega)]
  rfl

theorem pushed_agree (hsize : 0 < vq.size) {off len idx : Nat}
    (h : Apart off len rings.used (4 + 8 * vq.size)) (id n : Nat) :
    AgreeOn off len mem (rings.pushed mem idx id n) := by
  have hslot := Nat.mod_lt idx hsize
  unfold Apart at h
  have happart {off' : Nat} {bs : List UInt8} (hlo : rings.used ≤ off')
      (hhi : off' + bs.length ≤ rings.used + (4 + 8 * vq.size)) : Apart off len off' bs.length := by
    unfold Apart
    omega
  have hentry : rings.usedEntry (idx % vq.size) = rings.used + (4 + 8 * (idx % vq.size)) := rfl
  unfold pushed
  refine ((AgreeOn.writeBytes ?_).trans (AgreeOn.writeBytes ?_)).trans (AgreeOn.writeBytes ?_)
  all_goals
    apply happart
    · omega
    · rw [leBytes_length]
      omega

theorem pushed_idx {idx : Nat} (id n : Nat) :
    word16 (rings.pushed mem idx id n) (rings.used + 2) = (idx + 1) % 2 ^ 16 := by
  rw [pushed, word16_writeBytes, Nat.mod_mod]

theorem pushed_entry (mem : ByteStore) (idx id n : Nat) :
    word32 (rings.pushed mem idx id n) (rings.usedEntry (idx % vq.size)) = id % 2 ^ 32 ∧
      word32 (rings.pushed mem idx id n) (rings.usedEntry (idx % vq.size) + 4) = n % 2 ^ 32 := by
  have hentry : rings.usedEntry (idx % vq.size) = rings.used + (4 + 8 * (idx % vq.size)) := rfl
  unfold pushed
  constructor
  · rw [word32_apart, word32_apart, word32_writeBytes]
    all_goals
      rw [Apart, leBytes_length]
      omega
  · rw [word32_apart, word32_writeBytes]
    rw [Apart, leBytes_length]
    omega

theorem pushed_entry_ne (mem : ByteStore) {idx slot : Nat} (hslot : slot ≠ idx % vq.size) (id n : Nat) :
    AgreeOn (rings.usedEntry slot) 8 mem (rings.pushed mem idx id n) := by
  unfold pushed
  refine ((AgreeOn.writeBytes ?_).trans (AgreeOn.writeBytes ?_)).trans (AgreeOn.writeBytes ?_)
  all_goals
    simp only [Apart, usedEntry, leBytes_length]
    omega

end Rings

end CloneVmm.Virtio
