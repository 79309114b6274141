import CloneVmm.Virtio.QueueSize
import CloneVmm.Virtio.Rings

namespace CloneVmm.Virtio

open CloneVmm.Lib

variable {δ : Type} {vq : Virtqueue}

theorem mod_ne_of_lt {p n size : Nat} (h : p < n) (h' : n < p + size) : p % size ≠ n % size := by
  intro heq
  have hdvd : size ∣ n - p := Nat.dvd_of_mod_eq_zero (Nat.sub_mod_eq_zero_of_mod_eq heq.symm)
  have hle := Nat.le_of_dvd (by omega) hdvd
  omega

namespace Rings

def resume (rings : Rings vq) (n : Nat) : Rings { vq with lastAvailIdx := n } where
  desc := rings.desc
  avail := rings.avail
  used := rings.used
  descMapped := ⟨rings.descMapped.1, rings.descMapped.2, rings.descMapped.3, rings.descMapped.4, rings.descMapped.5⟩
  availMapped :=
    ⟨rings.availMapped.1, rings.availMapped.2, rings.availMapped.3, rings.availMapped.4, rings.availMapped.5⟩
  usedMapped := ⟨rings.usedMapped.1, rings.usedMapped.2, rings.usedMapped.3, rings.usedMapped.4, rings.usedMapped.5⟩
  descAvail := rings.descAvail
  descUsed := rings.descUsed
  availUsed := rings.availUsed

def Holds (rings : Rings vq) (a : Nat) : Prop :=
  rings.desc ≤ a ∧ a < rings.desc + 16 * vq.size ∨ rings.avail ≤ a ∧ a < rings.avail + (4 + 2 * vq.size) ∨
    rings.used ≤ a ∧ a < rings.used + (4 + 8 * vq.size)

def BuffersApart (rings : Rings vq) (descs : List Descriptor) : Prop :=
  ∀ desc ∈ descs, desc.flags &&& vringDescFWrite ≠ 0 → ∀ off, vq.writeDescriptorData desc = some off →
    ∀ a, off ≤ a → a < off + desc.len → ¬ rings.Holds a

def ValidChain (rings : Rings vq) (mem : ByteStore) (head : Nat) : Prop :=
  ∃ descs, vq.walk mem vq.size head = some descs ∧ rings.BuffersApart descs

def publish (rings : Rings vq) (mem : ByteStore) (head : Nat) : ByteStore :=
  let idx := word16 mem (rings.avail + 2)
  writeBytes (writeBytes mem (rings.availEntry (idx % vq.size)) (leBytes 2 head)) (rings.avail + 2)
    (leBytes 2 ((idx + 1) % 2 ^ 16))

end Rings

def KeepsRings (ops : VirtioDevice δ) (queueIdx : Nat) (rings : Rings vq) : Prop :=
  ∀ device mem chain n, rings.BuffersApart chain.descriptors → ∀ a, rings.Holds a →
    (ops.processDescriptorChain device mem queueIdx chain { vq with lastAvailIdx := n }).2.2 a = mem a

/-- The driver's and the transport's side of one queue. `published` lists the heads that the driver
has made available, `popped` those that the loop has popped, with the bytes the device has written. -/
structure RingState (δ : Type) where
  device : δ
  vq : Virtqueue
  mem : ByteStore
  published : List Nat
  popped : List (Nat × Nat)

inductive RingAction
  | prepare
  | publish (head : Nat)
  | iterate

def RingState.iterate (ops : VirtioDevice δ) (queueIdx : Nat) (s : RingState δ) (chain : DescriptorChain)
    (vq : Virtqueue) : RingState δ :=
  let (bytesWritten, device, mem) := ops.processDescriptorChain s.device s.mem queueIdx chain vq
  { s with
    device, vq
    mem := (vq.pushUsed mem chain.index bytesWritten).1
    popped := s.popped ++ [(chain.index, bytesWritten)] }

inductive RingStep (ops : VirtioDevice δ) (queueIdx : Nat) (rings : Rings vq) :
    RingState δ → RingAction → RingState δ → Prop
  | prepare {s : RingState δ} {mem : ByteStore} :
      AgreeOn (rings.avail + 2) (2 + 2 * vq.size) s.mem mem → AgreeOn rings.used (4 + 8 * vq.size) s.mem mem →
      (∀ head ∈ s.published.drop s.popped.length, rings.ValidChain mem head) →
      RingStep ops queueIdx rings s .prepare { s with mem }
  | publish {s : RingState δ} {head : Nat} :
      s.published.length < s.popped.length + vq.size → head < 2 ^ 16 → rings.ValidChain s.mem head →
      RingStep ops queueIdx rings s (.publish head)
        { s with mem := rings.publish s.mem head, published := s.published ++ [head] }
  | iterate {s : RingState δ} {chain : DescriptorChain} {next : Virtqueue} :
      s.vq.popAvail s.mem = some (chain, next) →
      RingStep ops queueIdx rings s .iterate (s.iterate ops queueIdx chain next)

structure RingStart (rings : Rings vq) (s : RingState δ) : Prop where
  vq_eq : s.vq = vq
  popped : s.popped = []
  bound : s.published.length ≤ vq.size
  heads_lt : ∀ head ∈ s.published, head < 2 ^ 16
  availIdx : word16 s.mem (rings.avail + 2) = (vq.lastAvailIdx + s.published.length) % 2 ^ 16
  entries : ∀ p (hp : p < s.published.length),
    word16 s.mem (rings.availEntry ((vq.lastAvailIdx + p) % 2 ^ 16 % vq.size)) = s.published[p]
  valid : ∀ head ∈ s.published, rings.ValidChain s.mem head

structure Lossless (rings : Rings vq) (start : Nat) (s : RingState δ) : Prop where
  heads : s.popped.map Prod.fst = s.published.take s.popped.length
  usedIdx : word16 s.mem (rings.used + 2) = (start + s.popped.length) % 2 ^ 16
  used : ∀ k (hk : k < s.popped.length), s.popped.length ≤ k + vq.size →
    word32 s.mem (rings.usedEntry ((start + k) % 2 ^ 16 % vq.size)) = s.popped[k].1 ∧
      word32 s.mem (rings.usedEntry ((start + k) % 2 ^ 16 % vq.size) + 4) = s.popped[k].2 % 2 ^ 32

/-- A queue that the driver has made ready. Its size and its index are of type `u16`. -/
structure QueueReady (vq : Virtqueue) : Prop where
  ready : vq.ready = true
  pos : 0 < vq.size
  lt : vq.size < 2 ^ 16
  idx_lt : vq.lastAvailIdx < 2 ^ 16

structure QueueOk (vq : Virtqueue) : Prop extends QueueReady vq where
  dvd : vq.size ∣ 2 ^ 16

structure RingInv (rings : Rings vq) (avail used : Nat) (s : RingState δ) : Prop where
  vq_eq : s.vq = { vq with lastAvailIdx := (avail + s.popped.length) % 2 ^ 16 }
  heads : s.popped.map Prod.fst = s.published.take s.popped.length
  bound : s.published.length ≤ s.popped.length + vq.size
  heads_lt : ∀ head ∈ s.published, head < 2 ^ 16
  availIdx : word16 s.mem (rings.avail + 2) = (avail + s.published.length) % 2 ^ 16
  entries : ∀ p (hp : p < s.published.length), s.popped.length ≤ p →
    word16 s.mem (rings.availEntry ((avail + p) % vq.size)) = s.published[p]
  valid : ∀ head ∈ s.published.drop s.popped.length, rings.ValidChain s.mem head
  usedIdx : word16 s.mem (rings.used + 2) = (used + s.popped.length) % 2 ^ 16
  elems : ∀ k (hk : k < s.popped.length), s.popped.length ≤ k + vq.size →
    word32 s.mem (rings.usedEntry ((used + k) % vq.size)) = s.popped[k].1 ∧
      word32 s.mem (rings.usedEntry ((used + k) % vq.size) + 4) = s.popped[k].2 % 2 ^ 32

namespace RingInv

variable {rings : Rings vq} {avail used : Nat} {s s' : RingState δ} {mem : ByteStore}

theorem popped_le (h : RingInv rings avail used s) : s.popped.length ≤ s.published.length := by
  have hlen := congrArg List.length h.heads
  rw [List.length_map, List.length_take] at hlen
  omega

theorem availEntry_eq (hpos : 0 < vq.size) (hagree : AgreeOn (rings.avail + 2) (2 + 2 * vq.size) s.mem mem)
    (p : Nat) :
    word16 mem (rings.availEntry (p % vq.size)) = word16 s.mem (rings.availEntry (p % vq.size)) := by
  have hslot := Nat.mod_lt p hpos
  have hentry : rings.availEntry (p % vq.size) = rings.avail + 2 + (2 + 2 * (p % vq.size)) := by
    unfold Rings.availEntry
    omega
  rw [hentry]
  exact hagree.word16_eq (by omega)

theorem usedEntry_eq (hpos : 0 < vq.size) (hagree : AgreeOn rings.used (4 + 8 * vq.size) s.mem mem) (k : Nat) :
    word32 mem (rings.usedEntry (k % vq.size)) = word32 s.mem (rings.usedEntry (k % vq.size)) ∧
      word32 mem (rings.usedEntry (k % vq.size) + 4) = word32 s.mem (rings.usedEntry (k % vq.size) + 4) := by
  have hslot := Nat.mod_lt k hpos
  unfold Rings.usedEntry
  constructor
  · exact hagree.word32_eq (by omega)
  · rw [Nat.add_assoc]
    exact hagree.word32_eq (by omega)

theorem frame (h : RingInv rings avail used s) (hpos : 0 < vq.size)
    (havail : AgreeOn (rings.avail + 2) (2 + 2 * vq.size) s.mem mem)
    (hused : AgreeOn rings.used (4 + 8 * vq.size) s.mem mem)
    (hvalid : ∀ head ∈ s.published.drop s.popped.length, rings.ValidChain mem head) :
    RingInv rings avail used { s with mem } where
  vq_eq := h.vq_eq
  heads := h.heads
  bound := h.bound
  heads_lt := h.heads_lt
  availIdx := (havail.word16_eq (i := 0) (by omega)).trans h.availIdx
  entries := by
    intro p hp hle
    exact (availEntry_eq hpos havail _).trans (h.entries p hp hle)
  valid := hvalid
  usedIdx := (hused.word16_eq (by omega)).trans h.usedIdx
  elems := by
    intro k hk hle
    obtain ⟨hid, hlen⟩ := usedEntry_eq hpos hused (used + k)
    rw [hid, hlen]
    exact h.elems k hk hle

theorem validChain_congr (hagree : AgreeOn rings.desc (16 * vq.size) s.mem mem) {head : Nat}
    (h : rings.ValidChain s.mem head) : rings.ValidChain mem head := by
  obtain ⟨descs, hwalk, hapart⟩ := h
  exact ⟨descs, (Virtqueue.walk_congr rings.descMapped hagree _ _).trans hwalk, hapart⟩

theorem publish_agree (rings : Rings vq) (hpos : 0 < vq.size) (mem : ByteStore) (head : Nat) {off len : Nat}
    (hapart : Apart off len rings.avail (4 + 2 * vq.size)) : AgreeOn off len mem (rings.publish mem head) := by
  have hslot := Nat.mod_lt (word16 mem (rings.avail + 2)) hpos
  have hentry (slot : Nat) : rings.availEntry slot = rings.avail + (4 + 2 * slot) := rfl
  unfold Rings.publish
  unfold Apart at hapart
  refine (AgreeOn.writeBytes ?_).trans (AgreeOn.writeBytes ?_)
  · rw [Apart, leBytes_length, hentry]
    omega
  · rw [Apart, leBytes_length]
    omega

theorem publish_idx (rings : Rings vq) (mem : ByteStore) (head : Nat) :
    word16 (rings.publish mem head) (rings.avail + 2) = (word16 mem (rings.avail + 2) + 1) % 2 ^ 16 := by
  rw [Rings.publish, word16_writeBytes, Nat.mod_mod]

theorem publish_entry (rings : Rings vq) (mem : ByteStore) (head slot : Nat) :
    word16 (rings.publish mem head) (rings.availEntry slot) =
      if slot = word16 mem (rings.avail + 2) % vq.size then head % 2 ^ 16
      else word16 mem (rings.availEntry slot) := by
  have hentry (slot : Nat) : rings.availEntry slot = rings.avail + (4 + 2 * slot) := rfl
  have hidx (mem' : ByteStore) (bs : List UInt8) (hbs : bs.length = 2) :
      word16 (writeBytes mem' (rings.avail + 2) bs) (rings.availEntry slot) =
        word16 mem' (rings.availEntry slot) := by
    apply word16_apart
    rw [Apart, hbs, hentry]
    omega
  rw [Rings.publish, hidx _ _ (leBytes_length _ _)]
  split
  · rename_i hslot
    rw [← hslot, word16_writeBytes]
  · apply word16_apart
    rw [Apart, leBytes_length, hentry, hentry]
    omega

theorem slot_eq (hdvd : vq.size ∣ 2 ^ 16) (n : Nat) : n % 2 ^ 16 % vq.size = n % vq.size :=
  Nat.mod_mod_of_dvd n hdvd

theorem publish (h : RingInv rings avail used s) (hvq : QueueOk vq) {head : Nat}
    (hroom : s.published.length < s.popped.length + vq.size) (hhead : head < 2 ^ 16)
    (hchain : rings.ValidChain s.mem head) :
    RingInv rings avail used
      { s with mem := rings.publish s.mem head, published := s.published ++ [head] } := by
  have hle := h.popped_le
  have hdesc := publish_agree rings hvq.pos s.mem head rings.descAvail
  have husedRing : AgreeOn rings.used (4 + 8 * vq.size) s.mem (rings.publish s.mem head) :=
    publish_agree rings hvq.pos s.mem head rings.availUsed.symm
  have hidx : word16 s.mem (rings.avail + 2) % vq.size = (avail + s.published.length) % vq.size := by
    rw [h.availIdx, slot_eq hvq.dvd]
  constructor
  · exact h.vq_eq
  · rw [List.take_append_of_le_length hle]
    exact h.heads
  · rw [List.length_append, List.length_singleton]
    exact hroom
  · intro head' hmem
    rcases List.mem_append.mp hmem with hold | hnew
    · exact h.heads_lt head' hold
    · cases List.mem_singleton.mp hnew
      exact hhead
  · rw [publish_idx, h.availIdx, List.length_append, List.length_singleton, Nat.mod_add_mod, Nat.add_assoc]
  · -- An entry still to be popped is less than `size` behind the new one, hence in another slot.
    intro p hp hpopped
    rw [List.length_append, List.length_singleton] at hp
    rw [publish_entry, hidx]
    by_cases hnew : p = s.published.length
    · subst hnew
      rw [if_pos rfl, Nat.mod_eq_of_lt hhead, List.getElem_append_right (Nat.le_refl _)]
      simp
    · change s.popped.length ≤ p at hpopped
      have hne : (avail + p) % vq.size ≠ (avail + s.published.length) % vq.size :=
        mod_ne_of_lt (by omega) (by omega)
      rw [if_neg hne, List.getElem_append_left (by omega)]
      exact h.entries p (by omega) hpopped
  · intro head' hmem
    rw [List.drop_append_of_le_length hle] at hmem
    rcases List.mem_append.mp hmem with hold | hnew
    · exact validChain_congr hdesc (h.valid head' hold)
    · cases List.mem_singleton.mp hnew
      exact validChain_congr hdesc hchain
  · exact (husedRing.word16_eq (by omega)).trans h.usedIdx
  · intro k hk hlast
    obtain ⟨hid, hlen⟩ := usedEntry_eq hvq.pos husedRing (used + k)
    rw [hid, hlen]
    exact h.elems k hk hlast

theorem pop_none (h : RingInv rings avail used s) (hall : s.published.length = s.popped.length) :
    s.vq.popAvail s.mem = none := by
  rw [h.vq_eq]
  apply (rings.resume ((avail + s.popped.length) % 2 ^ 16)).popAvail_none
  exact h.availIdx.trans (by rw [hall])

theorem pop_some (h : RingInv rings avail used s) (hvq : QueueOk vq)
    (hlt : s.popped.length < s.published.length) :
    ∃ descs, rings.BuffersApart descs ∧ s.vq.popAvail s.mem = some
      (⟨s.published[s.popped.length], descs⟩,
        { vq with lastAvailIdx := (avail + (s.popped.length + 1)) % 2 ^ 16 }) := by
  have hpending : s.published[s.popped.length] ∈ s.published.drop s.popped.length := by
    rw [List.drop_eq_getElem_cons hlt]
    exact List.mem_cons_self
  obtain ⟨descs, hwalk, hapart⟩ := h.valid _ hpending
  have hne : word16 s.mem (rings.avail + 2) ≠ (avail + s.popped.length) % 2 ^ 16 := by
    have hbound := h.bound
    have hsize := hvq.lt
    rw [h.availIdx]
    exact (mod_ne_of_lt (by omega) (by omega)).symm
  have hentry : word16 s.mem (rings.availEntry ((avail + s.popped.length) % 2 ^ 16 % vq.size)) =
      s.published[s.popped.length] := by
    rw [slot_eq hvq.dvd]
    exact h.entries _ hlt (Nat.le_refl _)
  have hwalk' : Virtqueue.walk { vq with lastAvailIdx := (avail + s.popped.length) % 2 ^ 16 } s.mem vq.size
      (word16 s.mem (rings.availEntry ((avail + s.popped.length) % 2 ^ 16 % vq.size))) = some descs := by
    rw [Virtqueue.walk_lastAvailIdx, hentry]
    exact hwalk
  refine ⟨descs, hapart, ?_⟩
  rw [h.vq_eq, (rings.resume ((avail + s.popped.length) % 2 ^ 16)).popAvail_some hvq.ready hvq.pos hne hwalk']
  simp only [Nat.mod_add_mod, Nat.add_assoc, Option.some.injEq, Prod.mk.injEq, DescriptorChain.mk.injEq,
    and_true]
  exact hentry

theorem push (h : RingInv rings avail used s) (hvq : QueueOk vq)
    (hlt : s.popped.length < s.published.length) (device : δ) (bytesWritten : Nat) :
    RingInv rings avail used
      { s with
        device
        vq := { vq with lastAvailIdx := (avail + (s.popped.length + 1)) % 2 ^ 16 }
        mem := rings.pushed s.mem (word16 s.mem (rings.used + 2)) s.published[s.popped.length] bytesWritten
        popped := s.popped ++ [(s.published[s.popped.length], bytesWritten)] } := by
  have havail : AgreeOn rings.avail (4 + 2 * vq.size) s.mem
      (rings.pushed s.mem (word16 s.mem (rings.used + 2)) s.published[s.popped.length] bytesWritten) :=
    rings.pushed_agree hvq.pos rings.availUsed _ _
  have hdesc : AgreeOn rings.desc (16 * vq.size) s.mem
      (rings.pushed s.mem (word16 s.mem (rings.used + 2)) s.published[s.popped.length] bytesWritten) :=
    rings.pushed_agree hvq.pos rings.descUsed _ _
  have hslot : word16 s.mem (rings.used + 2) % vq.size = (used + s.popped.length) % vq.size := by
    rw [h.usedIdx, slot_eq hvq.dvd]
  have hid := h.heads_lt _ (List.getElem_mem hlt)
  constructor
  · simp only [List.length_append, List.length_singleton]
  · simp only [List.map_append, List.map_singleton, List.length_append, List.length_singleton]
    rw [List.take_succ_eq_append_getElem hlt, h.heads]
  · simp only [List.length_append, List.length_singleton]
    have hbound := h.bound
    omega
  · exact h.heads_lt
  · exact (havail.word16_eq (by omega)).trans h.availIdx
  · intro p hp hle
    simp only [List.length_append, List.length_singleton] at hle
    have hlt' := Nat.mod_lt (avail + p) hvq.pos
    exact (havail.word16_eq (by omega)).trans (h.entries p hp (by omega))
  · intro head hmem
    simp only [List.length_append, List.length_singleton] at hmem
    apply validChain_congr hdesc (h.valid head _)
    rw [List.drop_eq_getElem_cons hlt]
    exact List.mem_cons_of_mem _ hmem
  · simp only [List.length_append, List.length_singleton]
    rw [rings.pushed_idx, h.usedIdx, Nat.mod_add_mod, Nat.add_assoc]
  · -- The new element overwrites one that is `size` pushes old.
    intro k hk hlast
    simp only [List.length_append, List.length_singleton] at hk hlast
    by_cases hnew : k = s.popped.length
    · subst hnew
      rw [← hslot, List.getElem_append_right (Nat.le_refl _)]
      obtain ⟨hfst, hsnd⟩ := rings.pushed_entry s.mem (word16 s.mem (rings.used + 2))
        s.published[s.popped.length] bytesWritten
      rw [hfst, hsnd, Nat.mod_eq_of_lt (Nat.lt_trans hid (by decide))]
      simp
    · have hne : (used + k) % vq.size ≠ word16 s.mem (rings.used + 2) % vq.size := by
        rw [hslot]
        exact mod_ne_of_lt (by omega) (by omega)
      have hagree := rings.pushed_entry_ne s.mem hne s.published[s.popped.length] bytesWritten
      obtain ⟨hfst, hsnd⟩ := h.elems k (by omega) (by omega)
      rw [List.getElem_append_left (by omega)]
      constructor
      · exact (hagree.word32_eq (i := 0) (by omega)).trans hfst
      · exact (hagree.word32_eq (by omega)).trans hsnd

variable {ops : VirtioDevice δ} {queueIdx : Nat}

theorem iterate (h : RingInv rings avail used s) (hvq : QueueOk vq) (hops : KeepsRings ops queueIdx rings)
    (hlt : s.popped.length < s.published.length) {descs : List Descriptor} (hapart : rings.BuffersApart descs) :
    RingInv rings avail used (s.iterate ops queueIdx ⟨s.published[s.popped.length], descs⟩
      { vq with lastAvailIdx := (avail + (s.popped.length + 1)) % 2 ^ 16 }) := by
  have hkeep := hops s.device s.mem ⟨s.published[s.popped.length], descs⟩
    ((avail + (s.popped.length + 1)) % 2 ^ 16) hapart
  unfold RingState.iterate
  generalize ops.processDescriptorChain s.device s.mem queueIdx ⟨s.published[s.popped.length], descs⟩
    { vq with lastAvailIdx := (avail + (s.popped.length + 1)) % 2 ^ 16 } = out at hkeep ⊢
  obtain ⟨bytesWritten, device, mem⟩ := out
  have hdesc : AgreeOn rings.desc (16 * vq.size) s.mem mem := fun a ha ha' => hkeep a (.inl ⟨ha, ha'⟩)
  have hframe : RingInv rings avail used { s with mem } := by
    apply h.frame hvq.pos
    · intro a ha ha'
      exact hkeep a (.inr (.inl ⟨by omega, by omega⟩))
    · intro a ha ha'
      exact hkeep a (.inr (.inr ⟨ha, ha'⟩))
    · intro head hmem
      exact validChain_congr hdesc (h.valid head hmem)
  dsimp only
  rw [(rings.resume ((avail + (s.popped.length + 1)) % 2 ^ 16)).pushUsed_eq hvq.ready hvq.pos]
  exact hframe.push hvq hlt device bytesWritten

theorem step (h : RingInv rings avail used s) (hvq : QueueOk vq) (hops : KeepsRings ops queueIdx rings)
    {a : RingAction} (hstep : RingStep ops queueIdx rings s a s') : RingInv rings avail used s' := by
  cases hstep with
  | prepare havail hused hvalid => exact h.frame hvq.pos havail hused hvalid
  | publish hroom hhead hchain => exact h.publish hvq hroom hhead hchain
  | iterate hpop =>
    by_cases hall : s.published.length = s.popped.length
    · rw [h.pop_none hall] at hpop
      cases hpop
    · have hle := h.popped_le
      obtain ⟨descs, hapart, hpop'⟩ := h.pop_some hvq (by omega)
      cases hpop'.symm.trans hpop
      exact h.iterate hvq hops (by omega) hapart

theorem of_start (h : RingStart rings s) (hvq : QueueOk vq) :
    RingInv rings vq.lastAvailIdx (word16 s.mem (rings.used + 2)) s := by
  have hlen : s.popped.length = 0 := by rw [h.popped]; rfl
  constructor
  · rw [h.vq_eq, hlen, Nat.add_zero, Nat.mod_eq_of_lt hvq.idx_lt]
  · rw [h.popped]
    rfl
  · rw [hlen, Nat.zero_add]
    exact h.bound
  · exact h.heads_lt
  · exact h.availIdx
  · intro p hp _
    rw [← slot_eq hvq.dvd]
    exact h.entries p hp
  · intro head hmem
    exact h.valid head (List.mem_of_mem_drop hmem)
  · rw [hlen]
    exact (Nat.mod_eq_of_lt word16_lt).symm
  · intro k hk
    omega

theorem lossless (h : RingInv rings avail used s) (hvq : QueueOk vq) : Lossless rings used s where
  heads := h.heads
  usedIdx := h.usedIdx
  used := by
    intro k hk hlast
    rw [slot_eq hvq.dvd]
    exact h.elems k hk hlast

theorem processLoop_pop {fuel : Nat} {raised : Bool} {chain : DescriptorChain} {next : Virtqueue}
    (hpop : s.vq.popAvail s.mem = some (chain, next)) :
    MmioTransport.processLoop ops queueIdx (fuel + 1) s.device s.vq s.mem raised =
      MmioTransport.processLoop ops queueIdx fuel (s.iterate ops queueIdx chain next).device
        (s.iterate ops queueIdx chain next).vq (s.iterate ops queueIdx chain next).mem
        (raised || next.needsNotification (s.iterate ops queueIdx chain next).mem) := by
  rw [MmioTransport.processLoop, hpop]
  rfl

theorem processLoop_eq (h : RingInv rings avail used s) (hvq : QueueOk vq) (hops : KeepsRings ops queueIdx rings)
    (fuel : Nat) (raised : Bool) (hfuel : s.published.length < s.popped.length + fuel) :
    ∃ s' raised', MmioTransport.processLoop ops queueIdx fuel s.device s.vq s.mem raised =
        some (s'.device, s'.vq, s'.mem, raised') ∧
      Steps (RingStep ops queueIdx rings) s
        (List.replicate (s.published.length - s.popped.length) .iterate) s' ∧
      s'.popped.map Prod.fst = s.published := by
  induction fuel generalizing s raised with
  | zero =>
    have hle := h.popped_le
    omega
  | succ fuel ih =>
    have hle := h.popped_le
    by_cases hall : s.published.length = s.popped.length
    · refine ⟨s, raised, ?_, ?_, ?_⟩
      · rw [MmioTransport.processLoop, h.pop_none hall]
      · rw [hall, Nat.sub_self]
        exact .nil s
      · rw [h.heads, ← hall, List.take_length]
    · obtain ⟨descs, hapart, hpop⟩ := h.pop_some hvq (by omega)
      have hinv := h.iterate hvq hops (by omega) hapart
      rw [processLoop_pop hpop]
      generalize hs₁ : s.iterate ops queueIdx _ _ = s₁ at hinv ⊢
      have hpublished : s₁.published = s.published := by rw [← hs₁, RingState.iterate]
      have hpopped : s₁.popped.length = s.popped.length + 1 := by
        rw [← hs₁, RingState.iterate, List.length_append, List.length_singleton]
      obtain ⟨s', raised', hloop, hsteps, hheads⟩ := ih hinv _ (by rw [hpublished, hpopped]; omega)
      refine ⟨s', raised', hloop, ?_, hpublished ▸ hheads⟩
      have hcount : s.published.length - s.popped.length = s₁.published.length - s₁.popped.length + 1 := by
        rw [hpublished, hpopped]
        omega
      rw [hcount, List.replicate_succ]
      exact .cons (hs₁ ▸ .iterate hpop) hsteps

end RingInv

/-- In every interleaving of a driver with the iterations of the transport's loop nothing is lost
or duplicated, and from every state reached the loop ends with all that was published popped. -/
theorem queue_lossless {ops : VirtioDevice δ} {queueIdx : Nat} (rings : Rings vq) (hvq : QueueOk vq)
    (hops : KeepsRings ops queueIdx rings) {s₀ s : RingState δ} {run : List RingAction}
    (h₀ : RingStart rings s₀) (hrun : Steps (RingStep ops queueIdx rings) s₀ run s) :
    Lossless rings (word16 s₀.mem (rings.used + 2)) s ∧
      ∀ fuel raised, s.published.length < s.popped.length + fuel →
        ∃ s' raised', MmioTransport.processLoop ops queueIdx fuel s.device s.vq s.mem raised =
            some (s'.device, s'.vq, s'.mem, raised') ∧
          Steps (RingStep ops queueIdx rings) s
            (List.replicate (s.published.length - s.popped.length) .iterate) s' ∧
          s'.popped.map Prod.fst = s.published := by
  have hinv : RingInv rings vq.lastAvailIdx (word16 s₀.mem (rings.used + 2)) s := by
    apply Steps.invariant _ hrun (RingInv.of_start h₀ hvq)
    intro s a s' hstep h
    exact h.step hvq hops hstep
  constructor
  · exact hinv.lossless hvq
  · intro fuel raised hfuel
    exact hinv.processLoop_eq hvq hops fuel raised hfuel

section Wrap

variable (size : Nat)

def wrapQueue : Virtqueue where
  size := size
  ready := true
  availRing := 0x1000
  usedRing := 0x2000
  lastAvailIdx := 65535
  hasMem := true
  guestMemSize := 0x8000

theorem wrapQueue_mapped (gpa len : Nat) (h : gpa + len ≤ 0x8000) : (wrapQueue size).Mapped gpa len gpa := by
  apply Virtqueue.Mapped.withoutHole rfl rfl _ h
  change 0x8000 < 2 ^ 64
  decide

theorem wrapQueue_bounds (h : size ≤ 128) : 0 + 16 * (wrapQueue size).size ≤ 0x8000 ∧
    0x1000 + (4 + 2 * (wrapQueue size).size) ≤ 0x8000 ∧ 0x2000 + (4 + 8 * (wrapQueue size).size) ≤ 0x8000 := by
  simp only [wrapQueue]
  omega

theorem wrapQueue_apart (h : size ≤ 128) :
    Apart 0 (16 * (wrapQueue size).size) 0x1000 (4 + 2 * (wrapQueue size).size) ∧
      Apart 0 (16 * (wrapQueue size).size) 0x2000 (4 + 8 * (wrapQueue size).size) ∧
      Apart 0x1000 (4 + 2 * (wrapQueue size).size) 0x2000 (4 + 8 * (wrapQueue size).size) := by
  simp only [Apart, wrapQueue]
  omega

def wrapRings (h : size ≤ 128) : Rings (wrapQueue size) where
  desc := 0
  avail := 0x1000
  used := 0x2000
  descMapped := wrapQueue_mapped size 0 _ (wrapQueue_bounds size h).1
  availMapped := wrapQueue_mapped size 0x1000 _ (wrapQueue_bounds size h).2.1
  usedMapped := wrapQueue_mapped size 0x2000 _ (wrapQueue_bounds size h).2.2
  descAvail := (wrapQueue_apart size h).1
  descUsed := (wrapQueue_apart size h).2.1
  availUsed := (wrapQueue_apart size h).2.2

def wrapStart : RingState Unit where
  device := ()
  vq := wrapQueue size
  mem := fun a => if a = 0x1002 ∨ a = 0x1003 ∨ a = 0x2002 ∨ a = 0x2003 then 255 else 0
  published := []
  popped := []

variable {size}

theorem wrapStart_start (h : size ≤ 128) : RingStart (wrapRings size h) (wrapStart size) where
  vq_eq := rfl
  popped := rfl
  bound := Nat.zero_le _
  heads_lt := by rintro head ⟨⟩
  availIdx := by
    change leNat [255, 255] = 65535
    decide
  entries := by rintro p ⟨⟩
  valid := by rintro head ⟨⟩

theorem idleDevice_keepsRings {vq : Virtqueue} (rings : Rings vq) : KeepsRings idleDevice 0 rings :=
  fun _ _ _ _ _ _ _ => rfl

theorem validChain_of_walk {vq : Virtqueue} (rings : Rings vq) {mem : ByteStore} {head : Nat}
    (h : vq.walk mem vq.size head = some [⟨0, 0, 0, 0⟩]) : rings.ValidChain mem head := by
  refine ⟨_, h, ?_⟩
  intro desc hmem hwrite
  cases List.mem_singleton.mp hmem
  exact absurd rfl hwrite

end Wrap

theorem queue_lossless_wrap : ∃ s,
    Steps (RingStep idleDevice 0 (wrapRings 4 (by decide))) (wrapStart 4)
      [.publish 1, .publish 2, .iterate, .iterate] s ∧
    Lossless (wrapRings 4 (by decide)) 65535 s := by
  have hrun : Steps (RingStep idleDevice 0 (wrapRings 4 (by decide))) (wrapStart 4)
      [.publish 1, .publish 2, .iterate, .iterate] _ :=
    .cons (.publish (by decide) (by decide) (validChain_of_walk _ rfl))
      (.cons (.publish (by decide) (by decide) (validChain_of_walk _ rfl))
        (.cons (.iterate rfl) (.cons (.iterate rfl) (.nil _))))
  exact ⟨_, hrun, (queue_lossless (wrapRings 4 (by decide)) ⟨⟨rfl, by decide, by decide, by decide⟩, by decide⟩
    (idleDevice_keepsRings _) (wrapStart_start (by decide)) hrun).1⟩

theorem queue_lossless_fails :
    ¬ ∀ (vq : Virtqueue) (rings : Rings vq) (s₀ s : RingState Unit) (run : List RingAction), QueueReady vq →
      KeepsRings idleDevice 0 rings → RingStart rings s₀ → Steps (RingStep idleDevice 0 rings) s₀ run s →
      Lossless rings (word16 s₀.mem (rings.used + 2)) s := by
  intro h
  have hrun : Steps (RingStep idleDevice 0 (wrapRings 3 (by decide))) (wrapStart 3)
      [.publish 1, .publish 2, .iterate] _ :=
    .cons (.publish (by decide) (by decide) (validChain_of_walk _ rfl))
      (.cons (.publish (by decide) (by decide) (validChain_of_walk _ rfl)) (.cons (.iterate rfl) (.nil _)))
  have hlossless := h _ _ _ _ _ ⟨rfl, by decide, by decide, by decide⟩ (idleDevice_keepsRings _)
    (wrapStart_start (by decide)) hrun
  exact absurd hlossless.heads (by decide)

end CloneVmm.Virtio
