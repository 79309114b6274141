import CloneVmm.Virtio.Lossless
import CloneVmm.Virtio.Net

namespace CloneVmm.Virtio

open CloneVmm.Lib

variable {δ : Type}

def DeviceKind.queueMaxSizes : DeviceKind → List Nat
  | .block => [128]
  | .net => [256, 256]
  | .vsock => [128, 128, 128]
  | .fs => [256, 256]
  | .balloon => [128, 128]

structure LoopState (δ : Type) where
  device : δ
  vq : Virtqueue
  mem : ByteStore

namespace LoopState

variable (ops : VirtioDevice δ) (queueIdx : Nat)

def iterate (s : LoopState δ) : Option (LoopState δ) :=
  (s.vq.popAvail s.mem).map fun p =>
    let out := ops.processDescriptorChain s.device s.mem queueIdx p.1 p.2
    ⟨out.2.1, p.2, (p.2.pushUsed out.2.2 p.1.index out.1).1⟩

def after : Nat → LoopState δ → Option (LoopState δ)
  | 0, s => some s
  | n + 1, s => (s.iterate ops queueIdx).bind (after n)

def availIdx (s : LoopState δ) : Option Nat := s.vq.readU16 s.mem (s.vq.availRing + 2)

def StopsRewriting (s : LoopState δ) : Prop :=
  ∃ n, ∀ k, n ≤ k → ∀ t u, s.after ops queueIdx k = some t → t.iterate ops queueIdx = some u → u.availIdx = t.availIdx

def pending (s : LoopState δ) : Nat := (s.availIdx.getD 0 + 2 ^ 16 - s.vq.lastAvailIdx) % 2 ^ 16

end LoopState

section Iterations

variable {ops : VirtioDevice δ} {queueIdx : Nat} {s t : LoopState δ}

theorem LoopState.iterate_vq (h : s.iterate ops queueIdx = some t) :
    t.vq = { s.vq with lastAvailIdx := (s.vq.lastAvailIdx + 1) % 2 ^ 16 } := by
  obtain ⟨⟨chain, vq⟩, hpop, rfl⟩ := Option.map_eq_some_iff.mp h
  exact (Virtqueue.popAvail_cases hpop).2.2.2.2.2

theorem LoopState.iterate_availIdx (h : s.iterate ops queueIdx = some t) :
    ∃ idx, s.availIdx = some idx ∧ idx ≠ s.vq.lastAvailIdx := by
  obtain ⟨⟨chain, vq⟩, hpop, rfl⟩ := Option.map_eq_some_iff.mp h
  exact (Virtqueue.popAvail_cases hpop).2.2.1

theorem readU16_lt {vq : Virtqueue} {mem : ByteStore} {gpa val : Nat} (h : vq.readU16 mem gpa = some val) :
    val < 2 ^ 16 := by
  obtain ⟨bytes, hbytes, rfl⟩ := Option.map_eq_some_iff.mp h
  obtain ⟨off, -, rfl⟩ := Option.map_eq_some_iff.mp hbytes
  exact word16_lt

theorem LoopState.iterate_pending (h : s.iterate ops queueIdx = some t) (hlt : s.vq.lastAvailIdx < 2 ^ 16)
    (hkept : t.availIdx = s.availIdx) : t.pending + 1 = s.pending := by
  obtain ⟨idx, hidx, hne⟩ := iterate_availIdx h
  have hidxlt := readU16_lt hidx
  have hvq := congrArg Virtqueue.lastAvailIdx (iterate_vq h)
  dsimp only at hvq
  unfold pending
  rw [hkept, hidx, Option.getD_some, hvq]
  omega

theorem LoopState.iterate_lastAvailIdx (h : s.iterate ops queueIdx = some t) : t.vq.lastAvailIdx < 2 ^ 16 := by
  rw [iterate_vq h]
  exact Nat.mod_lt _ (by decide)

theorem LoopState.after_add (m n : Nat) (s : LoopState δ) :
    s.after ops queueIdx (m + n) = (s.after ops queueIdx m).bind (after ops queueIdx n) := by
  induction m generalizing s with
  | zero =>
    rw [Nat.zero_add]
    rfl
  | succ m ih =>
    rw [Nat.succ_add, after, after, Option.bind_assoc]
    congr 1
    exact funext ih

theorem LoopState.after_size {n : Nat} (h : s.after ops queueIdx n = some t) : t.vq.size = s.vq.size := by
  induction n generalizing s with
  | zero =>
    cases h
    rfl
  | succ n ih =>
    obtain ⟨u, hu, hrest⟩ := Option.bind_eq_some_iff.mp h
    rw [ih hrest, iterate_vq hu]

theorem LoopState.after_pending (hlt : s.vq.lastAvailIdx < 2 ^ 16)
    (hkept : ∀ k t u, s.after ops queueIdx k = some t → t.iterate ops queueIdx = some u → u.availIdx = t.availIdx) :
    s.after ops queueIdx (s.pending + 1) = none := by
  induction hleft : s.pending generalizing s with
  | zero =>
    cases hiterate : s.iterate ops queueIdx with
    | none => rw [after, hiterate, Option.bind_none]
    | some t =>
      have hpending := iterate_pending hiterate hlt (hkept 0 s t rfl hiterate)
      omega
  | succ left ih =>
    cases hiterate : s.iterate ops queueIdx with
    | none => rw [after, hiterate, Option.bind_none]
    | some t =>
      have hpending := iterate_pending hiterate hlt (hkept 0 s t rfl hiterate)
      rw [after, hiterate, Option.bind_some]
      apply ih (iterate_lastAvailIdx hiterate) _ (by omega)
      intro k t' u ht' hu
      refine hkept (k + 1) t' u ?_ hu
      rw [after, hiterate, Option.bind_some, ht']

theorem LoopState.ends_iff : (∃ n, s.after ops queueIdx n = none) ↔ s.StopsRewriting ops queueIdx := by
  constructor
  · rintro ⟨n, hend⟩
    refine ⟨n, fun k hk t u ht _ => ?_⟩
    obtain ⟨m, rfl⟩ := Nat.exists_eq_add_of_le hk
    rw [after_add, hend] at ht
    cases ht
  · rintro ⟨n, hkept⟩
    -- After one more iteration the index of the transport is one of 16 bits, whatever it was.
    cases hafter : s.after ops queueIdx (n + 1) with
    | none => exact ⟨n + 1, hafter⟩
    | some t =>
      have hlt : t.vq.lastAvailIdx < 2 ^ 16 := by
        rw [after_add] at hafter
        obtain ⟨u, -, hu⟩ := Option.bind_eq_some_iff.mp hafter
        obtain ⟨t', ht', hsame⟩ := Option.bind_eq_some_iff.mp hu
        cases hsame
        exact iterate_lastAvailIdx ht'
      refine ⟨n + 1 + (t.pending + 1), ?_⟩
      rw [after_add, hafter, Option.bind_some]
      apply after_pending hlt
      intro k t' u ht' hu
      refine hkept (n + 1 + k) (by omega) t' u ?_ hu
      rw [after_add, hafter, Option.bind_some, ht']

theorem processLoop_eq_none (fuel : Nat) (s : LoopState δ) (raised : Bool) :
    MmioTransport.processLoop ops queueIdx fuel s.device s.vq s.mem raised = none ↔
      s.after ops queueIdx fuel ≠ none := by
  induction fuel generalizing s raised with
  | zero => simp [MmioTransport.processLoop, LoopState.after]
  | succ fuel ih =>
    rw [MmioTransport.processLoop, LoopState.after, LoopState.iterate]
    cases s.vq.popAvail s.mem with
    | none => simp
    | some p =>
      obtain ⟨chain, vq⟩ := p
      let out := ops.processDescriptorChain s.device s.mem queueIdx chain vq
      exact ih ⟨out.2.1, vq, (vq.pushUsed out.2.2 chain.index out.1).1⟩ _

section Apart

variable {vq : Virtqueue} (rings : Rings vq) (hops : KeepsRings ops queueIdx rings) {mem : ByteStore} {u : LoopState δ}
  (hapart : ∀ head descs, vq.walk mem vq.size head = some descs → rings.BuffersApart descs)

include hops hapart

theorem LoopState.iterate_of_rings {n : Nat} (hvq : t.vq = { vq with lastAvailIdx := n })
    (hdesc : AgreeOn rings.desc (16 * vq.size) mem t.mem) (h : t.iterate ops queueIdx = some u) :
    u.availIdx = t.availIdx ∧ AgreeOn rings.desc (16 * vq.size) mem u.mem := by
  obtain ⟨device, tvq, tmem⟩ := t
  obtain ⟨⟨chain, next⟩, hpop, rfl⟩ := Option.map_eq_some_iff.mp h
  obtain rfl : tvq = { vq with lastAvailIdx := n } := hvq
  obtain ⟨hready, -, -, -, hwalk, rfl⟩ := Virtqueue.popAvail_cases hpop
  rw [Virtqueue.walk_lastAvailIdx, Virtqueue.walk_congr rings.descMapped hdesc] at hwalk
  have hpos : 0 < vq.size := by
    apply Nat.pos_of_ne_zero
    intro hzero
    rw [hzero] at hwalk
    cases hwalk
  have hkeep := hops device tmem chain ((n + 1) % 2 ^ 16) (hapart _ _ hwalk)
  dsimp only
  generalize ops.processDescriptorChain device tmem queueIdx chain { vq with lastAvailIdx := (n + 1) % 2 ^ 16 } = out
    at hkeep ⊢
  have hpush := @Rings.pushUsed_eq _ (rings.resume ((n + 1) % 2 ^ 16)) out.2.2 hready hpos chain.index out.1
  have havail : AgreeOn rings.avail (4 + 2 * vq.size) tmem
      (rings.pushed out.2.2 (word16 out.2.2 (rings.used + 2)) chain.index out.1) := by
    have hdevice : AgreeOn rings.avail (4 + 2 * vq.size) tmem out.2.2 :=
      fun a ha ha' => hkeep a (.inr (.inl ⟨ha, ha'⟩))
    exact hdevice.trans (rings.pushed_agree hpos rings.availUsed _ _)
  have hdesc' : AgreeOn rings.desc (16 * vq.size) tmem
      (rings.pushed out.2.2 (word16 out.2.2 (rings.used + 2)) chain.index out.1) := by
    have hdevice : AgreeOn rings.desc (16 * vq.size) tmem out.2.2 := fun a ha ha' => hkeep a (.inl ⟨ha, ha'⟩)
    exact hdevice.trans (rings.pushed_agree hpos rings.descUsed _ _)
  rw [hpush]
  refine ⟨?_, hdesc.trans hdesc'⟩
  unfold availIdx
  dsimp only
  rw [(rings.resume ((n + 1) % 2 ^ 16)).availMapped.readU16_eq (i := 2) (by omega),
    (rings.resume n).availMapped.readU16_eq (i := 2) (by omega)]
  exact congrArg some (havail.word16_eq (by omega))

theorem LoopState.after_of_rings {k n : Nat} (h : s.after ops queueIdx k = some t)
    (hvq : s.vq = { vq with lastAvailIdx := n }) (hdesc : AgreeOn rings.desc (16 * vq.size) mem s.mem) :
    (∃ m, t.vq = { vq with lastAvailIdx := m }) ∧ AgreeOn rings.desc (16 * vq.size) mem t.mem := by
  induction k generalizing s n with
  | zero =>
    cases h
    exact ⟨⟨n, hvq⟩, hdesc⟩
  | succ k ih =>
    obtain ⟨u, hu, hrest⟩ := Option.bind_eq_some_iff.mp h
    apply ih hrest _ (iterate_of_rings rings hops hapart hvq hdesc hu).2
    · exact (n + 1) % 2 ^ 16
    · rw [iterate_vq hu, hvq]

theorem LoopState.stopsRewriting_of_rings (device : δ) :
    (LoopState.mk device vq mem).StopsRewriting ops queueIdx := by
  refine ⟨0, fun k _ t u ht hu => ?_⟩
  obtain ⟨⟨n, hvq⟩, hdesc⟩ := after_of_rings rings hops hapart ht (n := vq.lastAvailIdx) rfl fun _ _ _ => rfl
  exact (iterate_of_rings rings hops hapart hvq hdesc hu).1

end Apart

end Iterations

theorem perform_ops {t t' : MmioTransport δ} {op : TransportOp δ} (h : t.perform op = some t') : t'.ops = t.ops := by
  cases op with
  | write fuel mem offset data =>
    obtain ⟨⟨t', mem'⟩, hwrite, rfl⟩ := Option.map_eq_some_iff.mp h
    exact (write_writes hwrite).ops
  | injectRx mem frame =>
    cases h
    exact (injectRxFrame_writes t mem frame).ops
  | restore mem device irq layout =>
    obtain ⟨⟨t', mem'⟩, hrestore, rfl⟩ := Option.map_eq_some_iff.mp h
    rw [(restoreState_writes hrestore).ops]
    rfl

/-- A queue divides by its size, which no register changes, and the loop over it ends exactly if the device does not go
on changing `avail.idx`. -/
theorem processQueueDescriptors_ends_iff {ops : VirtioDevice δ} (kind : DeviceKind)
    (hops : ops.queueMaxSizes = kind.queueMaxSizes) (device : δ) (irq : Nat) (layout : GuestLayout)
    (run : List (TransportOp δ)) (t : MmioTransport δ)
    (hrun : Steps (fun t op t' => t.perform op = some t') (.fresh ops device irq layout) run t) (mem : ByteStore)
    (queueIdx : Nat) :
    (∀ vq n s, t.virtqueues[queueIdx]? = some vq →
        (LoopState.mk t.device vq mem).after t.ops queueIdx n = some s → s.vq.size ≠ 0) ∧
      ((∃ fuel, t.processQueueDescriptors fuel mem queueIdx ≠ none) ↔
        ∀ vq, t.virtqueues[queueIdx]? = some vq → vq.ready = true →
          (LoopState.mk t.device vq mem).StopsRewriting t.ops queueIdx) := by
  constructor
  · intro vq n s hvq hafter hzero
    have hshaped : Shaped t ∧ t.ops.queueMaxSizes = kind.queueMaxSizes := by
      apply Steps.invariant _ hrun ⟨Shaped.fresh ops device irq layout, hops⟩
      rintro t op t' hop ⟨hshaped, hkind⟩
      exact ⟨hshaped.perform hop, perform_ops hop ▸ hkind⟩
    have hmem : vq.size ∈ kind.queueMaxSizes := by
      rw [← hshaped.2, ← hshaped.1.virtqueues]
      exact List.mem_map_of_mem (List.mem_of_getElem? hvq)
    have hpositive : ∀ n ∈ kind.queueMaxSizes, n ≠ 0 := by
      cases kind <;> decide
    exact hpositive _ hmem ((LoopState.after_size hafter).symm.trans hzero)
  · cases hvq : t.virtqueues[queueIdx]? with
    | none =>
      simp [MmioTransport.processQueueDescriptors, hvq]
    | some vq =>
      cases hready : vq.ready with
      | false =>
        simp [MmioTransport.processQueueDescriptors, hvq, hready]
      | true =>
        have hloop : ∀ fuel, t.processQueueDescriptors fuel mem queueIdx ≠ none ↔
            (LoopState.mk t.device vq mem).after t.ops queueIdx fuel = none := by
          intro fuel
          have hnone := @processLoop_eq_none _ t.ops queueIdx fuel ⟨t.device, vq, mem⟩ false
          simp only [MmioTransport.processQueueDescriptors, hvq, hready]
          simp only [Bool.not_true, Bool.false_eq_true, if_false, ne_eq, Option.map_eq_none_iff]
          rw [hnone, not_not]
        simp only [hloop, LoopState.ends_iff, Option.some.injEq, forall_eq', hready, forall_const]

def sharedQueue (n : Nat) : Virtqueue where
  size := 256
  ready := true
  descTable := 0x1000
  availRing := 0x2000
  usedRing := 0x2000
  lastAvailIdx := n
  hasMem := true
  guestMemSize := 0x10000

def apartQueue : Virtqueue := { sharedQueue 0 with usedRing := 0x3000 }

structure OneAhead (n : Nat) (mem : ByteStore) : Prop where
  idx : word16 mem 0x2002 = (n + 1) % 2 ^ 16
  zero : ∀ a, a ≠ 0x2002 → a ≠ 0x2003 → mem a = 0

theorem readDescriptor_zero {vq : Virtqueue} {mem : ByteStore} {off : Nat}
    (h : vq.Mapped vq.descTable (16 * vq.size) off) (hzero : ∀ a, off ≤ a → a < off + 16 * vq.size → mem a = 0) {idx : Nat}
    (hidx : idx < vq.size) : vq.readDescriptor mem idx = some ⟨0, 0, 0, 0⟩ := by
  have hagree : AgreeOn off (16 * vq.size) (fun _ => 0) mem := hzero
  rw [Virtqueue.readDescriptor_congr h hagree hidx]
  simp only [Virtqueue.readDescriptor, Nat.add_assoc]
  rw [h.readU64_eq (by omega), h.readU32_eq (by omega), h.readU16_eq (by omega), h.readU16_eq (by omega)]
  rfl

section Shared

variable {n : Nat} {mem : ByteStore}

theorem sharedQueue_mapped (n : Nat) : (sharedQueue n).Mapped 0 0x10000 0 := by
  apply Virtqueue.Mapped.withoutHole rfl rfl
  · change 0x10000 < 2 ^ 64
    decide
  · exact Nat.le_refl _

theorem sharedQueue_readU16 (n : Nat) {gpa : Nat} (hgpa : gpa + 2 ≤ 0x10000) :
    (sharedQueue n).readU16 mem gpa = some (word16 mem gpa) := by
  have hread : (sharedQueue n).readU16 mem (0 + gpa) = _ := (sharedQueue_mapped n).readU16_eq hgpa
  rwa [Nat.zero_add] at hread

theorem sharedQueue_writeU32 (n : Nat) {gpa : Nat} (hgpa : gpa + 4 ≤ 0x10000) (val : Nat) :
    (sharedQueue n).writeU32 mem gpa val = some (writeBytes mem gpa (leBytes 4 val)) := by
  have hwrite : (sharedQueue n).writeU32 mem (0 + gpa) val = _ := (sharedQueue_mapped n).writeU32_eq hgpa
  rwa [Nat.zero_add] at hwrite

theorem sharedQueue_writeU16 (n : Nat) {gpa : Nat} (hgpa : gpa + 2 ≤ 0x10000) (val : Nat) :
    (sharedQueue n).writeU16 mem gpa val = some (writeBytes mem gpa (leBytes 2 val)) := by
  have hwrite : (sharedQueue n).writeU16 mem (0 + gpa) val = _ := (sharedQueue_mapped n).writeU16_eq hgpa
  rwa [Nat.zero_add] at hwrite

theorem OneAhead.readBytes_eq (h : OneAhead n mem) {off len : Nat} (hoff : off + len ≤ 0x2002 ∨ 0x2004 ≤ off) :
    readBytes mem off len = readBytes (fun _ => 0) off len :=
  readBytes_congr fun a ha ha' => h.zero a (by omega) (by omega)

theorem OneAhead.readDescriptor_eq (h : OneAhead n mem) :
    (sharedQueue n).readDescriptor mem 0 = some ⟨0, 0, 0, 0⟩ := by
  have htable : 0x1000 + 16 * 256 ≤ 0x10000 := by decide
  have hmapped : (sharedQueue n).Mapped 0x1000 (16 * 256) 0x1000 :=
    Virtqueue.Mapped.withoutHole rfl rfl (sharedQueue_mapped n).size_lt htable
  have hzero : ∀ a, 0x1000 ≤ a → a < 0x1000 + 16 * 256 → mem a = 0 :=
    fun a _ ha => h.zero a (by omega) (by omega)
  exact readDescriptor_zero hmapped hzero (show 0 < 256 by decide)

theorem OneAhead.popAvail_eq (h : OneAhead n mem) :
    (sharedQueue n).popAvail mem = some (⟨0, [⟨0, 0, 0, 0⟩]⟩, sharedQueue ((n + 1) % 2 ^ 16)) := by
  have hidx : (sharedQueue n).readU16 mem (0x2000 + 2) = some ((n + 1) % 2 ^ 16) := by
    rw [sharedQueue_readU16 n (by decide), h.idx]
  have hhead : (sharedQueue n).readU16 mem (0x2000 + 4 + n % 256 * 2) = some 0 := by
    rw [sharedQueue_readU16 n (by omega), word16, h.readBytes_eq (.inr (by omega))]
    rfl
  have hwalk : (sharedQueue n).walk mem 256 0 = some [⟨0, 0, 0, 0⟩] := by
    rw [Virtqueue.walk, h.readDescriptor_eq]
    rfl
  have hne : (n + 1) % 2 ^ 16 ≠ n := by omega
  simp only [sharedQueue] at hidx hhead hwalk
  simp only [Virtqueue.popAvail, sharedQueue, hidx, hhead, hwalk, hne, if_false, Bool.not_true, Bool.or_self,
    Bool.false_eq_true]
  rfl

theorem writeBytes_zero {off a : Nat} (h : mem a = 0) (count : Nat) :
    writeBytes mem off (List.replicate count 0) a = 0 := by
  by_cases hin : off ≤ a ∧ a < off + count
  · obtain ⟨i, rfl⟩ := Nat.exists_eq_add_of_le hin.1
    rw [writeBytes_inside (by rw [List.length_replicate]; omega), List.getElem_replicate]
  · rw [writeBytes_outside (by rw [List.length_replicate]; omega), h]

theorem OneAhead.pushUsed (h : OneAhead n mem) (m : Nat) :
    OneAhead (n + 1) ((sharedQueue m).pushUsed mem 0 0).1 := by
  have hzeros : leBytes 4 0 = List.replicate 4 0 := by decide
  have hidx : (sharedQueue m).readU16 mem (0x2000 + 2) = some ((n + 1) % 2 ^ 16) := by
    rw [sharedQueue_readU16 m (by decide), h.idx]
  have hslot := Nat.mod_lt ((n + 1) % 2 ^ 16) (show 0 < 256 by decide)
  generalize hentry : 0x2000 + 4 + (n + 1) % 2 ^ 16 % 256 * 8 = entry
  have hid : ∀ mem', (sharedQueue m).writeU32 mem' entry 0 = some (writeBytes mem' entry (leBytes 4 0)) :=
    fun mem' => sharedQueue_writeU32 m (by omega) 0
  have hlen : ∀ mem', (sharedQueue m).writeU32 mem' (entry + 4) 0 = some (writeBytes mem' (entry + 4) (leBytes 4 0)) :=
    fun mem' => sharedQueue_writeU32 m (by omega) 0
  have hnext : ∀ mem', (sharedQueue m).writeU16 mem' (0x2000 + 2) (((n + 1) % 2 ^ 16 + 1) % 2 ^ 16) =
      some (writeBytes mem' (0x2000 + 2) (leBytes 2 (((n + 1) % 2 ^ 16 + 1) % 2 ^ 16))) :=
    fun mem' => sharedQueue_writeU16 m (by decide) _
  have hpush : ((sharedQueue m).pushUsed mem 0 0).1 =
      writeBytes (writeBytes (writeBytes mem entry (leBytes 4 0)) (entry + 4) (leBytes 4 0)) (0x2000 + 2)
        (leBytes 2 (((n + 1) % 2 ^ 16 + 1) % 2 ^ 16)) := by
    simp only [sharedQueue] at hidx hid hlen hnext
    simp only [Virtqueue.pushUsed, sharedQueue, hidx, hentry, hid, hlen, hnext, Bool.not_true, Bool.or_self,
      Bool.false_eq_true, if_false]
  rw [hpush]
  constructor
  · rw [word16_writeBytes]
    omega
  · intro a ha ha'
    rw [writeBytes_outside (by rw [leBytes_length]; omega), hzeros]
    exact writeBytes_zero (writeBytes_zero (h.zero a ha ha') 4) 4

theorem sharedQueue_iterate (net : Net.VirtioNet) (h : OneAhead n mem) :
    ∃ mem', (LoopState.mk net (sharedQueue n) mem).iterate Net.device 1 =
        some ⟨net, sharedQueue ((n + 1) % 2 ^ 16), mem'⟩ ∧ OneAhead (n + 1) mem' := by
  have hchain : Net.device.processDescriptorChain net mem 1 ⟨0, [⟨0, 0, 0, 0⟩]⟩ (sharedQueue ((n + 1) % 2 ^ 16)) =
      (0, net, mem) := by
    rfl
  refine ⟨_, ?_, h.pushUsed ((n + 1) % 2 ^ 16)⟩
  simp only [LoopState.iterate, h.popAvail_eq, Option.map_some, hchain]

theorem sharedQueue_after (net : Net.VirtioNet) (k : Nat) (h : OneAhead n mem) :
    (LoopState.mk net (sharedQueue n) mem).after Net.device 1 k ≠ none := by
  induction k generalizing n mem with
  | zero => exact Option.some_ne_none _
  | succ k ih =>
    obtain ⟨mem', hiterate, hmem'⟩ := sharedQueue_iterate net h
    rw [LoopState.after, hiterate, Option.bind_some]
    apply ih
    exact ⟨by rw [hmem'.idx]; omega, hmem'.zero⟩

end Shared

def registerWrite (offset : Nat) (bytes : List UInt8) : TransportOp Net.VirtioNet := .write 0 (fun _ => 0) offset bytes

def placeRings (used : UInt8) : List (TransportOp Net.VirtioNet) :=
  [registerWrite 0x030 [1, 0, 0, 0], registerWrite 0x080 [0x00, 0x10, 0, 0], registerWrite 0x090 [0x00, 0x20, 0, 0],
    registerWrite 0x0a0 [0x00, used, 0, 0], registerWrite 0x044 [1, 0, 0, 0]]

def netTransport : MmioTransport Net.VirtioNet := .fresh Net.device ⟨[]⟩ 5 ⟨true, 0x10000, 0, 0⟩

theorem placeRings_run {used : UInt8} {vq : Virtqueue} (h : used = 0x20 ∧ vq = sharedQueue 0 ∨ used = 0x30 ∧ vq = apartQueue) :
    ∃ t, Steps (fun t op t' => t.perform op = some t') netTransport (placeRings used) t ∧
      t.ops = Net.device ∧ t.device = ⟨[]⟩ ∧ t.virtqueues[1]? = some vq := by
  rcases h with ⟨rfl, rfl⟩ | ⟨rfl, rfl⟩
  · exact ⟨_, .cons rfl (.cons rfl (.cons rfl (.cons rfl (.cons rfl (.nil _))))), rfl, rfl, rfl⟩
  · exact ⟨_, .cons rfl (.cons rfl (.cons rfl (.cons rfl (.cons rfl (.nil _))))), rfl, rfl, rfl⟩

theorem processQueueDescriptors_ends_fails :
    ∃ t, Steps (fun t op t' => t.perform op = some t') netTransport (placeRings 0x20) t ∧
      ∀ fuel, t.processQueueDescriptors fuel (fun a => if a = 0x2002 then 1 else 0) 1 = none := by
  obtain ⟨t, hrun, hops, hdevice, hvq⟩ := placeRings_run (.inl ⟨rfl, rfl⟩)
  refine ⟨t, hrun, fun fuel => ?_⟩
  have hahead : OneAhead 0 fun a => if a = 0x2002 then 1 else 0 := by
    refine ⟨by decide, fun a ha _ => if_neg ha⟩
  have hloop : MmioTransport.processLoop Net.device 1 fuel ⟨[]⟩ (sharedQueue 0)
      (fun a => if a = 0x2002 then 1 else 0) false = none :=
    (processLoop_eq_none fuel (LoopState.mk (Net.VirtioNet.mk []) (sharedQueue 0) _) false).mpr
      (sharedQueue_after ⟨[]⟩ fuel hahead)
  have hready : (sharedQueue 0).ready = true := rfl
  simp only [MmioTransport.processQueueDescriptors, hvq, hops, hdevice, hready, hloop, Bool.not_true,
    Bool.false_eq_true, if_false, Option.map_none]

def twoPending : ByteStore := fun a => if a = 0x2002 then 2 else if a = 0x2006 then 1 else 0

theorem apartQueue_mapped {gpa len : Nat} (h : gpa + len ≤ 0x10000) : apartQueue.Mapped gpa len gpa := by
  apply Virtqueue.Mapped.withoutHole rfl rfl _ h
  change 0x10000 < 2 ^ 64
  decide

def apartRings : Rings apartQueue where
  desc := 0x1000
  avail := 0x2000
  used := 0x3000
  descMapped := apartQueue_mapped (by decide)
  availMapped := apartQueue_mapped (by decide)
  usedMapped := apartQueue_mapped (by decide)
  descAvail := .inl (by decide)
  descUsed := .inl (by decide)
  availUsed := .inl (by decide)

theorem twoPending_walk {head : Nat} {descs : List Descriptor} (h : apartQueue.walk twoPending 256 head = some descs) :
    descs = [⟨0, 0, 0, 0⟩] := by
  have hzero : ∀ a, 0x1000 ≤ a → a < 0x1000 + 16 * 256 → twoPending a = 0 := by
    intro a _ ha
    rw [twoPending, if_neg (by omega), if_neg (by omega)]
  rw [Virtqueue.walk] at h
  split at h
  · cases h
  · rename_i hhead
    rw [readDescriptor_zero apartRings.descMapped hzero (Nat.lt_of_not_le hhead)] at h
    exact (Option.some.inj h).symm

theorem processQueueDescriptors_ends_two :
    ∃ t, Steps (fun t op t' => t.perform op = some t') netTransport (placeRings 0x30) t ∧
      (∃ s, (LoopState.mk t.device apartQueue twoPending).after t.ops 1 2 = some s ∧ word16 s.mem 0x3002 = 2) ∧
      ∃ fuel, t.processQueueDescriptors fuel twoPending 1 ≠ none := by
  obtain ⟨t, hrun, hops, hdevice, hvq⟩ := placeRings_run (.inr ⟨rfl, rfl⟩)
  refine ⟨t, hrun, ?_, (@processQueueDescriptors_ends_iff _ Net.device .net rfl ⟨[]⟩ 5 ⟨true, 0x10000, 0, 0⟩
    (placeRings 0x30) t hrun twoPending 1).2.mpr ?_⟩
  · rw [hops, hdevice]
    exact ⟨_, rfl, by decide⟩
  · intro vq hvq' hready
    cases hvq.symm.trans hvq'
    rw [hops, hdevice]
    refine LoopState.stopsRewriting_of_rings apartRings (fun _ _ _ _ _ _ _ => rfl) ?_ _
    intro head descs hwalk desc hdesc hwrite
    rw [twoPending_walk hwalk, List.mem_singleton] at hdesc
    subst hdesc
    exact absurd rfl hwrite

end CloneVmm.Virtio
