import CloneVmm.Virtio.TransportRuns

namespace CloneVmm.Virtio

open CloneVmm.Lib

variable {δ : Type} {t t' : MmioTransport δ}

def MmioTransport.Agree (t : MmioTransport δ) : Prop :=
  ∀ (i : Nat) (q : QueueState) (vq : Virtqueue),
    t.queues[i]? = some q → t.virtqueues[i]? = some vq → q.ready → vq.size = q.size

def RegisterOk (reg : Reg) (val : Nat) (q : QueueState) : Prop :=
  match reg with
  | .queueReady => val = 1 → q.size = q.maxSize
  | .queueNum => q.ready → val ≤ q.maxSize → val = q.maxSize
  | _ => True

def SizeOk (t : MmioTransport δ) : TransportOp δ → Prop
  | .write _ _ offset data =>
    offset < configSpace → data.length = 4 →
      ∀ q, t.queues[t.queueSel]? = some q → RegisterOk (.ofOffset offset) (leNat data) q
  | .injectRx .. => True
  | .restore .. => True

structure Shaped (t : MmioTransport δ) : Prop where
  queues : t.queues.map QueueState.maxSize = t.ops.queueMaxSizes
  virtqueues : t.virtqueues.map Virtqueue.size = t.ops.queueMaxSizes

theorem Shaped.length_eq (h : Shaped t) : t.virtqueues.length = t.queues.length := by
  simpa using congrArg List.length (h.virtqueues.trans h.queues.symm)

def AtMaximum (q : QueueState) : Prop := q.ready → q.size = q.maxSize

theorem Shaped.agree_iff (h : Shaped t) : t.Agree ↔ ∀ q ∈ t.queues, AtMaximum q := by
  have hsize : ∀ (i : Nat) (q : QueueState) (vq : Virtqueue),
      t.queues[i]? = some q → t.virtqueues[i]? = some vq → vq.size = q.maxSize := by
    intro i q vq hq hvq
    have hmax := congrArg (fun l : List Nat => l[i]?) (h.queues.trans h.virtqueues.symm)
    simp only [List.getElem?_map, hq, hvq, Option.map_some, Option.some.injEq] at hmax
    exact hmax.symm
  have hlen := h.length_eq
  constructor
  · intro hagree q hq hready
    obtain ⟨i, hi, rfl⟩ := List.getElem_of_mem hq
    have hvq : t.virtqueues[i]? = some t.virtqueues[i] := List.getElem?_eq_getElem (by omega)
    have hqi : t.queues[i]? = some t.queues[i] := List.getElem?_eq_getElem hi
    rw [← hagree i _ _ hqi hvq hready, hsize i _ _ hqi hvq]
  · intro hmax i q vq hq hvq hready
    rw [hsize i q vq hq hvq, hmax q (List.mem_of_getElem? hq) hready]

theorem mem_modify_iff (l : List QueueState) (i : Nat) (f : QueueState → QueueState) (P : QueueState → Prop)
    (hP : ∀ q ∈ l, P q) : (∀ q ∈ l.modify i f, P q) ↔ ∀ q, l[i]? = some q → P (f q) := by
  constructor
  · intro h q hq
    apply h
    apply List.mem_of_getElem? (i := i)
    rw [List.getElem?_modify_eq, hq]
    rfl
  · intro h q hq
    obtain ⟨j, hj⟩ := List.getElem?_of_mem hq
    by_cases hij : i = j
    · subst hij
      rw [List.getElem?_modify_eq] at hj
      obtain ⟨q', hq', rfl⟩ := Option.map_eq_some_iff.mp hj
      exact h q' hq'
    · rw [List.getElem?_modify_ne f l hij] at hj
      exact hP q (List.mem_of_getElem? hj)

theorem Writes.sizes {queues : List QueueState} (hw : Writes t t' queues) :
    t'.virtqueues.map Virtqueue.size = t.virtqueues.map Virtqueue.size := by
  have hfst := congrArg (List.map Prod.fst) hw.shapes
  rw [List.map_map, List.map_map] at hfst
  exact hfst

theorem fresh_sizes (ops : VirtioDevice δ) (device : δ) (irq : Nat) (layout : GuestLayout) :
    (MmioTransport.fresh ops device irq layout).virtqueues.map Virtqueue.size = ops.queueMaxSizes := by
  have hfst := congrArg (List.map Prod.fst) (fresh_shapes ops device irq layout)
  rw [List.map_map, List.map_map] at hfst
  exact hfst.trans (List.map_id _)

theorem Shaped.fresh (ops : VirtioDevice δ) (device : δ) (irq : Nat) (layout : GuestLayout) :
    Shaped (MmioTransport.fresh ops device irq layout) where
  queues := by
    simp only [MmioTransport.fresh, MmioTransport.setGuestMemoryWithHole, MmioTransport.newWithMem,
      List.map_map]
    exact List.map_id'' (fun _ => rfl) _
  virtqueues := fresh_sizes ops device irq layout

theorem queuesAfter_maxSize (t : MmioTransport δ) (reg : Reg) (val : Nat) :
    (queuesAfter t reg val).map QueueState.maxSize = t.queues.map QueueState.maxSize := by
  have hkeep (f : QueueState → QueueState) (hf : ∀ q, (f q).maxSize = q.maxSize) :
      (t.modifyQueue f).queues.map QueueState.maxSize = t.queues.map QueueState.maxSize :=
    map_modify_of_eq _ f hf _ _
  cases reg with
  | queueNum =>
    apply hkeep
    intro q
    split <;> rfl
  | status =>
    simp only [queuesAfter]
    split
    · simp only [MmioTransport.resetTransport, List.map_map]
      rfl
    · rfl
  | queueReady => apply hkeep; intro q; rfl
  | queueDescLow => apply hkeep; intro q; rfl
  | queueDescHigh => apply hkeep; intro q; rfl
  | queueAvailLow => apply hkeep; intro q; rfl
  | queueAvailHigh => apply hkeep; intro q; rfl
  | queueUsedLow => apply hkeep; intro q; rfl
  | queueUsedHigh => apply hkeep; intro q; rfl
  | _ => rfl

theorem Shaped.of_writes (h : Shaped t) {queues : List QueueState} (hw : Writes t t' queues)
    (hmax : queues.map QueueState.maxSize = t.queues.map QueueState.maxSize) : Shaped t' where
  queues := by rw [hw.queues, hmax, hw.ops, h.queues]
  virtqueues := by rw [hw.sizes, hw.ops, h.virtqueues]

theorem queuesAfter_atMaximum (t : MmioTransport δ) (reg : Reg) (val : Nat)
    (h : ∀ q ∈ t.queues, AtMaximum q) :
    (∀ q ∈ queuesAfter t reg val, AtMaximum q) ↔
      ∀ q, t.queues[t.queueSel]? = some q → RegisterOk reg val q := by
  have hsame (f : QueueState → QueueState) (hf : ∀ q, AtMaximum q → AtMaximum (f q)) :
      (∀ q ∈ (t.modifyQueue f).queues, AtMaximum q) ↔
        ∀ q, t.queues[t.queueSel]? = some q → True := by
    rw [MmioTransport.modifyQueue, mem_modify_iff _ _ _ _ h]
    exact ⟨fun _ _ _ => trivial, fun _ q hq => hf q (h q (List.mem_of_getElem? hq))⟩
  cases reg with
  | queueNum =>
    rw [queuesAfter, MmioTransport.writeQueueNum, MmioTransport.modifyQueue, mem_modify_iff _ _ _ _ h]
    apply forall_congr'
    intro q
    apply imp_congr_right
    intro hq
    have hmax := h q (List.mem_of_getElem? hq)
    by_cases hval : val ≤ q.maxSize
    · simp [AtMaximum, RegisterOk, hval]
    · simp only [RegisterOk, hval, if_false]
      exact ⟨fun _ _ hle => hle.elim, fun _ => hmax⟩
  | queueReady =>
    rw [queuesAfter, mem_modify_iff _ _ _ _ h]
    apply forall_congr'
    intro q
    simp [AtMaximum, RegisterOk]
  | status =>
    rw [queuesAfter]
    split
    · simp [MmioTransport.resetTransport, AtMaximum, RegisterOk]
    · exact ⟨fun _ _ _ => trivial, fun _ => h⟩
  | queueDescLow => exact hsame _ fun _ hq => hq
  | queueDescHigh => exact hsame _ fun _ hq => hq
  | queueAvailLow => exact hsame _ fun _ hq => hq
  | queueAvailHigh => exact hsame _ fun _ hq => hq
  | queueUsedLow => exact hsame _ fun _ hq => hq
  | queueUsedHigh => exact hsame _ fun _ hq => hq
  | _ => exact ⟨fun _ _ _ => trivial, fun _ => h⟩

theorem Shaped.perform (h : Shaped t) {op : TransportOp δ} (hop : t.perform op = some t') :
    Shaped t' := by
  cases op with
  | write fuel mem offset data =>
    obtain ⟨⟨t', mem'⟩, hwrite, rfl⟩ := Option.map_eq_some_iff.mp hop
    apply h.of_writes (write_writes hwrite)
    split
    · exact queuesAfter_maxSize t _ _
    · rfl
  | injectRx mem frame =>
    cases hop
    exact h.of_writes (injectRxFrame_writes t mem frame) rfl
  | restore mem device irq layout =>
    obtain ⟨⟨t', mem'⟩, hrestore, rfl⟩ := Option.map_eq_some_iff.mp hop
    have hw := restoreState_writes hrestore
    constructor
    · rw [hw.queues, hw.ops]
      exact h.queues
    · rw [hw.sizes, hw.ops]
      exact fresh_sizes _ _ _ _

theorem Shaped.perform_agree_iff (h : Shaped t) {op : TransportOp δ} (hop : t.perform op = some t')
    (hagree : t.Agree) : t'.Agree ↔ SizeOk t op := by
  have hmax := h.agree_iff.mp hagree
  rw [(h.perform hop).agree_iff]
  cases op with
  | write fuel mem offset data =>
    obtain ⟨⟨t', mem'⟩, hwrite, rfl⟩ := Option.map_eq_some_iff.mp hop
    have hw := write_writes hwrite
    rw [hw.queues]
    by_cases hreg : offset < configSpace ∧ data.length = 4
    · rw [if_pos hreg, queuesAfter_atMaximum t _ _ hmax]
      exact ⟨fun hok _ _ => hok, fun hok => hok hreg.1 hreg.2⟩
    · rw [if_neg hreg]
      exact ⟨fun _ hlt hlen => absurd ⟨hlt, hlen⟩ hreg, fun _ => hmax⟩
  | injectRx mem frame =>
    cases hop
    rw [(injectRxFrame_writes t mem frame).queues]
    exact ⟨fun _ => trivial, fun _ => hmax⟩
  | restore mem device irq layout =>
    obtain ⟨⟨t', mem'⟩, hrestore, rfl⟩ := Option.map_eq_some_iff.mp hop
    have hw := restoreState_writes hrestore
    rw [hw.queues]
    exact ⟨fun _ => trivial, fun _ => hmax⟩

/-- The sizes agree in every state of a run exactly when all its operations meet `SizeOk`. -/
theorem queueSize_agree_iff (ops : VirtioDevice δ) (device : δ) (irq : Nat) (layout : GuestLayout)
    (run : List (TransportOp δ)) (t : MmioTransport δ) :
    Steps (fun t op t' => t.perform op = some t' ∧ t'.Agree)
        (.fresh ops device irq layout) run t ↔
      Steps (fun t op t' => t.perform op = some t' ∧ SizeOk t op)
        (.fresh ops device irq layout) run t := by
  have hshaped := Shaped.fresh ops device irq layout
  have hshape : ∀ (t : MmioTransport δ) op t', t.perform op = some t' → Shaped t → Shaped t' :=
    fun _ _ _ hop h => h.perform hop
  have hagree : ∀ (t : MmioTransport δ) op t', t.perform op = some t' → Shaped t → t.Agree →
      (t'.Agree ↔ SizeOk t op) := fun _ _ _ hop h hagree => h.perform_agree_iff hop hagree
  apply Steps.iff_of_step hshape hagree hshaped
  rw [hshaped.agree_iff]
  intro q hq hready
  obtain ⟨maxSize, -, rfl⟩ := List.mem_map.mp hq
  cases hready

def idleDevice : VirtioDevice Unit where
  deviceType := 2
  queueMaxSizes := [256]
  features := fun _ _ => 0
  ackFeatures := fun _ _ _ => ()
  readConfig := fun _ _ len => List.replicate len 0
  writeConfig := fun _ _ _ => ()
  activate := fun _ mem => (true, (), mem)
  processQueue := fun _ mem _ => ((), mem)
  processDescriptorChain := fun _ mem _ _ _ => (0, (), mem)
  transportProcessesQueue := fun _ _ => true
  prepareActivate := fun _ _ _ _ _ => ()
  setMemoryHole := fun _ _ _ => ()
  reset := fun _ => ()
  snapshotState := fun _ => []
  restoreState := fun _ _ => some ()

theorem queueSize_agree_fails :
    ¬ ∀ run t, Steps (fun (t : MmioTransport Unit) op t' => t.perform op = some t')
      (.fresh idleDevice () 5 ⟨true, 4096, 0, 0⟩) run t → t.Agree := by
  intro h
  have hrun : Steps (fun (t : MmioTransport Unit) op t' => t.perform op = some t')
      (.fresh idleDevice () 5 ⟨true, 4096, 0, 0⟩)
      [.write 1 (fun _ => 0) 0x038 [128, 0, 0, 0], .write 1 (fun _ => 0) 0x044 [1, 0, 0, 0]] _ :=
    .cons rfl (.cons rfl (.nil _))
  have hsize := h _ _ hrun 0 _ _ rfl rfl rfl
  exact absurd hsize (by decide)

end CloneVmm.Virtio
