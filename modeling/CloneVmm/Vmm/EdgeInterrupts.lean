import CloneVmm.Vmm.RunLoop

namespace CloneVmm.Vmm

open CloneVmm.Lib CloneVmm.Virtio

namespace Serial

variable {s : Serial}

theorem Consistent.interruptPending_iff (h : Consistent s) :
    s.interruptPending = true ↔ s.ier &&& 0x01 ≠ 0 ∧ s.inputBuffer ≠ [] ∨ s.ier &&& 0x02 ≠ 0 := by
  have hbit : s.iir &&& 0x01 = s.pendingInterrupt &&& 0x01 := by
    rw [← h.iir, UInt8.and_assoc]
    rfl
  rw [Serial.interruptPending, beq_iff_eq, hbit, pendingInterrupt]
  split
  · rename_i hinput
    exact iff_of_true rfl (.inl hinput)
  · rename_i hinput
    split
    · rename_i hempty
      exact iff_of_true rfl (.inr hempty)
    · rename_i hempty
      exact iff_of_false (by decide) (not_or.mpr ⟨hinput, hempty⟩)

theorem read_ier (portOffset : Nat) : (s.read portOffset).2.ier = s.ier := by
  unfold read readData updateIir
  grind

theorem enqueueInput_ier (byte : UInt8) : (s.enqueueInput byte).ier = s.ier := by
  unfold enqueueInput updateIir
  grind

theorem Consistent.read_rise (h : Consistent s) (portOffset : Nat)
    (hrise : (s.read portOffset).2.interruptPending = true) : s.interruptPending = true := by
  rw [(h.read portOffset).interruptPending_iff, read_ier] at hrise
  rw [h.interruptPending_iff]
  refine hrise.imp_left fun hinput => ⟨hinput.1, fun hempty => hinput.2 ?_⟩
  rw [read_inputBuffer, hempty]
  split <;> rfl

theorem Consistent.input_rise (h : Consistent s) {byte : UInt8} (hbefore : ¬ s.interruptPending = true)
    (hrise : (s.enqueueInput byte).interruptPending = true) : (s.enqueueInput byte).interruptEnabled = true := by
  rw [(h.enqueueInput byte).interruptPending_iff] at hrise
  rw [h.interruptPending_iff, not_or] at hbefore
  rw [interruptEnabled, bne_iff_ne]
  rcases hrise with hinput | hempty
  · exact hinput.1
  · rw [enqueueInput_ier] at hempty
    exact absurd hempty hbefore.2

end Serial

theorem PortStep.consistent {p p' : Port} {a : PortEvent} (h : PortStep p a p') (hp : p.serial.Consistent) :
    p'.serial.Consistent := by
  cases h with
  | read offset => exact hp.read offset
  | write offset byte => exact hp.write offset byte
  | input byte => exact hp.enqueueInput byte
  | flush => exact ⟨hp.iir, hp.dlab, hp.ready, hp.ier⟩

inductive Source
  | com1
  | device (i : Nat)

namespace Devices

variable {δ : Type}

def Asserts (d : Devices δ) : Source → Prop
  | .com1 => d.serial.interruptPending = true
  | .device i => ∃ t, d.mmioBus.devices[i]? = some t ∧ t.interruptStatus ≠ 0

def line (d : Devices δ) : Source → Option Nat
  | .com1 => some 4
  | .device i => d.mmioBus.devices[i]?.map MmioTransport.irq

end Devices

section Rise

variable {δ : Type} {n m : Nat} {s t u v : Vm δ n m} {a : Event n m}

theorem VmStep.consistent (h : VmStep s a t) (hs : s.devices.serial.Consistent) : t.devices.serial.Consistent := by
  have hport := h.port
  cases hlabel : a.port with
  | none =>
    rw [hlabel] at hport
    have hsame : t.devices.serial = s.devices.serial := congrArg Port.serial hport
    rwa [hsame]
  | some b =>
    rw [hlabel] at hport
    exact PortStep.consistent hport hs

theorem handleWrite_rise {bus bus' : MmioBus δ} {mem mem' : ByteStore} {addr fuel : Nat} {data : List UInt8}
    {irq : Option Nat} {i : Nat} (h : bus.handleWrite fuel mem addr data = some (bus', mem', true, irq))
    (hbefore : ¬ ∃ t, bus.devices[i]? = some t ∧ t.interruptStatus ≠ 0)
    (hafter : ∃ t, bus'.devices[i]? = some t ∧ t.interruptStatus ≠ 0) :
    irq = bus.devices[i]?.map MmioTransport.irq ∧ irq ≠ none := by
  unfold MmioBus.handleWrite at h
  dsimp only at h
  split at h
  · cases h
  · split at h
    · cases h
    · rename_i transport htransport
      obtain ⟨⟨transport', mem''⟩, -, heq⟩ := Option.map_eq_some_iff.mp h
      cases heq
      obtain ⟨t, ht, hstatus⟩ := hafter
      dsimp only at ht
      by_cases hi : (addr - mmioBase) / mmioStride = i
      · subst hi
        have hlt : (addr - mmioBase) / mmioStride < bus.devices.length := (List.getElem?_eq_some_iff.mp htransport).1
        rw [List.getElem?_set_self hlt] at ht
        cases ht
        have hidle : transport.interruptStatus = 0 := by
          by_contra hbusy
          exact hbefore ⟨transport, htransport, hbusy⟩
        rw [if_pos ⟨hstatus, hidle⟩, htransport]
        exact ⟨rfl, Option.some_ne_none _⟩
      · rw [List.getElem?_set_ne hi] at ht
        exact absurd ⟨t, ht, hstatus⟩ hbefore

theorem VmStep.rise (h : VmStep u a v) (hconsistent : u.devices.serial.Consistent) {source : Source}
    (hbefore : ¬ u.devices.Asserts source) (hafter : v.devices.Asserts source) :
    ∃ irq thread, u.devices.line source = some irq ∧ v.owed thread = some irq := by
  cases h with
  | @exit k e fuel pread r _ _ hperform =>
    suffices hrise : ∃ irq, u.devices.line source = some irq ∧ r.irq = some irq by
      obtain ⟨irq, hline, hirq⟩ := hrise
      refine ⟨irq, .inl k, hline, ?_⟩
      dsimp only
      rw [Function.update_self, hirq]
    cases Exited.of_perform hperform with
    | com1In port data value serial hread =>
      cases source with
      | device i => exact absurd hafter hbefore
      | com1 =>
        have hserial : (u.devices.serial.read (port - com1PortBase)).2 = serial := by rw [hread]
        have hpending : serial.interruptPending = true := hafter
        rw [← hserial] at hpending
        exact absurd (hconsistent.read_rise _ hpending) hbefore
    | com1Out port data flushed serial hwrite =>
      cases source with
      | device i => exact absurd hafter hbefore
      | com1 => exact ⟨4, rfl, if_pos hafter⟩
    | mmioOut addr data fuel mmioBus mem irq hwrite =>
      cases source with
      | com1 => exact absurd hafter hbefore
      | device i =>
        obtain ⟨hirq, hsome⟩ := handleWrite_rise hwrite hbefore hafter
        obtain ⟨line, hline⟩ := Option.ne_none_iff_exists'.mp hsome
        exact ⟨line, hirq.symm.trans hline, hline⟩
    | ownIn | ownOut | pciIn | pciOut | mmioIn | shutdown | nothing =>
      cases source with
      | com1 => exact absurd hafter hbefore
      | device i => exact absurd hafter hbefore
  | @input i byte _ =>
    cases source with
    | device j => exact absurd hafter hbefore
    | com1 =>
      refine ⟨4, .inr i, rfl, ?_⟩
      dsimp only
      rw [Function.update_self, if_pos (hconsistent.input_rise hbefore hafter)]
  | stop | pull | store =>
    cases source with
    | com1 => exact absurd hafter hbefore
    | device i => exact absurd hafter hbefore

theorem VmStep.owed {thread : Fin n ⊕ Fin m} {irq : Nat} (h : VmStep s a t) (howed : s.owed thread = some irq) :
    a = .pull thread irq ∨ t.owed thread = some irq := by
  have hother : ∀ (other : Fin n ⊕ Fin m) (x : Option Nat), s.owed other = none →
      Function.update s.owed other x thread = some irq := by
    intro other x hnone
    have hne : thread ≠ other := by
      rintro rfl
      rw [howed] at hnone
      cases hnone
    rw [Function.update_of_ne hne, howed]
  cases h with
  | exit fuel pread _ hnone _ => exact .inr (hother _ _ hnone)
  | input hnone => exact .inr (hother _ _ hnone)
  | @pull other irq' howed' =>
    by_cases hsame : other = thread
    · subst hsame
      cases Option.some.inj (howed'.symm.trans howed)
      exact .inl rfl
    · refine .inr ?_
      dsimp only
      rw [Function.update_of_ne (Ne.symm hsame), howed]
  | stop | store => exact .inr howed

end Rise

theorem edge_not_lost {δ : Type} {n m : Nat} {s t : Vm δ n m} (hs : s.devices.serial.Consistent)
    {before after : List (Event n m)} {a : Event n m} (hrun : Steps VmStep s (before ++ a :: after) t) :
    ∃ u v, Steps VmStep s before u ∧ VmStep u a v ∧ Steps VmStep v after t ∧
      ∀ source, ¬ u.devices.Asserts source → v.devices.Asserts source →
        ∃ irq thread, u.devices.line source = some irq ∧
          (Event.pull thread irq ∈ after ∨ t.owed thread = some irq) := by
  obtain ⟨u, v, hbefore, hstep, hafter⟩ := hrun.split
  refine ⟨u, v, hbefore, hstep, hafter, fun source hidle hasserts => ?_⟩
  have hconsistent : u.devices.serial.Consistent :=
    Steps.invariant (P := fun w => w.devices.serial.Consistent) (fun _ _ _ hstep h => hstep.consistent h) hbefore hs
  obtain ⟨irq, thread, hline, howed⟩ := hstep.rise hconsistent hidle hasserts
  refine ⟨irq, thread, hline, ?_⟩
  have hpaid := @Steps.paid_or_owed _ _ VmStep v t after (fun w => w.owed thread = some irq)
    (fun b => b = .pull thread irq) (fun _ _ _ hstep howed => hstep.owed howed) hafter howed
  exact hpaid.imp_left fun ⟨b, hb, hpull⟩ => hpull ▸ hb

def enableInput (i : Fin 2) : Outcome Unit := idleVm.devices.ioOut (idleVm.vcpus i) 0x3F9 [1]

def listeningVm (i : Fin 2) : Vm Unit 2 1 where
  devices := (enableInput i).devices
  vcpus := Function.update idleVm.vcpus i (enableInput i).vcpu
  running := Function.update idleVm.running i (enableInput i).running
  owed := Function.update idleVm.owed (.inl i) (enableInput i).irq

theorem listeningVm_step (i : Fin 2) : VmStep idleVm (.exit i (.ioOut 0x3F9 [1]) [] .com1) (listeningVm i) :=
  .exit (r := enableInput i) i (fun _ _ _ => none) rfl rfl rfl

theorem edge_not_lost_input : ∃ v s : Vm Unit 2 1,
    VmStep (listeningVm 0) (.input 0 65) v ∧ Steps VmStep v [.pull (.inr 0) 4] s ∧
      ¬ (listeningVm 0).devices.Asserts .com1 ∧ v.devices.Asserts .com1 ∧
      ∃ irq thread, (listeningVm 0).devices.line .com1 = some irq ∧
        (Event.pull thread irq ∈ [Event.pull (.inr 0) 4] ∨ s.owed thread = some irq) := by
  have hrun : Steps VmStep (listeningVm 0) ([] ++ .input 0 65 :: [.pull (.inr 0) 4]) _ :=
    .cons (.input rfl) (.cons (.pull rfl) (.nil _))
  have hconsistent := (listeningVm_step 0).consistent Serial.consistent_new
  obtain ⟨u, v, hbefore, hstep, hafter, hline⟩ := edge_not_lost hconsistent hrun
  cases hbefore
  have hidle : ¬ (listeningVm 0).devices.Asserts .com1 := Bool.false_ne_true
  have hasserts : v.devices.Asserts .com1 := by
    cases hstep
    rfl
  exact ⟨v, _, hstep, hafter, hidle, hasserts, hline .com1 hidle hasserts⟩

end CloneVmm.Vmm
