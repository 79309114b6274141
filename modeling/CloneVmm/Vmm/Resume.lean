import CloneVmm.Virtio.BlockSnapshot
import CloneVmm.Vmm.RunLoop

namespace CloneVmm.Vmm

open CloneVmm.Lib CloneVmm.Virtio

variable {δ F : Type} {n m : Nat}

structure SavedVm where
  memory : ByteStore
  transports : List (List UInt8)
  serial : List UInt8

/-- The vCPUs are stopped between two exits, and the locks of the devices are free. -/
def Vm.save (serde : SerdeState) (serdeValue : SerdeValue F) (s : Vm δ n m) : SavedVm where
  memory := s.devices.mem
  transports := s.devices.mmioBus.snapshotAll.map serde.toVec
  serial := s.devices.serial.snapshotState serdeValue

def Vcpu.fromTemplate : Vcpu := ⟨0, Vector.replicate 8 0⟩

def Vm.restoreBoot (serde : SerdeState) (serdeValue : SerdeValue F) (registered : List (MmioTransport δ)) (saved : SavedVm) :
    Option (Vm δ n m) :=
  (MmioBus.restoreAllFromJson serde registered saved.transports saved.memory).map fun (devices, mem) =>
    { devices :=
        { serial := Serial.new.restoreState serdeValue saved.serial
          output := []
          pciBus := none
          mmioBus := ⟨devices⟩
          mem }
      vcpus := fun _ => .fromTemplate
      running := fun _ => true
      owed := fun _ => none }

structure Devices.Alike (d d' : Devices δ) : Prop where
  serial : d.serial.forgetOutput = d'.serial.forgetOutput
  pciBus : d.pciBus = d'.pciBus
  mmioBus : d.mmioBus.Alike d'.mmioBus
  mem : d.mem = d'.mem

structure Outcome.Alike (r r' : Outcome δ) : Prop where
  devices : r.devices.Alike r'.devices
  target : r.target = r'.target
  answer : r.target ≠ .own → r.answer = r'.answer
  irq : r.irq = r'.irq
  running : r.running = r'.running

inductive Event.Alike : Event n m → Event n m → Prop
  | same (a : Event n m) : Alike a a
  | own (v : Fin n) (e : VcpuExit) (answer answer' : List UInt8) :
      Alike (.exit v e answer .own) (.exit v e answer' .own)

structure Vm.Alike (s s' : Vm δ n m) : Prop where
  devices : s.devices.Alike s'.devices
  running : s.running = s'.running
  owed : s.owed = s'.owed

section Serial

variable {s s' : Serial}

theorem Serial.read_alike (h : s.forgetOutput = s'.forgetOutput) (portOffset : Nat) :
    (s.read portOffset).1 = (s'.read portOffset).1 ∧
      (s.read portOffset).2.forgetOutput = (s'.read portOffset).2.forgetOutput := by
  have hs := Serial.read_forgetOutput s portOffset
  have hs' := Serial.read_forgetOutput s' portOffset
  rw [h, hs'] at hs
  obtain ⟨hvalue, hserial⟩ := Prod.mk.inj hs
  exact ⟨hvalue.symm, hserial.symm⟩

theorem Serial.write_alike (h : s.forgetOutput = s'.forgetOutput) (portOffset : Nat) (value : UInt8) :
    (s.write portOffset value).2.forgetOutput = (s'.write portOffset value).2.forgetOutput := by
  rw [← Serial.write_forgetOutput s, h, Serial.write_forgetOutput s']

theorem Serial.enqueueInput_alike (h : s.forgetOutput = s'.forgetOutput) (byte : UInt8) :
    (s.enqueueInput byte).forgetOutput = (s'.enqueueInput byte).forgetOutput := by
  rw [← Serial.enqueueInput_forgetOutput s, h, Serial.enqueueInput_forgetOutput s']

theorem Serial.interrupts_alike (h : s.forgetOutput = s'.forgetOutput) :
    s.interruptPending = s'.interruptPending ∧ s.interruptEnabled = s'.interruptEnabled :=
  ⟨congrArg (fun s => s.interruptPending) h, congrArg (fun s => s.interruptEnabled) h⟩

end Serial

section Exits

variable {d d' : Devices δ} (v v' : Vcpu)

theorem Devices.Alike.symm (h : d.Alike d') : d'.Alike d := ⟨h.serial.symm, h.pciBus.symm, h.mmioBus.symm, h.mem.symm⟩

theorem Devices.Alike.flushOutput (h : d.Alike d') : d.flushOutput.Alike d'.flushOutput :=
  ⟨h.serial, h.pciBus, h.mmioBus, h.mem⟩

theorem Devices.Alike.ioIn (h : d.Alike d') (port : Nat) (data : List UInt8) :
    (d.ioIn v port data).Alike (d'.ioIn v' port data) := by
  unfold Devices.ioIn
  by_cases hcom1 : IsCom1 port
  · rw [if_pos hcom1, if_pos hcom1]
    obtain ⟨hvalue, hserial⟩ := Serial.read_alike h.serial (port - com1PortBase)
    generalize d.serial.read (port - com1PortBase) = r at hvalue hserial ⊢
    generalize d'.serial.read (port - com1PortBase) = r' at hvalue hserial ⊢
    exact ⟨⟨hserial, h.pciBus, h.mmioBus, h.mem⟩, rfl, fun _ => congrArg (data.set 0) hvalue, rfl, rfl⟩
  · rw [if_neg hcom1, if_neg hcom1]
    split
    · exact ⟨h, rfl, fun hown => absurd rfl hown, rfl, rfl⟩
    · split
      · exact ⟨h, rfl, fun hown => absurd rfl hown, rfl, rfl⟩
      · exact ⟨h, rfl, fun _ => rfl, rfl, rfl⟩

theorem Devices.Alike.ioOut (h : d.Alike d') (port : Nat) (data : List UInt8) :
    (d.ioOut v port data).Alike (d'.ioOut v' port data) := by
  unfold Devices.ioOut
  dsimp only
  by_cases hcom1 : IsCom1 port
  · rw [if_pos hcom1, if_pos hcom1]
    have hserial := Serial.write_alike h.serial (port - com1PortBase) (data.headD 0)
    have hpending := (Serial.interrupts_alike hserial).1
    generalize d.serial.write (port - com1PortBase) (data.headD 0) = r at hserial hpending ⊢
    generalize d'.serial.write (port - com1PortBase) (data.headD 0) = r' at hserial hpending ⊢
    refine ⟨⟨hserial, h.pciBus, h.mmioBus, h.mem⟩, rfl, fun _ => rfl, ?_, rfl⟩
    dsimp only
    rw [hpending]
  · rw [if_neg hcom1, if_neg hcom1]
    split
    · exact ⟨h, rfl, fun _ => rfl, rfl, rfl⟩
    · split
      · exact ⟨h, rfl, fun _ => rfl, rfl, rfl⟩
      · split
        · exact ⟨h, rfl, fun _ => rfl, rfl, rfl⟩
        · exact ⟨h, rfl, fun _ => rfl, rfl, rfl⟩

theorem Devices.Alike.mmioRead (h : d.Alike d') (pread : Nat → Pci.Pread) (addr : UInt64) (data : List UInt8) :
    (d.mmioRead v pread addr data).Alike (d'.mmioRead v' pread addr data) := by
  unfold Devices.mmioRead
  rw [← h.pciBus, ← h.mmioBus.handleRead]
  split
  · exact ⟨h, rfl, fun _ => rfl, rfl, rfl⟩
  · split
    · exact ⟨h, rfl, fun _ => rfl, rfl, rfl⟩
    · exact ⟨h, rfl, fun _ => rfl, rfl, rfl⟩

theorem Devices.Alike.mmioWrite (h : d.Alike d') (fuel : Nat) (addr : UInt64) (data : List UInt8) :
    Option.Rel Outcome.Alike (d.mmioWrite v fuel addr data) (d'.mmioWrite v' fuel addr data) := by
  unfold Devices.mmioWrite
  rw [← h.pciBus, ← h.mem]
  split
  · exact .some ⟨⟨h.serial, rfl, h.mmioBus, rfl⟩, rfl, fun _ => rfl, rfl, rfl⟩
  · apply rel_map (h.mmioBus.handleWrite fuel d.mem addr.toNat data)
    rintro ⟨bus, mem, handled, irq⟩ ⟨bus', mem', handled', irq'⟩ ⟨hbus, hsame⟩
    cases hsame
    cases handled with
    | true => exact ⟨⟨h.serial, rfl, hbus, rfl⟩, rfl, fun _ => rfl, rfl, rfl⟩
    | false => exact ⟨h, rfl, fun _ => rfl, rfl, rfl⟩

theorem Devices.Alike.perform (h : d.Alike d') (fuel : Nat) (pread : Nat → Pci.Pread) (e : VcpuExit) :
    Option.Rel Outcome.Alike (d.perform v fuel pread e) (d'.perform v' fuel pread e) := by
  cases e with
  | ioIn port data => exact .some (h.ioIn v v' port data)
  | ioOut port data => exact .some (h.ioOut v v' port data)
  | mmioRead addr data => exact .some (h.mmioRead v v' pread addr data)
  | mmioWrite addr data => exact h.mmioWrite v v' fuel addr data
  | shutdown => exact .some ⟨h.flushOutput, rfl, fun _ => rfl, rfl, rfl⟩
  | hlt | debug | other | interrupted | failed => exact .some ⟨h, rfl, fun _ => rfl, rfl, rfl⟩

end Exits

theorem Event.Alike.symm {a b : Event n m} (h : a.Alike b) : b.Alike a := by
  cases h with
  | same => exact .same a
  | own v e answer answer' => exact .own v e answer' answer

namespace Vm

variable {s s' t : Vm δ n m} {a : Event n m}

theorem Alike.symm (h : s.Alike s') : s'.Alike s := ⟨h.devices.symm, h.running.symm, h.owed.symm⟩

theorem Alike.step (h : s.Alike s') (hstep : VmStep s a t) : ∃ b t', VmStep s' b t' ∧ a.Alike b ∧ t.Alike t' := by
  cases hstep with
  | @exit v e fuel pread r hrunning howed hperform =>
    obtain ⟨r', hperform', hr⟩ := exists_of_rel (h.devices.perform (s.vcpus v) (s'.vcpus v) fuel pread e) hperform
    rw [h.running] at hrunning
    rw [h.owed] at howed
    refine ⟨_, _, .exit fuel pread hrunning howed hperform', ?_, hr.devices, ?_, ?_⟩
    · rw [← hr.target]
      by_cases hown : r.target = .own
      · rw [hown]
        exact .own _ _ _ _
      · rw [hr.answer hown]
        exact .same _
    · dsimp only
      rw [h.running, hr.running]
    · dsimp only
      rw [h.owed, hr.irq]
  | @stop v hrunning howed =>
    rw [h.running] at hrunning
    rw [h.owed] at howed
    refine ⟨_, _, .stop hrunning howed, .same _, h.devices.flushOutput, ?_, h.owed⟩
    dsimp only
    rw [h.running]
  | @input i byte howed =>
    rw [h.owed] at howed
    have hserial := Serial.enqueueInput_alike h.devices.serial byte
    refine ⟨_, _, .input howed, .same _, ⟨hserial, h.devices.pciBus, h.devices.mmioBus, h.devices.mem⟩, h.running, ?_⟩
    dsimp only
    rw [h.owed, (Serial.interrupts_alike hserial).2]
  | @pull thread irq howed =>
    rw [h.owed] at howed
    refine ⟨_, _, .pull howed, .same _, h.devices, h.running, ?_⟩
    dsimp only
    rw [h.owed]
  | store mem =>
    exact ⟨_, _, .store mem, .same _, ⟨h.devices.serial, h.devices.pciBus, h.devices.mmioBus, rfl⟩, h.running, h.owed⟩

theorem Alike.run (h : s.Alike s') {run : List (Event n m)} (hrun : Steps VmStep s run t) :
    ∃ run' t', Steps VmStep s' run' t' ∧ List.Forall₂ Event.Alike run run' ∧ t.Alike t' :=
  hrun.simulate (fun _ _ _ _ hstep halike => halike.step hstep) h

def Registered (s : Vm δ n m) (layout : GuestLayout) : Prop := ∀ t ∈ s.devices.mmioBus.devices, t.Registered layout

/-- No vCPU has ended, no thread has a line to pull, and the devices have nothing left to do and can be written. -/
structure AtRest (s : Vm δ n m) (serde : SerdeState) : Prop where
  running : ∀ v, s.running v = true
  owed : ∀ thread, s.owed thread = none
  pciBus : s.devices.pciBus = none
  transports : ∀ t ∈ s.devices.mmioBus.devices, t.AtRest s.devices.mem
  reads : ∀ t ∈ s.devices.mmioBus.devices, serde.Reads t.snapshotState

variable {layout : GuestLayout} {serde : SerdeState} {serdeValue : SerdeValue F}

theorem Registered.handleWrite {bus bus' : MmioBus δ} {mem mem' : ByteStore} {fuel addr : Nat} {data : List UInt8}
    {handled : Bool} {irq : Option Nat} (h : ∀ t ∈ bus.devices, t.Registered layout)
    (hwrite : bus.handleWrite fuel mem addr data = some (bus', mem', handled, irq)) :
    ∀ t ∈ bus'.devices, t.Registered layout := by
  unfold MmioBus.handleWrite at hwrite
  dsimp only at hwrite
  split at hwrite
  · cases hwrite
    exact h
  · split at hwrite
    · cases hwrite
      exact h
    · rename_i t ht
      obtain ⟨⟨t', mem₁⟩, hregister, hresult⟩ := Option.map_eq_some_iff.mp hwrite
      cases hresult
      intro u hu
      rcases List.mem_or_eq_of_mem_set hu with hold | rfl
      · exact h u hold
      · exact (h t (List.mem_of_getElem? ht)).write hregister

theorem Registered.step (h : s.Registered layout) (hstep : VmStep s a t) : t.Registered layout := by
  cases hstep with
  | exit fuel pread _ _ hperform =>
    cases Exited.of_perform hperform with
    | mmioOut _ _ fuel mmioBus mem irq hwrite => exact Registered.handleWrite h hwrite
    | _ => exact h
  | _ => exact h

theorem Registered.run (h : s.Registered layout) {run : List (Event n m)} (hrun : Steps VmStep s run t) :
    t.Registered layout := by
  apply Steps.invariant (P := fun s => s.Registered layout) _ hrun h
  exact fun _ _ _ hstep hreg => hreg.step hstep

theorem AtRest.restored (hserial : Serial.Reads serdeValue) (hrest : s.AtRest serde) (hreg : s.Registered layout)
    {devices : List δ}
    (hdevices : List.Forall₂ (fun t device => t.Resumes layout s.devices.mem device) s.devices.mmioBus.devices devices) :
    ∃ r, Vm.restoreBoot serde serdeValue (MmioBus.registered layout s.devices.mmioBus.devices devices)
      (s.save serde serdeValue) = some r ∧ s.Alike r := by
  have htaken : List.Forall₂ (MmioBus.TakenUp serde layout s.devices.mem) s.devices.mmioBus.devices devices := by
    have hmem : ∀ t ∈ s.devices.mmioBus.devices,
        t.Registered layout ∧ t.AtRest s.devices.mem ∧ serde.Reads t.snapshotState :=
      fun t ht => ⟨hreg t ht, hrest.transports t ht, hrest.reads t ht⟩
    apply ((List.forall₂_and_left _ _).mpr ⟨hmem, hdevices⟩).imp
    rintro t device ⟨⟨hregistered, hatRest, hreads⟩, hresumes⟩
    exact ⟨hregistered, hatRest, hreads, hresumes⟩
  obtain ⟨transports, hrestore, halike⟩ := MmioBus.resumed htaken
  have hsaved : (s.save serde serdeValue).transports =
      s.devices.mmioBus.devices.map fun t => serde.toVec t.snapshotState := List.map_map
  refine ⟨_, Option.map_eq_some_iff.mpr ⟨(transports, s.devices.mem), ?_, rfl⟩, ⟨?_, hrest.pciBus, halike, rfl⟩, ?_, ?_⟩
  · rw [hsaved]
    exact hrestore
  · dsimp only [Vm.save]
    rw [Serial.restoreState_snapshotState hserial]
    rfl
  · exact funext hrest.running
  · exact funext hrest.owed

theorem restored_alike {booted : Vm δ n m} {before : List (Event n m)} {devices : List δ}
    (hserial : Serial.Reads serdeValue) (hbooted : booted.Registered layout) (hbefore : Steps VmStep booted before s)
    (hrest : s.AtRest serde)
    (hdevices : List.Forall₂ (fun t device => t.Resumes layout s.devices.mem device) s.devices.mmioBus.devices devices) :
    ∃ r, Vm.restoreBoot serde serdeValue (MmioBus.registered layout s.devices.mmioBus.devices devices)
      (s.save serde serdeValue) = some r ∧
      (∀ run t, Steps VmStep s run t →
        ∃ run' t', Steps VmStep r run' t' ∧ List.Forall₂ Event.Alike run run' ∧ t.Alike t') ∧
      ∀ run' t', Steps VmStep r run' t' →
        ∃ run t, Steps VmStep s run t ∧ List.Forall₂ Event.Alike run run' ∧ t.Alike t' := by
  obtain ⟨r, hrestore, halike⟩ := hrest.restored hserial (hbooted.run hbefore) hdevices
  refine ⟨r, hrestore, fun run t hrun => halike.run hrun, ?_⟩
  intro run' t' hrun'
  obtain ⟨run, t, hrun, hevents, hend⟩ := halike.symm.run hrun'
  exact ⟨run, t, hrun, hevents.flip.imp fun _ _ h => h.symm, hend.symm⟩

end Vm

def diskLayout : GuestLayout := ⟨true, 0x8000, 0, 0⟩

def newDisk : Block.BlockDevice Empty := ⟨Block.blankDisk 2, 512, (0, 0), false⟩

def newTransport : MmioTransport (Block.BlockDevice Empty) :=
  .fresh (Block.snapshotDevice Block.plainEnv (Serial.textValue Serial.noFloats)) newDisk 5 diskLayout

def usedTransport : MmioTransport (Block.BlockDevice Empty) :=
  { newTransport with
    device := { newDisk with activated := true }
    deviceStatus := 0x0F
    queues := [⟨128, 128, true, 0, 0x1000, 0x2000⟩]
    virtqueues := [⟨128, true, 0, 0x1000, 0x2000, 0, true, 0x8000, 0, 0⟩]
    activated := true }

/-- One vCPU, one thread that reads input, and one disk. -/
def diskVm (serial : Serial) (disk : MmioTransport (Block.BlockDevice Empty)) : Vm (Block.BlockDevice Empty) 1 1 where
  devices := ⟨serial, [], none, ⟨[disk]⟩, fun _ => 0⟩
  vcpus _ := .fromTemplate
  running _ := true
  owed _ := none

def setUp (v : Fin n) : List (Event n m) :=
  [.exit v (.ioOut 0x3F9 [1]) [] .com1, .exit v (.mmioWrite 0xd0000090 [0, 0x10, 0, 0]) [] .mmio,
    .exit v (.mmioWrite 0xd00000a0 [0, 0x20, 0, 0]) [] .mmio, .exit v (.mmioWrite 0xd0000044 [1, 0, 0, 0]) [] .mmio,
    .exit v (.mmioWrite 0xd0000070 [0x0F, 0, 0, 0]) [] .mmio]

namespace Vm

theorem exited {s : Vm δ n m} {v : Fin n} {e : VcpuExit} {d : Devices δ} {vcpu : Vcpu} {answer : List UInt8}
    {target : Target} (hrunning : s.running v = true) (howed : s.owed (.inl v) = none)
    (h : s.devices.perform (s.vcpus v) 1 (fun _ _ _ => none) e = some ⟨d, vcpu, answer, target, none, true⟩) :
    VmStep s (.exit v e answer target) { s with devices := d, vcpus := Function.update s.vcpus v vcpu } := by
  have hstep := VmStep.exit 1 (fun _ _ _ => none) hrunning howed h
  dsimp only at hstep
  rwa [← hrunning, Function.update_eq_self, ← howed, Function.update_eq_self] at hstep

theorem setUp_run : ∃ s, Steps VmStep (diskVm .new newTransport) (setUp 0) s ∧
    s.devices = (diskVm (Serial.new.write 1 1).2 usedTransport).devices ∧ (∀ v, s.running v = true) ∧ ∀ i, s.owed i = none :=
  ⟨_, .cons (exited rfl rfl rfl) (.cons (exited rfl rfl rfl) (.cons (exited rfl rfl rfl) (.cons (exited rfl rfl rfl)
    (.cons (exited rfl rfl rfl) (.nil _))))), rfl, fun _ => rfl, fun _ => rfl⟩

theorem usedTransport_atRest : usedTransport.AtRest fun _ => 0 where
  deviceFeaturesSel := rfl
  driverFeaturesSel := rfl
  vhostInterrupt := rfl
  idle := by
    intro i q vq hq _ hready
    cases List.mem_singleton.mp (List.mem_of_getElem? hq)
    cases hready
  ready := by
    intro i q vq hq hvq _
    cases List.mem_singleton.mp (List.mem_of_getElem? hq)
    cases List.mem_singleton.mp (List.mem_of_getElem? hvq)
    exact ⟨rfl, by decide, rfl, rfl, rfl, rfl⟩

theorem usedTransport_typed : usedTransport.snapshotState.Typed where
  deviceStatus := by decide
  interruptStatus := by decide
  driverFeatures := by decide
  queueSel := by decide
  queues := by
    intro q hq
    cases List.mem_singleton.mp hq
    exact ⟨by decide, by decide, by decide, by decide, by decide⟩
  configGeneration := by decide

theorem restored_alike_disk : ∃ s r : Vm (Block.BlockDevice Empty) 1 1,
    Steps VmStep (diskVm .new newTransport) (setUp 0) s ∧
      Vm.restoreBoot (.text Serial.noFloats) (Serial.textValue Serial.noFloats)
        (MmioBus.registered diskLayout s.devices.mmioBus.devices [newDisk])
        (s.save (.text Serial.noFloats) (Serial.textValue Serial.noFloats)) = some r ∧
      (∀ run t, Steps VmStep s run t →
        ∃ run' t', Steps VmStep r run' t' ∧ List.Forall₂ Event.Alike run run' ∧ t.Alike t') ∧
      ∀ run' t', Steps VmStep r run' t' →
        ∃ run t, Steps VmStep s run t ∧ List.Forall₂ Event.Alike run run' ∧ t.Alike t' := by
  obtain ⟨s, hrun, hdevices, hrunning, howed⟩ := setUp_run
  have hbooted : (diskVm .new newTransport).Registered diskLayout := by
    intro t ht
    cases List.mem_singleton.mp ht
    exact .fresh _ _ _ _
  have hrest : s.AtRest (.text Serial.noFloats) := by
    refine ⟨hrunning, howed, ?_, ?_, ?_⟩
    · rw [hdevices]
      rfl
    · rw [hdevices]
      intro t ht
      cases List.mem_singleton.mp ht
      exact usedTransport_atRest
    · rw [hdevices]
      intro t ht
      cases List.mem_singleton.mp ht
      exact SerdeState.text_reads Serial.noFloats usedTransport_typed
  have hresumes : List.Forall₂ (fun t device => t.Resumes diskLayout s.devices.mem device) s.devices.mmioBus.devices
      [newDisk] := by
    rw [hdevices]
    apply List.Forall₂.cons _ .nil
    exact Block.resumes (Block.BlockDevice.textValue_reads Serial.noFloats) rfl (by decide) (by decide) rfl rfl
  obtain ⟨r, hr⟩ := restored_alike (Serial.textValue_reads Serial.noFloats) hbooted hrun hrest hresumes
  exact ⟨s, r, hrun, hr⟩

end Vm

end CloneVmm.Vmm
