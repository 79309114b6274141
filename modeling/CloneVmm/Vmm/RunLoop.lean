import CloneVmm.Lib.Interleaving
import CloneVmm.Virtio.Mmio
import CloneVmm.Vmm.Pci
import CloneVmm.Vmm.SerialRuns

/-!
`run_loop` of `vmm/vcpu.rs`: what each exit of a vCPU does to the devices, and the threads that feed the serial port. A
thread holds the lock of a device while it uses it, and pulls an interrupt line after it has let go of it.
-/

namespace CloneVmm.Vmm

open CloneVmm.Lib CloneVmm.Virtio CloneVmm.Vmm.Pci

def com1PortBase : Nat := 0x3F8
def com1PortCount : Nat := 8
def cmosAddrPort : Nat := 0x70
def cmosDataPort : Nat := 0x71

/-- Why KVM has returned. The data of a read is what is in the buffer before it is answered. -/
inductive VcpuExit
  | hlt
  | shutdown
  | ioOut (port : Nat) (data : List UInt8)
  | ioIn (port : Nat) (data : List UInt8)
  | mmioRead (addr : UInt64) (data : List UInt8)
  | mmioWrite (addr : UInt64) (data : List UInt8)
  | debug
  | other
  | interrupted
  | failed
  deriving DecidableEq

structure Vcpu where
  cmosIndex : UInt8
  pmRegs : Vector UInt8 8
  deriving DecidableEq

def cmosRead (index : UInt8) : UInt8 :=
  match index.toNat with
  | 0x06 => 0x04
  | 0x07 => 0x01
  | 0x08 => 0x01
  | 0x09 => 0x24
  | 0x0A => 0x26
  | 0x0B => 0x02
  | 0x0D => 0x80
  | 0x32 => 0x20
  | _ => 0x00

/-- What the vCPUs share. `output` is what has been printed. -/
structure Devices (δ : Type) where
  serial : Serial
  output : List UInt8
  pciBus : Option PciBus
  mmioBus : MmioBus δ
  mem : ByteStore

inductive Target
  | com1
  | own
  | pci
  | mmio
  | nothing
  deriving DecidableEq

structure Outcome (δ : Type) where
  devices : Devices δ
  vcpu : Vcpu
  answer : List UInt8
  target : Target
  irq : Option Nat
  running : Bool

def IsCom1 (port : Nat) : Prop := com1PortBase ≤ port ∧ port < com1PortBase + com1PortCount

instance (port : Nat) : Decidable (IsCom1 port) := inferInstanceAs (Decidable (_ ∧ _))

def IsPm (port : Nat) : Prop := 0x600 ≤ port ∧ port ≤ 0x607

instance (port : Nat) : Decidable (IsPm port) := inferInstanceAs (Decidable (_ ∧ _))

namespace Serial

def interruptEnabled (s : Serial) : Bool := s.ier &&& 0x01 != 0

end Serial

def Pci.PciBus.handleRead (pread : Nat → Pread) (bus : PciBus) (addr : UInt64) (data : List UInt8) :
    Option (List UInt8) :=
  match bus.handleEcamRead addr data with
  | some answer => some answer
  | none => bus.handleBarRead pread addr data

def Pci.PciBus.handleWrite (bus : PciBus) (addr : UInt64) (data : List UInt8) : Option PciBus :=
  match bus.handleEcamWrite addr data with
  | some bus => some bus
  | none => bus.handleBarWrite addr data

namespace Devices

variable {δ : Type} (d : Devices δ) (v : Vcpu)

def flushOutput : Devices δ :=
  { d with output := d.output ++ d.serial.outputBuffer, serial := { d.serial with outputBuffer := [] } }

def ioIn (port : Nat) (data : List UInt8) : Outcome δ :=
  if IsCom1 port then
    let (value, serial) := d.serial.read (port - com1PortBase)
    ⟨{ d with serial }, v, data.set 0 value, .com1, none, true⟩
  else if port = cmosDataPort then ⟨d, v, data.set 0 (cmosRead v.cmosIndex), .own, none, true⟩
  else if IsPm port then ⟨d, v, data.set 0 (v.pmRegs.toList.getD (port - 0x600) 0), .own, none, true⟩
  else ⟨d, v, List.replicate data.length 0, .nothing, none, true⟩

def ioOut (port : Nat) (data : List UInt8) : Outcome δ :=
  let byte := data.headD 0
  if IsCom1 port then
    let (flushed, serial) := d.serial.write (port - com1PortBase) byte
    ⟨{ d with serial, output := d.output ++ flushed }, v, [], .com1,
      if serial.interruptPending then some 4 else none, true⟩
  else if port = cmosAddrPort then ⟨d, { v with cmosIndex := byte &&& 0x7F }, [], .own, none, true⟩
  else if port = cmosDataPort then ⟨d, v, [], .nothing, none, true⟩
  else if IsPm port then ⟨d, { v with pmRegs := v.pmRegs.setIfInBounds (port - 0x600) byte }, [], .own, none, true⟩
  else ⟨d, v, [], .nothing, none, true⟩

def mmioRead (pread : Nat → Pread) (addr : UInt64) (data : List UInt8) : Outcome δ :=
  match d.pciBus.bind fun bus => bus.handleRead pread addr data with
  | some answer => ⟨d, v, answer, .pci, none, true⟩
  | none =>
    match d.mmioBus.handleRead addr.toNat data.length with
    | some answer => ⟨d, v, answer, .mmio, none, true⟩
    | none => ⟨d, v, List.replicate data.length 0xFF, .nothing, none, true⟩

def mmioWrite (fuel : Nat) (addr : UInt64) (data : List UInt8) : Option (Outcome δ) :=
  match d.pciBus.bind fun bus => bus.handleWrite addr data with
  | some bus => some ⟨{ d with pciBus := some bus }, v, [], .pci, none, true⟩
  | none =>
    (d.mmioBus.handleWrite fuel d.mem addr.toNat data).map fun (mmioBus, mem, handled, irq) =>
      if handled then ⟨{ d with mmioBus, mem }, v, [], .mmio, irq, true⟩ else ⟨d, v, [], .nothing, none, true⟩

def perform (fuel : Nat) (pread : Nat → Pread) : VcpuExit → Option (Outcome δ)
  | .ioIn port data => some (d.ioIn v port data)
  | .ioOut port data => some (d.ioOut v port data)
  | .mmioRead addr data => some (d.mmioRead v pread addr data)
  | .mmioWrite addr data => d.mmioWrite v fuel addr data
  | .hlt | .debug | .interrupted => some ⟨d, v, [], .nothing, none, true⟩
  | .shutdown => some ⟨d.flushOutput, v, [], .com1, none, false⟩
  | .other | .failed => some ⟨d, v, [], .nothing, none, false⟩

end Devices

/-- The vCPUs, and the threads that read standard input and the console. `owed` is the line that a thread is about to
pull. -/
structure Vm (δ : Type) (n m : Nat) where
  devices : Devices δ
  vcpus : Fin n → Vcpu
  running : Fin n → Bool
  owed : Fin n ⊕ Fin m → Option Nat

inductive Event (n m : Nat)
  | exit (v : Fin n) (e : VcpuExit) (answer : List UInt8) (target : Target)
  | stop (v : Fin n)
  | input (i : Fin m) (byte : UInt8)
  | pull (thread : Fin n ⊕ Fin m) (irq : Nat)
  | store (mem : ByteStore)

/-- One step of one thread. The guest stores to its memory between the exits, and a signal stops a vCPU before it enters
the guest again. -/
inductive VmStep {δ : Type} {n m : Nat} : Vm δ n m → Event n m → Vm δ n m → Prop
  | exit {s : Vm δ n m} {v : Fin n} {e : VcpuExit} (fuel : Nat) (pread : Nat → Pread) {r : Outcome δ} :
      s.running v = true → s.owed (.inl v) = none → s.devices.perform (s.vcpus v) fuel pread e = some r →
      VmStep s (.exit v e r.answer r.target)
        { devices := r.devices
          vcpus := Function.update s.vcpus v r.vcpu
          running := Function.update s.running v r.running
          owed := Function.update s.owed (.inl v) r.irq }
  | stop {s : Vm δ n m} {v : Fin n} :
      s.running v = true → s.owed (.inl v) = none →
      VmStep s (.stop v) { s with devices := s.devices.flushOutput, running := Function.update s.running v false }
  | input {s : Vm δ n m} {i : Fin m} {byte : UInt8} :
      s.owed (.inr i) = none →
      VmStep s (.input i byte)
        { s with
          devices := { s.devices with serial := s.devices.serial.enqueueInput byte }
          owed := Function.update s.owed (.inr i)
            (if (s.devices.serial.enqueueInput byte).interruptEnabled then some 4 else none) }
  | pull {s : Vm δ n m} {thread : Fin n ⊕ Fin m} {irq : Nat} :
      s.owed thread = some irq → VmStep s (.pull thread irq) { s with owed := Function.update s.owed thread none }
  | store {s : Vm δ n m} (mem : ByteStore) : VmStep s (.store mem) { s with devices := { s.devices with mem } }

def Vcpu.portIn (v : Vcpu) (port : Nat) : UInt8 :=
  if port = cmosDataPort then cmosRead v.cmosIndex else v.pmRegs.toList.getD (port - 0x600) 0

def Vcpu.portOut (v : Vcpu) (port : Nat) (byte : UInt8) : Vcpu :=
  if port = cmosAddrPort then { v with cmosIndex := byte &&& 0x7F }
  else { v with pmRegs := v.pmRegs.setIfInBounds (port - 0x600) byte }

inductive Exited {δ : Type} (d : Devices δ) (v : Vcpu) : VcpuExit → Outcome δ → Prop
  | com1In (port : Nat) (data : List UInt8) (value : UInt8) (serial : Serial) :
      d.serial.read (port - com1PortBase) = (value, serial) →
      Exited d v (.ioIn port data) ⟨{ d with serial }, v, data.set 0 value, .com1, none, true⟩
  | com1Out (port : Nat) (data flushed : List UInt8) (serial : Serial) :
      d.serial.write (port - com1PortBase) (data.headD 0) = (flushed, serial) →
      Exited d v (.ioOut port data)
        ⟨{ d with serial, output := d.output ++ flushed }, v, [], .com1,
          if serial.interruptPending then some 4 else none, true⟩
  | ownIn (port : Nat) (data : List UInt8) :
      Exited d v (.ioIn port data) ⟨d, v, data.set 0 (v.portIn port), .own, none, true⟩
  | ownOut (port : Nat) (data : List UInt8) :
      Exited d v (.ioOut port data) ⟨d, v.portOut port (data.headD 0), [], .own, none, true⟩
  | pciIn (addr : UInt64) (data answer : List UInt8) (bus : PciBus) (pread : Nat → Pread) :
      d.pciBus = some bus → bus.handleRead pread addr data = some answer →
      Exited d v (.mmioRead addr data) ⟨d, v, answer, .pci, none, true⟩
  | pciOut (addr : UInt64) (data : List UInt8) (bus bus' : PciBus) :
      d.pciBus = some bus → bus.handleWrite addr data = some bus' →
      Exited d v (.mmioWrite addr data) ⟨{ d with pciBus := some bus' }, v, [], .pci, none, true⟩
  | mmioIn (addr : UInt64) (data answer : List UInt8) :
      d.mmioBus.handleRead addr.toNat data.length = some answer →
      Exited d v (.mmioRead addr data) ⟨d, v, answer, .mmio, none, true⟩
  | mmioOut (addr : UInt64) (data : List UInt8) (fuel : Nat) (mmioBus : MmioBus δ) (mem : ByteStore)
      (irq : Option Nat) :
      d.mmioBus.handleWrite fuel d.mem addr.toNat data = some (mmioBus, mem, true, irq) →
      Exited d v (.mmioWrite addr data) ⟨{ d with mmioBus, mem }, v, [], .mmio, irq, true⟩
  | shutdown : Exited d v .shutdown ⟨d.flushOutput, v, [], .com1, none, false⟩
  | nothing (e : VcpuExit) (answer : List UInt8) (running : Bool) :
      Exited d v e ⟨d, v, answer, .nothing, none, running⟩

namespace Exited

variable {δ : Type} {d : Devices δ} {v : Vcpu} {fuel : Nat} {pread : Nat → Pread} {e : VcpuExit} {r : Outcome δ}

theorem of_ioIn (port : Nat) (data : List UInt8) : Exited d v (.ioIn port data) (d.ioIn v port data) := by
  unfold Devices.ioIn
  split
  · cases hread : d.serial.read (port - com1PortBase) with
    | mk value serial => exact .com1In port data value serial hread
  · split
    · rename_i hcmos
      have hown := @Exited.ownIn δ d v port data
      rwa [Vcpu.portIn, if_pos hcmos] at hown
    · rename_i hcmos
      split
      · have hown := @Exited.ownIn δ d v port data
        rwa [Vcpu.portIn, if_neg hcmos] at hown
      · exact .nothing _ _ _

theorem of_ioOut (port : Nat) (data : List UInt8) : Exited d v (.ioOut port data) (d.ioOut v port data) := by
  unfold Devices.ioOut
  dsimp only
  split
  · cases hwrite : d.serial.write (port - com1PortBase) (data.headD 0) with
    | mk flushed serial => exact .com1Out port data flushed serial hwrite
  · split
    · rename_i haddr
      have hown := @Exited.ownOut δ d v port data
      rwa [Vcpu.portOut, if_pos haddr] at hown
    · rename_i haddr
      split
      · exact .nothing _ _ _
      · split
        · have hown := @Exited.ownOut δ d v port data
          rwa [Vcpu.portOut, if_neg haddr] at hown
        · exact .nothing _ _ _

theorem of_mmioRead (addr : UInt64) (data : List UInt8) :
    Exited d v (.mmioRead addr data) (d.mmioRead v pread addr data) := by
  unfold Devices.mmioRead
  split
  · rename_i answer hpci
    obtain ⟨bus, hbus, hanswer⟩ := Option.bind_eq_some_iff.mp hpci
    exact .pciIn addr data answer bus pread hbus hanswer
  · split
    · rename_i answer hanswer
      exact .mmioIn addr data answer hanswer
    · exact .nothing _ _ _

theorem of_mmioWrite {addr : UInt64} {data : List UInt8} (h : d.mmioWrite v fuel addr data = some r) :
    Exited d v (.mmioWrite addr data) r := by
  unfold Devices.mmioWrite at h
  split at h
  · rename_i bus' hpci
    obtain ⟨bus, hbus, hwrite⟩ := Option.bind_eq_some_iff.mp hpci
    cases h
    exact .pciOut addr data bus bus' hbus hwrite
  · obtain ⟨⟨mmioBus, mem, handled, irq⟩, hwrite, hr⟩ := Option.map_eq_some_iff.mp h
    cases handled with
    | true =>
      cases hr
      exact .mmioOut addr data fuel mmioBus mem irq hwrite
    | false =>
      cases hr
      exact .nothing _ _ _

theorem of_perform (h : d.perform v fuel pread e = some r) : Exited d v e r := by
  cases e with
  | ioIn port data =>
    cases h
    exact of_ioIn port data
  | ioOut port data =>
    cases h
    exact of_ioOut port data
  | mmioRead addr data =>
    cases h
    exact of_mmioRead addr data
  | mmioWrite addr data => exact of_mmioWrite h
  | shutdown =>
    cases h
    exact .shutdown
  | hlt | debug | other | interrupted | failed =>
    cases h
    exact .nothing _ _ _

end Exited

structure Port where
  serial : Serial
  output : List UInt8

inductive PortEvent
  | read (offset : Nat) (value : Option UInt8)
  | write (offset : Nat) (byte : UInt8)
  | input (byte : UInt8)
  | flush

inductive PortStep : Port → PortEvent → Port → Prop
  | read (p : Port) (offset : Nat) (value : Option UInt8) :
      (∀ byte ∈ value, byte = (p.serial.read offset).1) →
      PortStep p (.read offset value) { p with serial := (p.serial.read offset).2 }
  | write (p : Port) (offset : Nat) (byte : UInt8) :
      PortStep p (.write offset byte)
        ⟨(p.serial.write offset byte).2, p.output ++ (p.serial.write offset byte).1⟩
  | input (p : Port) (byte : UInt8) : PortStep p (.input byte) { p with serial := p.serial.enqueueInput byte }
  | flush (p : Port) :
      PortStep p .flush ⟨{ p.serial with outputBuffer := [] }, p.output ++ p.serial.outputBuffer⟩

inductive OwnEvent
  | read (port : Nat) (value : Option UInt8)
  | write (port : Nat) (byte : UInt8)

inductive OwnStep : Vcpu → OwnEvent → Vcpu → Prop
  | read (v : Vcpu) (port : Nat) (value : Option UInt8) :
      (∀ byte ∈ value, byte = v.portIn port) → OwnStep v (.read port value) v
  | write (v : Vcpu) (port : Nat) (byte : UInt8) : OwnStep v (.write port byte) (v.portOut port byte)

inductive PciEvent
  | read (addr : UInt64) (data answer : List UInt8)
  | write (addr : UInt64) (data : List UInt8)

inductive PciStep : Option PciBus → PciEvent → Option PciBus → Prop
  | read (bus : PciBus) (pread : Nat → Pread) (addr : UInt64) (data answer : List UInt8) :
      bus.handleRead pread addr data = some answer → PciStep (some bus) (.read addr data answer) (some bus)
  | write (bus bus' : PciBus) (addr : UInt64) (data : List UInt8) :
      bus.handleWrite addr data = some bus' → PciStep (some bus) (.write addr data) (some bus')

inductive MmioEvent
  | read (addr : UInt64) (len : Nat) (answer : List UInt8)
  | write (addr : UInt64) (data : List UInt8)
  | store (mem : ByteStore)

inductive MmioStep {δ : Type} : MmioBus δ × ByteStore → MmioEvent → MmioBus δ × ByteStore → Prop
  | read (bus : MmioBus δ) (mem : ByteStore) (addr : UInt64) (len : Nat) (answer : List UInt8) :
      bus.handleRead addr.toNat len = some answer → MmioStep (bus, mem) (.read addr len answer) (bus, mem)
  | write (bus bus' : MmioBus δ) (mem mem' : ByteStore) (addr : UInt64) (data : List UInt8) (fuel : Nat)
      (irq : Option Nat) :
      bus.handleWrite fuel mem addr.toNat data = some (bus', mem', true, irq) →
      MmioStep (bus, mem) (.write addr data) (bus', mem')
  | store (bus : MmioBus δ) (mem mem' : ByteStore) : MmioStep (bus, mem) (.store mem') (bus, mem')

namespace Event

variable {n m : Nat}

def port : Event n m → Option PortEvent
  | .exit _ (.ioIn port _) answer .com1 => some (.read (port - com1PortBase) answer.head?)
  | .exit _ (.ioOut port data) _ .com1 => some (.write (port - com1PortBase) (data.headD 0))
  | .exit _ .shutdown _ .com1 | .stop _ => some .flush
  | .input _ byte => some (.input byte)
  | _ => none

def own (v : Fin n) : Event n m → Option OwnEvent
  | .exit u (.ioIn port _) answer .own => if u = v then some (.read port answer.head?) else none
  | .exit u (.ioOut port data) _ .own => if u = v then some (.write port (data.headD 0)) else none
  | _ => none

def pci : Event n m → Option PciEvent
  | .exit _ (.mmioRead addr data) answer .pci => some (.read addr data answer)
  | .exit _ (.mmioWrite addr data) _ .pci => some (.write addr data)
  | _ => none

def mmio : Event n m → Option MmioEvent
  | .exit _ (.mmioRead addr data) answer .mmio => some (.read addr data.length answer)
  | .exit _ (.mmioWrite addr data) _ .mmio => some (.write addr data)
  | .store mem => some (.store mem)
  | _ => none

end Event

section Parts

variable {δ : Type} {n m : Nat} {s t : Vm δ n m} {a : Event n m}

def Devices.port (d : Devices δ) : Port := ⟨d.serial, d.output⟩

def Devices.bus (d : Devices δ) : MmioBus δ × ByteStore := (d.mmioBus, d.mem)

theorem head?_set_zero {data : List UInt8} {value byte : UInt8} (h : byte ∈ (data.set 0 value).head?) : byte = value := by
  cases data with
  | nil => cases h
  | cons b data => exact (Option.some.inj h).symm

theorem VmStep.port (h : VmStep s a t) : Steps.Moves PortStep s.devices.port a.port t.devices.port := by
  cases h with
  | @exit v e fuel pread r _ _ hperform =>
    cases Exited.of_perform hperform with
    | com1In port data value serial hread =>
      have hstep := PortStep.read s.devices.port (port - com1PortBase) (data.set 0 value).head? ?_
      · rw [Devices.port, hread] at hstep
        exact hstep
      · intro byte hbyte
        rw [Devices.port, hread]
        exact head?_set_zero hbyte
    | com1Out port data flushed serial hwrite =>
      have hstep := PortStep.write s.devices.port (port - com1PortBase) (data.headD 0)
      rw [Devices.port, hwrite] at hstep
      exact hstep
    | shutdown => exact .flush _
    | nothing answer running => cases e <;> rfl
    | ownIn | ownOut | pciIn | pciOut | mmioIn | mmioOut => rfl
  | stop => exact .flush _
  | input => exact .input _ _
  | pull | store => rfl

theorem Event.own_of_ne {u v : Fin n} {e : VcpuExit} {answer : List UInt8} {target : Target} (h : u ≠ v) :
    (Event.exit (m := m) u e answer target).own v = none := by
  cases target with
  | own => cases e <;> first | rfl | exact if_neg h
  | com1 | pci | mmio | nothing => cases e <;> rfl

theorem VmStep.own (h : VmStep s a t) (v : Fin n) : Steps.Moves OwnStep (s.vcpus v) (a.own v) (t.vcpus v) := by
  cases h with
  | @exit u e fuel pread r _ _ hperform =>
    by_cases hu : u = v
    · subst hu
      dsimp only
      rw [Function.update_self]
      cases Exited.of_perform hperform with
      | ownIn port data =>
        rw [Event.own, if_pos rfl]
        exact .read _ _ _ fun byte hbyte => head?_set_zero hbyte
      | ownOut port data =>
        rw [Event.own, if_pos rfl]
        exact .write _ _ _
      | nothing answer running => cases e <;> rfl
      | com1In | com1Out | shutdown | pciIn | pciOut | mmioIn | mmioOut => rfl
    · rw [Event.own_of_ne hu]
      exact Function.update_of_ne (Ne.symm hu) _ _
  | stop | input | pull | store => rfl

theorem VmStep.pci (h : VmStep s a t) : Steps.Moves PciStep s.devices.pciBus a.pci t.devices.pciBus := by
  cases h with
  | @exit v e fuel pread r _ _ hperform =>
    cases Exited.of_perform hperform with
    | pciIn addr data answer bus pread hbus hanswer =>
      change PciStep s.devices.pciBus _ s.devices.pciBus
      rw [hbus]
      exact .read bus pread addr data answer hanswer
    | pciOut addr data bus bus' hbus hwrite =>
      change PciStep s.devices.pciBus _ _
      rw [hbus]
      exact .write bus bus' addr data hwrite
    | nothing answer running => cases e <;> rfl
    | com1In | com1Out | ownIn | ownOut | shutdown | mmioIn | mmioOut => rfl
  | stop | input | pull | store => rfl

theorem VmStep.mmio (h : VmStep s a t) : Steps.Moves MmioStep s.devices.bus a.mmio t.devices.bus := by
  cases h with
  | @exit v e fuel pread r _ _ hperform =>
    cases Exited.of_perform hperform with
    | mmioIn addr data answer hanswer => exact .read _ _ _ _ _ hanswer
    | mmioOut addr data fuel mmioBus mem irq hwrite => exact .write _ _ _ _ _ _ fuel irq hwrite
    | nothing answer running => cases e <;> rfl
    | com1In | com1Out | ownIn | ownOut | shutdown | pciIn | pciOut => rfl
  | stop | input | pull => rfl
  | store mem => exact .store _ _ _

end Parts

theorem parts_run_alone {δ : Type} {n m : Nat} {s t : Vm δ n m} {run : List (Event n m)} (h : Steps VmStep s run t) :
    Steps PortStep s.devices.port (run.filterMap Event.port) t.devices.port ∧
      (∀ v, Steps OwnStep (s.vcpus v) (run.filterMap (Event.own v)) (t.vcpus v)) ∧
      Steps PciStep s.devices.pciBus (run.filterMap Event.pci) t.devices.pciBus ∧
      Steps MmioStep s.devices.bus (run.filterMap Event.mmio) t.devices.bus :=
  ⟨h.project (fun s => s.devices.port) _ fun _ _ _ hstep => hstep.port,
    fun v => h.project (fun s => s.vcpus v) _ fun _ _ _ hstep => hstep.own v,
    h.project (fun s => s.devices.pciBus) _ fun _ _ _ hstep => hstep.pci,
    h.project (fun s => s.devices.bus) _ fun _ _ _ hstep => hstep.mmio⟩

def idleVm : Vm Unit 2 1 where
  devices := ⟨.new, [], none, ⟨[]⟩, fun _ => 0⟩
  vcpus _ := ⟨0, Vector.replicate 8 0⟩
  running _ := true
  owed _ := none

theorem parts_run_alone_pm : ∃ t : Vm Unit 2 1,
    Steps VmStep idleVm [.exit 0 (.ioOut 0x604 [5]) [] .own, .exit 1 (.ioIn 0x604 [9, 9]) [0, 9] .own] t ∧
      Steps OwnStep (idleVm.vcpus 0) [.write 0x604 5] (t.vcpus 0) ∧
      Steps OwnStep (idleVm.vcpus 1) [.read 0x604 (some 0)] (t.vcpus 1) := by
  have hwrite : VmStep idleVm (.exit 0 (.ioOut 0x604 [5]) [] .own) _ :=
    .exit (r := idleVm.devices.ioOut (idleVm.vcpus 0) 0x604 [5]) 0 (fun _ _ _ => none) rfl rfl rfl
  have hrun : Steps VmStep idleVm
      [.exit 0 (.ioOut 0x604 [5]) [] .own, .exit 1 (.ioIn 0x604 [9, 9]) [0, 9] .own] _ :=
    .cons hwrite (.cons (.exit (r := idleVm.devices.ioIn (idleVm.vcpus 1) 0x604 [9, 9]) 0 (fun _ _ _ => none) rfl rfl
      rfl) (.nil _))
  exact ⟨_, hrun, (parts_run_alone hrun).2.1 0, (parts_run_alone hrun).2.1 1⟩

end CloneVmm.Vmm
