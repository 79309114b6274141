import CloneVmm.Virtio.QueueSize
import CloneVmm.Vmm.Devices

/-!
`virtio/mmio.rs` and `vmm/mod.rs`: the window and the interrupt line that `MmioBus::register` gives to
a device, and the line that a boot path tells the device beforehand.
-/

namespace CloneVmm

open CloneVmm.Lib CloneVmm.Virtio CloneVmm.Vmm

namespace Virtio

def irqBase : Nat := 5

structure Bus (δ : Type) extends MmioBus δ where
  hasMem : Bool
  guestMemSize : Nat

namespace Bus

variable {δ : Type}

def new : Bus δ := ⟨⟨[]⟩, false, 0⟩

def deviceCount (bus : Bus δ) : Nat := bus.devices.length

/-- Line 8 belongs to the clock. The counts are those of a `u64` and a `u32`. -/
def register (bus : Bus δ) (device : VirtioDevice δ × δ) : (Nat × Nat) × Bus δ :=
  let index := bus.devices.length
  let base := (mmioBase + index * mmioStride) % 2 ^ 64
  let irq := (irqBase + index % 2 ^ 32) % 2 ^ 32
  let irq := if 8 ≤ irq then (irq + 1) % 2 ^ 32 else irq
  let transport := MmioTransport.newWithMem device.1 device.2 irq bus.hasMem bus.guestMemSize
  ((base, irq), { bus with devices := bus.devices ++ [transport] })

def registerAll : Bus δ → List (VirtioDevice δ × δ) → List (Nat × Nat)
  | _, [] => []
  | bus, device :: devices => (bus.register device).1 :: registerAll (bus.register device).2 devices

end Bus

end Virtio

namespace Vmm

def predictedIrq (deviceCount : Nat) : Nat := (irqBase + deviceCount % 2 ^ 32) % 2 ^ 32

def BuildPath.predicts : BuildPath → Role → Bool
  | .boot, .vsock => true
  | .boot, .net => true
  | .forkBoot, .vsock => true
  | .restoreBoot, .vsock => true
  | _, _ => false

structure Attached where
  role : Role
  predicted : Option Nat
  base : Nat
  irq : Nat

def BuildPath.attach {δ : Type} (path : BuildPath) (make : Role → VirtioDevice δ × δ) :
    Bus δ → List Role → List Attached
  | _, [] => []
  | bus, role :: roles =>
    let predicted := if path.predicts role then some (predictedIrq bus.deviceCount) else none
    let ((base, irq), bus) := bus.register (make role)
    ⟨role, predicted, base, irq⟩ :: path.attach make bus roles

def Build.attach {δ : Type} (b : Build) (make : Role → VirtioDevice δ × δ) : List Attached :=
  b.path.attach make .new b.devices

end Vmm

namespace Virtio

variable {δ : Type} {bus : Bus δ}

def windowAt (index : Nat) : Nat := (mmioBase + index * mmioStride) % 2 ^ 64

def irqAt (index : Nat) : Nat :=
  if 8 ≤ predictedIrq index then (predictedIrq index + 1) % 2 ^ 32 else predictedIrq index

theorem register_fst (device : VirtioDevice δ × δ) :
    (bus.register device).1 = (windowAt bus.deviceCount, irqAt bus.deviceCount) := rfl

theorem register_deviceCount (device : VirtioDevice δ × δ) :
    (bus.register device).2.deviceCount = bus.deviceCount + 1 := by
  simp [Bus.register, Bus.deviceCount]

theorem registerAll_eq (devices : List (VirtioDevice δ × δ)) (bus : Bus δ) :
    bus.registerAll devices =
      (List.range' bus.deviceCount devices.length).map fun index => (windowAt index, irqAt index) := by
  induction devices generalizing bus with
  | nil => rfl
  | cons device devices ih =>
    rw [Bus.registerAll, ih, register_fst, register_deviceCount, List.length_cons, List.range'_succ, List.map_cons]

theorem irqAt_ne_rtc (index : Nat) : irqAt index ≠ 8 := by
  have hlt : predictedIrq index < 2 ^ 32 := Nat.mod_lt _ (by decide)
  unfold irqAt
  split
  · omega
  · omega

theorem irqAt_low {index : Nat} (h : index < 2 ^ 32 - 5) :
    irqAt index = if index < 3 then index + 5 else (index + 6) % 2 ^ 32 := by
  have hpredicted : predictedIrq index = index + 5 := by
    simp only [predictedIrq, irqBase]
    omega
  rw [irqAt, hpredicted]
  split <;> split <;> omega

theorem irqAt_wraps : irqAt (2 ^ 32 - 6) = irqAt (2 ^ 32 - 5) := by
  simp [irqAt, predictedIrq, irqBase]

theorem windowAt_low {index : Nat} (h : index < 2 ^ 32) : windowAt index = mmioBase + index * mmioStride := by
  apply Nat.mod_eq_of_lt
  simp only [mmioBase, mmioStride]
  omega

def Separate (r r' : Nat × Nat) : Prop := r.1 + mmioStride ≤ r'.1 ∧ r.2 ≠ r'.2

theorem separate_of_lt {i j : Nat} (h : i < j) (hj : j < 2 ^ 32 - 5) :
    Separate (windowAt i, irqAt i) (windowAt j, irqAt j) := by
  constructor
  · simp only [windowAt_low (show i < 2 ^ 32 by omega), windowAt_low (show j < 2 ^ 32 by omega), mmioStride]
    omega
  · simp only [irqAt_low hj, irqAt_low (show i < 2 ^ 32 - 5 by omega)]
    split <;> split <;> omega

theorem separate_iff (devices : List (VirtioDevice δ × δ)) :
    (Bus.new.registerAll devices).Pairwise Separate ↔ devices.length ≤ 2 ^ 32 - 5 := by
  rw [registerAll_eq, List.pairwise_map]
  constructor
  · intro h
    by_contra hlong
    have hfirst : 2 ^ 32 - 6 < devices.length := by omega
    have hsecond : 2 ^ 32 - 5 < devices.length := by omega
    have hpair := List.pairwise_iff_getElem.mp h (2 ^ 32 - 6) (2 ^ 32 - 5) (by simpa using hfirst)
      (by simpa using hsecond) (by omega)
    simp only [List.getElem_range', Nat.one_mul, show (Bus.new : Bus δ).deviceCount = 0 from rfl, Nat.zero_add] at hpair
    exact hpair.2 irqAt_wraps
  · intro hle
    apply List.Pairwise.imp_of_mem _ List.pairwise_lt_range'
    intro i j hi hj hlt
    simp only [List.mem_range'_1] at hi hj
    have hcount : (Bus.new : Bus δ).deviceCount = 0 := rfl
    exact separate_of_lt hlt (by omega)

end Virtio

namespace Vmm

variable {δ : Type} {path : BuildPath}

theorem irqAt_eq_predictedIrq {count : Nat} (h : count < 6) : predictedIrq count = irqAt count ↔ count < 3 := by
  have hpredicted : predictedIrq count = count + 5 := by
    simp only [predictedIrq, irqBase]
    omega
  rw [irqAt_low (by omega), hpredicted]
  split <;> omega

def ToldRight (attached : List Attached) : Prop :=
  ∀ device ∈ attached, ∀ irq, device.predicted = some irq → irq = device.irq

theorem attach_cons (make : Role → VirtioDevice δ × δ) (bus : Bus δ) (role : Role) (roles : List Role) :
    path.attach make bus (role :: roles) =
      ⟨role, if path.predicts role then some (predictedIrq bus.deviceCount) else none, windowAt bus.deviceCount,
        irqAt bus.deviceCount⟩ :: path.attach make (bus.register (make role)).2 roles := rfl

theorem toldRight_cons (make : Role → VirtioDevice δ × δ) (bus : Bus δ) (role : Role) (roles : List Role) :
    ToldRight (path.attach make bus (role :: roles)) ↔
      (path.predicts role → predictedIrq bus.deviceCount = irqAt bus.deviceCount) ∧
        ToldRight (path.attach make (bus.register (make role)).2 roles) := by
  rw [attach_cons, ToldRight, List.forall_mem_cons]
  refine and_congr ?_ Iff.rfl
  by_cases h : path.predicts role
  · simp [h]
  · simp [h]

def Early (path : BuildPath) : Nat → List Role → Prop
  | _, [] => True
  | count, role :: roles => (path.predicts role = true → count < 3) ∧ Early path (count + 1) roles

theorem toldRight_iff (make : Role → VirtioDevice δ × δ) (bus : Bus δ) (roles : List Role)
    (h : bus.deviceCount + roles.length ≤ 6) :
    ToldRight (path.attach make bus roles) ↔ Early path bus.deviceCount roles := by
  induction roles generalizing bus with
  | nil => simp [ToldRight, BuildPath.attach, Early]
  | cons role roles ih =>
    rw [List.length_cons] at h
    have hcount := @register_deviceCount δ bus (make role)
    rw [toldRight_cons, ih _ (by omega), hcount, Early, irqAt_eq_predictedIrq (by omega)]

def Build.beforeNet (b : Build) : Nat := [Role.balloon, .vsock, .block, .overlay, .fs].countP b.registers

theorem early_append (count : Nat) (roles roles' : List Role) :
    Early path count (roles ++ roles') ↔ Early path count roles ∧ Early path (count + roles.length) roles' := by
  induction roles generalizing count with
  | nil => simp [Early]
  | cons role roles ih => simp [Early, ih, and_assoc, Nat.add_assoc, Nat.add_comm 1]

theorem early_filter (path : BuildPath) (p : Role → Bool) (count : Nat) :
    Early path count ([Role.block, .overlay, .fs].filter p) := by
  have hroles : ∀ roles : List Role, (∀ role ∈ roles, path.predicts role = false) → ∀ count, Early path count roles := by
    intro roles
    induction roles with
    | nil => simp [Early]
    | cons role roles ih =>
      intro hnone count
      obtain ⟨hrole, hrest⟩ := List.forall_mem_cons.mp hnone
      exact ⟨by simp [hrole], ih hrest _⟩
  apply hroles
  intro role hrole
  have hmem := List.mem_of_mem_filter hrole
  simp only [List.mem_cons, List.not_mem_nil, or_false] at hmem
  rcases hmem with rfl | rfl | rfl <;> cases path <;> rfl

theorem early_devices_iff (b : Build) :
    Early b.path 0 b.devices ↔ (b.path.predicts .net = true → b.registers .net = true → b.beforeNet < 3) := by
  have hsplit : Role.order = [Role.balloon, .vsock] ++ [Role.block, .overlay, .fs] ++ [Role.net] := rfl
  have hlen : b.beforeNet = (([Role.balloon, .vsock] ++ [Role.block, .overlay, .fs]).filter b.registers).length := by
    rw [← List.countP_eq_length_filter]
    rfl
  rw [b.devices_eq_filter, hsplit, List.filter_append, early_append, ← hlen, Nat.zero_add, List.filter_append,
    early_append, and_iff_left (early_filter _ _ _)]
  have hfirst : Early b.path 0 ([Role.balloon, .vsock].filter b.registers) := by
    have hballoon : b.registers .balloon = true := rfl
    cases hvsock : b.registers .vsock <;> simp [hballoon, hvsock, Early]
  rw [and_iff_right hfirst]
  cases hnet : b.registers .net <;> simp [hnet, Early]

/-- Every device has a window and a line of its own, and is told that line, where the network device of
a VM that is booted has at most two devices before it. -/
theorem irqs_agree_iff (devices : List (VirtioDevice δ × δ)) (b : Build) (make : Role → VirtioDevice δ × δ) :
    ((Bus.new.registerAll devices).Pairwise Separate ∧ (∀ r ∈ Bus.new.registerAll devices, r.2 ≠ 8) ∧
        ToldRight (b.attach make)) ↔
      devices.length ≤ 2 ^ 32 - 5 ∧ (b.path.predicts .net = true → b.registers .net = true → b.beforeNet < 3) := by
  have hrtc : ∀ r ∈ (Bus.new : Bus δ).registerAll devices, r.2 ≠ 8 := by
    intro r hr
    rw [registerAll_eq] at hr
    obtain ⟨index, -, rfl⟩ := List.mem_map.mp hr
    exact irqAt_ne_rtc index
  have hfew : (Bus.new : Bus δ).deviceCount + b.devices.length ≤ 6 := by
    rw [b.devices_eq_filter]
    exact (Nat.zero_add _).trans_le (List.length_filter_le _ _)
  rw [separate_iff, and_iff_right hrtc, Build.attach, toldRight_iff make _ _ hfew]
  exact and_congr_right fun _ => early_devices_iff b

theorem irqs_agree_fails :
    ∃ device ∈ Build.attach ⟨.boot, openHost, ⟨some "disk", none, none, some "tap0", none⟩, ⟨none, none⟩⟩
        fun _ => (idleDevice, ()), device.role = .net ∧ device.predicted = some 8 ∧ device.irq = 9 := by
  refine ⟨⟨.net, some 8, windowAt 3, 9⟩, ?_, rfl, rfl, rfl⟩
  apply List.mem_of_getElem? (i := 3)
  rfl

end Vmm

end CloneVmm
