import CloneVmm.Virtio.QueueSize
import Mathlib.Data.Nat.Bitwise

namespace CloneVmm.Virtio

open CloneVmm.Lib

def virtioFVersion1 : Nat := 1 <<< 32

def featurePage (all page : Nat) : Nat :=
  match page with
  | 0 => all % 2 ^ 32
  | 1 => (all >>> 32) % 2 ^ 32
  | _ => 0

def ackPage (acked : Nat × Nat) (page value : Nat) : Nat × Nat :=
  match page with
  | 0 => (value, acked.2)
  | 1 => (acked.1, value)
  | _ => acked

def VirtioBlock.features : Nat → Nat := featurePage (1 <<< 6 ||| 1 <<< 9 ||| virtioFVersion1)

def VirtioBlock.ackFeatures : Nat × Nat → Nat → Nat → Nat × Nat := ackPage

def VirtioNet.features : Nat → Nat := featurePage (1 <<< 5 ||| 1 <<< 16 ||| virtioFVersion1)

def VirtioNet.ackFeatures : Nat × Nat → Nat → Nat → Nat × Nat := ackPage

def VirtioVsock.features : Nat → Nat := featurePage virtioFVersion1

def VirtioVsock.ackFeatures : Nat × Nat → Nat → Nat → Nat × Nat := ackPage

def VirtioFs.features (page : Nat) : Nat := if page = 1 then 1 else 0

def VirtioFs.ackFeatures (acked : Nat × Nat) (page value : Nat) : Nat × Nat :=
  if page &&& 1 = 0 then (value, acked.2) else (acked.1, value)

def VirtioBalloon.availFeatures : Nat := 1 <<< 2 ||| 1 <<< 32

def VirtioBalloon.features (page : Nat) : Nat :=
  match page with
  | 0 => availFeatures % 2 ^ 32
  | 1 => availFeatures >>> 32 % 2 ^ 32
  | _ => 0

def VirtioBalloon.ackFeatures (acked page value : Nat) : Nat :=
  match page with
  | 0 => acked ||| availFeatures &&& value
  | 1 => acked ||| availFeatures &&& value <<< 32
  | _ => acked

def VirtioBalloon.pages (acked : Nat) : Nat × Nat := (acked % 2 ^ 32, acked >>> 32)

inductive DeviceKind
  | block
  | net
  | vsock
  | fs
  | balloon
  deriving DecidableEq

namespace DeviceKind

/-- The balloon has the features in one `u64`, the others have two pages. -/
def Acked : DeviceKind → Type
  | .balloon => Nat
  | _ => Nat × Nat

def initial : (kind : DeviceKind) → kind.Acked
  | .block | .net | .vsock | .fs => ((0, 0) : Nat × Nat)
  | .balloon => (0 : Nat)

def features : DeviceKind → Nat → Nat
  | .block => VirtioBlock.features
  | .net => VirtioNet.features
  | .vsock => VirtioVsock.features
  | .fs => VirtioFs.features
  | .balloon => VirtioBalloon.features

def ackFeatures : (kind : DeviceKind) → kind.Acked → Nat → Nat → kind.Acked
  | .block => VirtioBlock.ackFeatures
  | .net => VirtioNet.ackFeatures
  | .vsock => VirtioVsock.ackFeatures
  | .fs => VirtioFs.ackFeatures
  | .balloon => VirtioBalloon.ackFeatures

def reset : (kind : DeviceKind) → kind.Acked → kind.Acked
  | .fs, acked => acked
  | kind, _ => kind.initial

def pages : (kind : DeviceKind) → kind.Acked → Nat × Nat
  | .block, acked | .net, acked | .vsock, acked | .fs, acked => acked
  | .balloon, acked => VirtioBalloon.pages acked

def device {ρ : Type} (kind : DeviceKind) (rest : VirtioDevice (kind.Acked × ρ)) : VirtioDevice (kind.Acked × ρ) :=
  { rest with
    features := fun _ => kind.features
    ackFeatures := fun d page value => (kind.ackFeatures d.1 page value, d.2)
    reset := fun d => (kind.reset d.1, (rest.reset d).2)
    writeConfig := fun d offset data => (d.1, (rest.writeConfig d offset data).2)
    activate := fun d mem => ((rest.activate d mem).1, (d.1, (rest.activate d mem).2.1.2), (rest.activate d mem).2.2)
    processQueue := fun d mem i => ((d.1, (rest.processQueue d mem i).1.2), (rest.processQueue d mem i).2)
    processDescriptorChain := fun d mem i chain vq =>
      ((rest.processDescriptorChain d mem i chain vq).1, (d.1, (rest.processDescriptorChain d mem i chain vq).2.1.2),
        (rest.processDescriptorChain d mem i chain vq).2.2)
    prepareActivate := fun d mem infos hasMem size => (d.1, (rest.prepareActivate d mem infos hasMem size).2)
    setMemoryHole := fun d holeStart holeEnd => (d.1, (rest.setMemoryHole d holeStart holeEnd).2) }

end DeviceKind

variable {ρ : Type} {kind : DeviceKind}

structure RegisterWrite where
  fuel : Nat
  mem : ByteStore
  offset : Nat
  data : List UInt8

structure Negotiation (kind : DeviceKind) (ρ : Type) where
  transport : MmioTransport (kind.Acked × ρ)
  accepted : Bool

inductive FeatureEffect
  | reset
  | negotiate (val : Nat)
  | none

def featureEffect {δ : Type} (t : MmioTransport δ) (w : RegisterWrite) : FeatureEffect :=
  if w.offset < configSpace ∧ w.data.length = 4 then
    match Reg.ofOffset w.offset with
    | .status => if leNat w.data = 0 then .reset else .none
    | .driverFeatures =>
      if t.deviceStatus &&& statusFeaturesOk = 0 ∧ t.deviceStatus &&& statusDriver ≠ 0 then .negotiate (leNat w.data)
      else .none
    | _ => .none
  else .none

namespace Negotiation

def step (s : Negotiation kind ρ) (w : RegisterWrite) : Option (Negotiation kind ρ) :=
  (s.transport.write w.fuel w.mem w.offset w.data).map fun p =>
    ⟨p.1, match featureEffect s.transport w with
      | .reset => false
      | _ => s.accepted || p.1.deviceStatus &&& statusFeaturesOk != 0⟩

def acked (s : Negotiation kind ρ) : Nat × Nat := kind.pages s.transport.device.1

def recorded (s : Negotiation kind ρ) : Nat × Nat := s.transport.driverFeatures

def Consistent (s : Negotiation kind ρ) : Prop :=
  s.recorded.1 &&& kind.features 0 = s.acked.1 &&& kind.features 0 ∧
    s.recorded.2 &&& kind.features 1 = s.acked.2 &&& kind.features 1

def Frozen (s : Negotiation kind ρ) (w : RegisterWrite) (s' : Negotiation kind ρ) : Prop :=
  s.accepted = true → featureEffect s.transport w ≠ .reset → s'.recorded = s.recorded ∧ s'.acked = s.acked

end Negotiation

def pageOf (pages : Nat × Nat) (sel : Nat) : Nat := if sel &&& 1 = 0 then pages.1 else pages.2

def setPage (pages : Nat × Nat) (sel val : Nat) : Nat × Nat := if sel &&& 1 = 0 then (val, pages.2) else (pages.1, val)

namespace Negotiation

variable (s : Negotiation kind ρ)

def sel : Nat := s.transport.driverFeaturesSel

def offered : Nat := kind.features (s.sel &&& 1)

/-- What a value that the transport records for the selected page has to meet. -/
structure AckOk (val : Nat) : Prop where
  /-- The filesystem takes the selector modulo 2, as the transport does. The others know the pages 0 and
  1, and have to hold the features already where another one is selected. -/
  known : kind ≠ .fs → 1 < s.sel → val &&& s.offered = pageOf s.acked s.sel &&& s.offered
  /-- The balloon never gives up a feature. -/
  kept : kind = .balloon → s.sel ≤ 1 →
    pageOf s.acked s.sel &&& s.offered &&& val = pageOf s.acked s.sel &&& s.offered
  /-- After `FEATURES_OK` has been accepted, and cleared again, there is nothing new in the value. -/
  repeated : s.accepted = true → val = pageOf s.recorded s.sel ∧
    (kind = .fs ∨ s.sel ≤ 1 →
      (if kind = .balloon then pageOf s.acked s.sel ||| s.offered &&& val else val) = pageOf s.acked s.sel)

def StepOk (w : RegisterWrite) : Prop :=
  match featureEffect s.transport w with
  | .reset => kind = .fs → s.acked.2 &&& 1 = 0
  | .negotiate val => s.AckOk val
  | .none => True

end Negotiation

def DeviceKind.ackedPage (kind : DeviceKind) (acked offered sel val : Nat) : Nat :=
  match kind with
  | .fs => val
  | .balloon => if sel ≤ 1 then acked ||| offered &&& val else acked
  | _ => if sel ≤ 1 then val else acked

theorem setPage_pageOf (pages : Nat × Nat) (sel : Nat) : setPage pages sel (pageOf pages sel) = pages := by
  unfold setPage pageOf
  split <;> rfl

theorem setPage_eq_iff {pages : Nat × Nat} {sel val : Nat} : setPage pages sel val = pages ↔ val = pageOf pages sel := by
  constructor
  · intro h
    unfold setPage at h
    unfold pageOf
    split at h
    · rename_i hsel
      rw [if_pos hsel]
      exact congrArg Prod.fst h
    · rename_i hsel
      rw [if_neg hsel]
      exact congrArg Prod.snd h
  · rintro rfl
    exact setPage_pageOf pages sel

theorem ackPage_eq (acked : Nat × Nat) (sel val : Nat) :
    ackPage acked sel val = setPage acked sel (if sel ≤ 1 then val else pageOf acked sel) := by
  match sel with
  | 0 => rfl
  | 1 => rfl
  | sel + 2 =>
    rw [if_neg (by omega), setPage_pageOf]
    rfl

theorem balloon_pages_ack (acked sel : Nat) {val : Nat} (h : val < 2 ^ 32) :
    VirtioBalloon.pages (VirtioBalloon.ackFeatures acked sel val) =
      setPage (VirtioBalloon.pages acked) sel
        (if sel ≤ 1 then pageOf (VirtioBalloon.pages acked) sel ||| VirtioBalloon.features (sel &&& 1) &&& val
          else pageOf (VirtioBalloon.pages acked) sel) := by
  have hval : val % 2 ^ 32 = val := Nat.mod_eq_of_lt h
  have hhigh : val >>> 32 = 0 := Nat.shiftRight_eq_zero val 32 h
  have hshift : val <<< 32 % 2 ^ 32 = 0 := by
    rw [Nat.shiftLeft_eq]
    exact Nat.mul_mod_left _ _
  have hback : val <<< 32 >>> 32 = val := Nat.shiftLeft_shiftRight val 32
  match sel with
  | 0 =>
    simp only [VirtioBalloon.pages, VirtioBalloon.ackFeatures, Nat.or_mod_two_pow, Nat.and_mod_two_pow, hval,
      Nat.shiftRight_or_distrib, Nat.shiftRight_and_distrib, hhigh, Nat.and_zero, Nat.or_zero]
    rfl
  | 1 =>
    simp only [VirtioBalloon.pages, VirtioBalloon.ackFeatures, Nat.or_mod_two_pow, Nat.and_mod_two_pow, hshift,
      Nat.shiftRight_or_distrib, Nat.shiftRight_and_distrib, hback, Nat.and_zero, Nat.or_zero]
    rfl
  | sel + 2 =>
    rw [if_neg (by omega), setPage_pageOf]
    rfl

theorem DeviceKind.pages_ackFeatures (acked : kind.Acked) (sel : Nat) {val : Nat} (h : val < 2 ^ 32) :
    kind.pages (kind.ackFeatures acked sel val) =
      setPage (kind.pages acked) sel
        (kind.ackedPage (pageOf (kind.pages acked) sel) (kind.features (sel &&& 1)) sel val) := by
  cases kind with
  | block => exact ackPage_eq acked sel val
  | net => exact ackPage_eq acked sel val
  | vsock => exact ackPage_eq acked sel val
  | fs => rfl
  | balloon => exact balloon_pages_ack acked sel h

def recordedAfter {δ : Type} (t : MmioTransport δ) : FeatureEffect → Nat × Nat
  | .reset => (0, 0)
  | .negotiate val => setPage t.driverFeatures t.driverFeaturesSel val
  | .none => t.driverFeatures

def ackedAfter (t : MmioTransport (kind.Acked × ρ)) : FeatureEffect → kind.Acked
  | .reset => kind.reset t.device.1
  | .negotiate val => kind.ackFeatures t.device.1 t.driverFeaturesSel val
  | .none => t.device.1

section Writes

variable {rest : VirtioDevice (kind.Acked × ρ)} {t t' : MmioTransport (kind.Acked × ρ)}

theorem processLoop_acked {queueIdx fuel : Nat} {device device' : kind.Acked × ρ} {vq vq' : Virtqueue}
    {mem mem' : ByteStore} {raised raised' : Bool}
    (h : MmioTransport.processLoop (kind.device rest) queueIdx fuel device vq mem raised =
      some (device', vq', mem', raised')) : device'.1 = device.1 := by
  induction fuel generalizing device vq mem raised with
  | zero => cases h
  | succ fuel ih =>
    unfold MmioTransport.processLoop at h
    split at h
    · cases h
      rfl
    · exact (ih h).trans rfl

theorem processQueueDescriptors_acked {fuel queueIdx : Nat} {mem mem' : ByteStore} (hops : t.ops = kind.device rest)
    (h : t.processQueueDescriptors fuel mem queueIdx = some (t', mem')) :
    t'.driverFeatures = t.driverFeatures ∧ t'.device.1 = t.device.1 := by
  unfold MmioTransport.processQueueDescriptors at h
  split at h
  · cases h
    exact ⟨rfl, rfl⟩
  · split at h
    · cases h
      exact ⟨rfl, rfl⟩
    · obtain ⟨⟨device, vq', mem'', raised⟩, hloop, heq⟩ := Option.map_eq_some_iff.mp h
      rw [hops] at hloop
      have hacked := processLoop_acked hloop
      cases raised <;> cases heq <;> exact ⟨rfl, hacked⟩

theorem writeQueueNotify_acked {fuel val : Nat} {mem mem' : ByteStore} (hops : t.ops = kind.device rest)
    (h : t.writeQueueNotify fuel mem val = some (t', mem')) :
    t'.driverFeatures = t.driverFeatures ∧ t'.device.1 = t.device.1 := by
  have hqueue : (t.ops.processQueue t.device mem (val % 2 ^ 16)).1.1 = t.device.1 := by
    rw [hops]
    rfl
  simp only [MmioTransport.writeQueueNotify] at h
  split at h
  · have hloop := processQueueDescriptors_acked (by exact hops) h
    exact ⟨hloop.1, hloop.2.trans hqueue⟩
  · cases h
    exact ⟨rfl, hqueue⟩

theorem handleStatusWrite_acked {val : Nat} (hops : t.ops = kind.device rest) (hval : val ≠ 0) (mem : ByteStore) :
    (t.handleStatusWrite mem val).1.driverFeatures = t.driverFeatures ∧
      (t.handleStatusWrite mem val).1.device.1 = t.device.1 := by
  have hactivate : (t.activateDevice mem).2.1.1 = t.device.1 := by
    rw [MmioTransport.activateDevice, hops]
    rfl
  unfold MmioTransport.handleStatusWrite
  rw [if_neg hval]
  split
  · split
    · rename_i heq
      rw [heq] at hactivate
      exact ⟨rfl, hactivate⟩
    · rename_i heq
      rw [heq] at hactivate
      exact ⟨rfl, hactivate⟩
  · exact ⟨rfl, rfl⟩

theorem writeRegister_acked {fuel val : Nat} {mem mem' : ByteStore} {reg : Reg} (hops : t.ops = kind.device rest)
    (hreset : reg = .status → val ≠ 0)
    (hclosed : reg = .driverFeatures →
      ¬ (t.deviceStatus &&& statusFeaturesOk = 0 ∧ t.deviceStatus &&& statusDriver ≠ 0))
    (h : t.writeRegister fuel mem reg val = some (t', mem')) :
    t'.driverFeatures = t.driverFeatures ∧ t'.device.1 = t.device.1 := by
  cases reg with
  | queueNotify => exact writeQueueNotify_acked hops h
  | status =>
    have heq : t.handleStatusWrite mem val = (t', mem') := Option.some.inj h
    have hacked := handleStatusWrite_acked hops (hreset rfl) mem
    rw [heq] at hacked
    exact hacked
  | driverFeatures =>
    simp only [MmioTransport.writeRegister, MmioTransport.writeDriverFeatures, if_neg (hclosed rfl)] at h
    cases h
    exact ⟨rfl, rfl⟩
  | queueReady =>
    simp only [MmioTransport.writeRegister, MmioTransport.writeQueueReady, MmioTransport.modifyQueue,
      Option.some.injEq, Prod.mk.injEq] at h
    obtain ⟨rfl, -⟩ := h
    split <;> exact ⟨rfl, rfl⟩
  | _ =>
    cases h
    exact ⟨rfl, rfl⟩

theorem write_features {w : RegisterWrite} {mem' : ByteStore} (hops : t.ops = kind.device rest)
    (h : t.write w.fuel w.mem w.offset w.data = some (t', mem')) :
    t'.driverFeatures = recordedAfter t (featureEffect t w) ∧ t'.device.1 = ackedAfter t (featureEffect t w) := by
  unfold featureEffect
  split
  · rename_i hreg
    have hwrite : t.writeRegister w.fuel w.mem (.ofOffset w.offset) (leNat w.data) = some (t', mem') := by
      rcases write_cases h with ⟨hnot, -⟩ | ⟨-, hwrite⟩
      · exact absurd hreg hnot
      · exact hwrite
    generalize hkind : Reg.ofOffset w.offset = reg at hwrite
    split
    · split
      · rename_i hzero
        rw [hzero] at hwrite
        cases hwrite
        refine ⟨rfl, ?_⟩
        change (t.ops.reset t.device).1 = _
        rw [hops]
        rfl
      · rename_i hval
        exact writeRegister_acked hops (fun _ => hval) (fun heq => by cases heq) hwrite
    · split
      · rename_i hopen
        simp only [MmioTransport.writeRegister, MmioTransport.writeDriverFeatures, if_pos hopen] at hwrite
        cases hwrite
        refine ⟨rfl, ?_⟩
        change (t.ops.ackFeatures t.device t.driverFeaturesSel _).1 = _
        rw [hops]
        rfl
      · rename_i hclosed
        exact writeRegister_acked hops (fun heq => by cases heq) (fun _ => hclosed) hwrite
    · rename_i hstatus hfeatures
      exact writeRegister_acked hops (fun heq => absurd heq hstatus) (fun heq => absurd heq hfeatures) hwrite
  · rename_i hreg
    unfold MmioTransport.write at h
    split at h
    · cases h
      refine ⟨rfl, ?_⟩
      change (t.ops.writeConfig t.device _ _).1 = _
      rw [hops]
      rfl
    · split at h
      · cases h
        exact ⟨rfl, rfl⟩
      · exact absurd ⟨by omega, by omega⟩ hreg

end Writes

theorem keeps_iff (acked offered val : Nat) :
    val &&& offered = (acked ||| offered &&& val) &&& offered ↔ acked &&& offered &&& val = acked &&& offered := by
  constructor
  · intro h
    apply Nat.eq_of_testBit_eq
    intro i
    have hbit := congrArg (Nat.testBit · i) h
    simp only [Nat.testBit_and, Nat.testBit_or] at hbit ⊢
    revert hbit
    cases acked.testBit i <;> cases offered.testBit i <;> cases val.testBit i <;> decide
  · intro h
    apply Nat.eq_of_testBit_eq
    intro i
    have hbit := congrArg (Nat.testBit · i) h
    simp only [Nat.testBit_and, Nat.testBit_or] at hbit ⊢
    revert hbit
    cases acked.testBit i <;> cases offered.testBit i <;> cases val.testBit i <;> decide

namespace Negotiation

variable {s s' : Negotiation kind ρ} {w : RegisterWrite} {rest : VirtioDevice (kind.Acked × ρ)}

theorem step_cases (hops : s.transport.ops = kind.device rest) (h : s.step w = some s') :
    s'.transport.ops = kind.device rest ∧ s'.recorded = recordedAfter s.transport (featureEffect s.transport w) ∧
      s'.acked = kind.pages (ackedAfter s.transport (featureEffect s.transport w)) := by
  obtain ⟨⟨t', mem'⟩, hwrite, rfl⟩ := Option.map_eq_some_iff.mp h
  obtain ⟨hrecorded, hacked⟩ := write_features hops hwrite
  exact ⟨(write_writes hwrite).ops.trans hops, hrecorded, congrArg kind.pages hacked⟩

theorem consistent_iff (s : Negotiation kind ρ) (sel : Nat) : s.Consistent ↔
    pageOf s.recorded sel &&& kind.features (sel &&& 1) = pageOf s.acked sel &&& kind.features (sel &&& 1) ∧
      pageOf s.recorded (sel + 1) &&& kind.features (sel + 1 &&& 1) =
        pageOf s.acked (sel + 1) &&& kind.features (sel + 1 &&& 1) := by
  simp only [Consistent, pageOf, Nat.and_one_is_mod]
  rcases Nat.mod_two_eq_zero_or_one sel with h | h
  · rw [h, show (sel + 1) % 2 = 1 by omega]
    rfl
  · rw [h, show (sel + 1) % 2 = 0 by omega]
    exact and_comm

theorem pageOf_setPage (pages : Nat × Nat) (sel val : Nat) :
    pageOf (setPage pages sel val) sel = val ∧ pageOf (setPage pages sel val) (sel + 1) = pageOf pages (sel + 1) := by
  simp only [setPage, pageOf, Nat.and_one_is_mod]
  rcases Nat.mod_two_eq_zero_or_one sel with h | h
  · rw [h, show (sel + 1) % 2 = 1 by omega]
    exact ⟨rfl, rfl⟩
  · rw [h, show (sel + 1) % 2 = 0 by omega]
    exact ⟨rfl, rfl⟩

theorem ackOk_iff (s : Negotiation kind ρ) (val : Nat) : s.AckOk val ↔
    val &&& s.offered = kind.ackedPage (pageOf s.acked s.sel) s.offered s.sel val &&& s.offered ∧
      (s.accepted = true → val = pageOf s.recorded s.sel ∧
        kind.ackedPage (pageOf s.acked s.sel) s.offered s.sel val = pageOf s.acked s.sel) := by
  rw [show s.AckOk val ↔ _ ∧ _ ∧ _ from ⟨fun h => ⟨h.known, h.kept, h.repeated⟩, fun h => ⟨h.1, h.2.1, h.2.2⟩⟩, ← and_assoc]
  have hsel : ¬ s.sel ≤ 1 ↔ 1 < s.sel := Nat.not_le
  cases kind with
  | fs => simp [DeviceKind.ackedPage]
  | balloon =>
    by_cases h : s.sel ≤ 1
    · simp [DeviceKind.ackedPage, h, Nat.not_lt.mpr h, keeps_iff]
    · simp [DeviceKind.ackedPage, h, hsel.mp h]
  | _ =>
    by_cases h : s.sel ≤ 1
    · simp [DeviceKind.ackedPage, h, Nat.not_lt.mpr h]
    · simp [DeviceKind.ackedPage, h, hsel.mp h]

theorem negotiate_lt {δ : Type} {t : MmioTransport δ} {val : Nat} (h : featureEffect t w = .negotiate val) :
    val < 2 ^ 32 := by
  unfold featureEffect at h
  split at h
  · rename_i hreg
    have hlt := leNat_lt w.data
    rw [hreg.2] at hlt
    split at h
    · split at h <;> cases h
    · split at h
      · cases h
        exact hlt
      · cases h
    · cases h
  · cases h

theorem initial_pages (kind : DeviceKind) : kind.pages kind.initial = (0, 0) := by
  cases kind with
  | balloon =>
    change VirtioBalloon.pages 0 = (0, 0)
    decide
  | _ => rfl

theorem reset_pages (acked : kind.Acked) (hkind : kind ≠ .fs) : kind.pages (kind.reset acked) = (0, 0) := by
  rw [← initial_pages kind]
  cases kind with
  | fs => exact absurd rfl hkind
  | _ => rfl

theorem reset_ok_iff (hrecorded : s'.recorded = (0, 0)) (hacked : s'.acked = kind.pages (kind.reset s.transport.device.1)) :
    s'.Consistent ↔ (kind = .fs → s.acked.2 &&& 1 = 0) := by
  unfold Consistent
  rw [hrecorded, hacked]
  by_cases hkind : kind = .fs
  · subst hkind
    have hlow : ∀ a : Nat, a &&& DeviceKind.features .fs 0 = 0 := fun a => Nat.and_zero a
    have hhigh : DeviceKind.features .fs 1 = 1 := rfl
    rw [hlow, hlow, hhigh, Nat.zero_and]
    simp only [true_and, forall_const]
    exact eq_comm
  · rw [reset_pages _ hkind]
    simp [hkind]

theorem step_ok_iff (hops : s.transport.ops = kind.device rest) (h : s.step w = some s') (hs : s.Consistent) :
    s'.Consistent ∧ Frozen s w s' ↔ s.StepOk w := by
  obtain ⟨-, hrecorded, hacked⟩ := step_cases hops h
  unfold Frozen StepOk
  cases heffect : featureEffect s.transport w with
  | reset =>
    rw [heffect] at hrecorded hacked
    simp [reset_ok_iff hrecorded hacked]
  | none =>
    rw [heffect] at hrecorded hacked
    have hsame : s'.Consistent := by
      unfold Consistent
      rw [hrecorded, hacked]
      exact hs
    exact iff_of_true ⟨hsame, fun _ _ => ⟨hrecorded, hacked⟩⟩ trivial
  | negotiate val =>
    rw [heffect] at hrecorded hacked
    rw [ackedAfter, DeviceKind.pages_ackFeatures _ _ (negotiate_lt heffect)] at hacked
    change s'.recorded = setPage s.recorded s.sel val at hrecorded
    change s'.acked = setPage s.acked s.sel (kind.ackedPage (pageOf s.acked s.sel) s.offered s.sel val) at hacked
    have hother := ((consistent_iff s s.sel).mp hs).2
    have hpages := pageOf_setPage s.recorded s.sel val
    have hpages' := pageOf_setPage s.acked s.sel (kind.ackedPage (pageOf s.acked s.sel) s.offered s.sel val)
    dsimp only
    rw [ackOk_iff, consistent_iff s' s.sel, hrecorded, hacked, hpages.1, hpages.2, hpages'.1, hpages'.2,
      and_iff_left hother, setPage_eq_iff, setPage_eq_iff]
    simp [offered]

end Negotiation

/-- The copies agree in every state of a run, and stay once `FEATURES_OK` is accepted, exactly when every
write of the run meets `StepOk`. -/
theorem features_consistent_iff (kind : DeviceKind) (rest : VirtioDevice (kind.Acked × ρ)) (r : ρ) (irq : Nat)
    (layout : GuestLayout) (run : List RegisterWrite) (s : Negotiation kind ρ) :
    Steps (fun s w s' => s.step w = some s' ∧ s'.Consistent ∧ s.Frozen w s')
        ⟨.fresh (kind.device rest) (kind.initial, r) irq layout, false⟩ run s ↔
      Steps (fun s w s' => s.step w = some s' ∧ s.StepOk w)
        ⟨.fresh (kind.device rest) (kind.initial, r) irq layout, false⟩ run s := by
  apply Steps.iff_of_step_and (I := fun s => s.transport.ops = kind.device rest)
  · intro s w s' hstep hops
    exact (Negotiation.step_cases hops hstep).1
  · intro s w s' hstep hops hs
    exact Negotiation.step_ok_iff hops hstep hs
  · rfl
  · have hacked : Negotiation.acked
        ⟨MmioTransport.fresh (kind.device rest) (kind.initial, r) irq layout, false⟩ = (0, 0) := by
      rw [← Negotiation.initial_pages kind]
      simp only [Negotiation.acked, MmioTransport.fresh, MmioTransport.setGuestMemoryWithHole]
      split <;> rfl
    unfold Negotiation.Consistent
    rw [hacked]
    exact ⟨rfl, rfl⟩

def VirtioDevice.inert (δ : Type) : VirtioDevice δ where
  deviceType := 2
  queueMaxSizes := [256]
  features := fun _ _ => 0
  ackFeatures := fun d _ _ => d
  readConfig := fun _ _ len => List.replicate len 0
  writeConfig := fun d _ _ => d
  activate := fun d mem => (true, d, mem)
  processQueue := fun d mem _ => (d, mem)
  processDescriptorChain := fun d mem _ _ _ => (0, d, mem)
  transportProcessesQueue := fun _ _ => true
  prepareActivate := fun d _ _ _ _ => d
  setMemoryHole := fun d _ _ => d
  reset := fun d => d
  snapshotState := fun _ => []
  restoreState := fun d _ => some d

def write32 (offset : Nat) (val : UInt8) : RegisterWrite := ⟨0, fun _ => 0, offset, [val, 0, 0, 0]⟩

theorem features_consistent_fails :
    ∃ s : Negotiation .block Unit,
      Steps (fun s w s' => s.step w = some s')
        ⟨.fresh (DeviceKind.device .block (.inert _)) (DeviceKind.initial .block, ()) 5 ⟨true, 4096, 0, 0⟩, false⟩
        [write32 0x070 2, write32 0x024 2, write32 0x020 0x40] s ∧
      s.recorded.1 &&& DeviceKind.features .block 0 = 0x40 ∧ s.acked.1 &&& DeviceKind.features .block 0 = 0 ∧
      ¬ s.Consistent := by
  refine ⟨_, .cons rfl (.cons rfl (.cons rfl (.nil _))), rfl, rfl, ?_⟩
  intro h
  exact absurd h.1 (by decide)

end CloneVmm.Virtio
