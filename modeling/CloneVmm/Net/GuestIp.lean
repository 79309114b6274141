import Mathlib.Data.List.Perm.Basic
import Mathlib.Tactic.Ring
import CloneVmm.Lib.Run

/-!
`net/mod.rs`: the guest addresses that `auto_setup_network` hands out on one bridge, over the set-ups
and tear-downs of VMs.
-/

namespace CloneVmm.Net

open CloneVmm.Lib

structure Ipv4 where
  a : UInt8
  b : UInt8
  c : UInt8
  d : UInt8
  deriving DecidableEq

def defaultBridgeIp : Ipv4 := ⟨172, 30, 0, 1⟩

def Ipv4.InSubnet (ip : Ipv4) : Prop := ip.a = 172 ∧ ip.b = 30

def tapName (vmIndex : UInt32) : String := s!"nvm-{vmIndex.toNat}"

structure Vm where
  vmIndex : UInt32
  guestIp : Ipv4
  aliveBefore : Nat
  deriving DecidableEq

structure Host where
  brif : List String
  vms : List Vm
  deriving DecidableEq

def Host.empty : Host := ⟨[], []⟩

def allocateGuestIp (host : Host) : Nat := (host.brif.length % 2 ^ 32 + 2) % 2 ^ 32

def guestIpOf (guestIndex : Nat) : Ipv4 := ⟨172, 30, UInt8.ofNat (guestIndex / 256), UInt8.ofNat (guestIndex % 256)⟩

def autoSetupNetwork (host : Host) (vmIndex : UInt32) : String × Ipv4 × List String :=
  (tapName vmIndex, guestIpOf (allocateGuestIp host), tapName vmIndex :: host.brif)

inductive Action
  | setUp (vmIndex : UInt32)
  | tearDown (vmIndex : UInt32)
  deriving DecidableEq

def next (host : Host) : Action → Option Host
  | .setUp vmIndex =>
    if host.vms.all fun vm => vm.vmIndex != vmIndex then
      let (_, guestIp, brif) := autoSetupNetwork host vmIndex
      some ⟨brif, ⟨vmIndex, guestIp, host.vms.length⟩ :: host.vms⟩
    else none
  | .tearDown vmIndex =>
    (host.vms.find? fun vm => vm.vmIndex == vmIndex).map fun vm =>
      ⟨host.brif.erase (tapName vmIndex), host.vms.erase vm⟩

structure DistinctAddresses (host : Host) : Prop where
  distinct : host.vms.Pairwise fun vm vm' => vm.guestIp ≠ vm'.guestIp
  subnet : ∀ vm ∈ host.vms, vm.guestIp.InSubnet
  notBridge : ∀ vm ∈ host.vms, vm.guestIp ≠ defaultBridgeIp

def FreshCount (host : Host) : Action → Prop
  | .setUp _ => host.vms.length % 65536 ≠ 65535 ∧ ∀ vm ∈ host.vms, vm.aliveBefore % 65536 ≠ host.vms.length % 65536
  | .tearDown _ => True

variable {host host' : Host} {action : Action}

theorem next_setUp {vmIndex : UInt32} :
    next host (.setUp vmIndex) = some host' ↔
      (∀ vm ∈ host.vms, vm.vmIndex ≠ vmIndex) ∧
        host' = ⟨tapName vmIndex :: host.brif,
          ⟨vmIndex, guestIpOf (allocateGuestIp host), host.vms.length⟩ :: host.vms⟩ := by
  simp only [next, autoSetupNetwork, List.all_eq_true, bne_iff_ne, Option.ite_none_right_eq_some, Option.some.injEq]
  exact and_congr_right fun _ => eq_comm

theorem next_tearDown {vmIndex : UInt32} (h : next host (.tearDown vmIndex) = some host') :
    ∃ vm ∈ host.vms, vm.vmIndex = vmIndex ∧ host' = ⟨host.brif.erase (tapName vm.vmIndex), host.vms.erase vm⟩ := by
  obtain ⟨vm, hfind, rfl⟩ := Option.map_eq_some_iff.mp h
  have hindex : vm.vmIndex = vmIndex := by simpa using List.find?_some hfind
  subst hindex
  exact ⟨vm, List.mem_of_find?_eq_some hfind, rfl, rfl⟩

theorem uint8_ofNat_inj {m n : Nat} : UInt8.ofNat m = UInt8.ofNat n ↔ m % 256 = n % 256 := by
  rw [← UInt8.toNat_inj, UInt8.toNat_ofNat', UInt8.toNat_ofNat']

theorem guestIpOf_inj {i j : Nat} : guestIpOf i = guestIpOf j ↔ i % 65536 = j % 65536 := by
  simp only [guestIpOf, Ipv4.mk.injEq, true_and, uint8_ofNat_inj]
  omega

theorem defaultBridgeIp_eq : defaultBridgeIp = guestIpOf 1 := by decide

def ipAfter (taps : Nat) : Ipv4 := guestIpOf ((taps % 2 ^ 32 + 2) % 2 ^ 32)

theorem ipAfter_inj {m n : Nat} : ipAfter m = ipAfter n ↔ m % 65536 = n % 65536 := by
  rw [ipAfter, ipAfter, guestIpOf_inj]
  omega

theorem ipAfter_eq_bridge {n : Nat} : ipAfter n = defaultBridgeIp ↔ n % 65536 = 65535 := by
  rw [defaultBridgeIp_eq, ipAfter, guestIpOf_inj]
  omega

structure Consistent (host : Host) : Prop where
  taps : host.brif.Perm (host.vms.map fun vm => tapName vm.vmIndex)
  address : ∀ vm ∈ host.vms, vm.guestIp = ipAfter vm.aliveBefore

theorem consistent_empty : Consistent Host.empty := ⟨.nil, List.forall_mem_nil _⟩

theorem Consistent.guestIp_eq (h : Consistent host) :
    guestIpOf (allocateGuestIp host) = ipAfter host.vms.length := by
  rw [allocateGuestIp, h.taps.length_eq, List.length_map]
  rfl

theorem Consistent.next (h : Consistent host) (hnext : next host action = some host') : Consistent host' := by
  cases action with
  | setUp vmIndex =>
    obtain ⟨-, rfl⟩ := next_setUp.mp hnext
    exact ⟨h.taps.cons _, List.forall_mem_cons.mpr ⟨h.guestIp_eq, h.address⟩⟩
  | tearDown vmIndex =>
    obtain ⟨vm, hvm, -, rfl⟩ := next_tearDown hnext
    constructor
    · have hperm := h.taps.trans ((List.perm_cons_erase hvm).map _)
      have herase := hperm.erase (tapName vm.vmIndex)
      rwa [List.map_cons, List.erase_cons_head] at herase
    · exact fun vm' hvm' => h.address vm' (List.mem_of_mem_erase hvm')

theorem distinctAddresses_next (h : Consistent host) (hnext : next host action = some host')
    (hdistinct : DistinctAddresses host) : DistinctAddresses host' ↔ FreshCount host action := by
  cases action with
  | setUp vmIndex =>
    obtain ⟨-, rfl⟩ := next_setUp.mp hnext
    have hip := h.guestIp_eq
    have hother : ∀ vm ∈ host.vms, guestIpOf (allocateGuestIp host) ≠ vm.guestIp ↔
        vm.aliveBefore % 65536 ≠ host.vms.length % 65536 := by
      intro vm hvm
      rw [hip, h.address vm hvm, ne_eq, ipAfter_inj, eq_comm]
    have hbridge : guestIpOf (allocateGuestIp host) ≠ defaultBridgeIp ↔ host.vms.length % 65536 ≠ 65535 := by
      rw [hip, ne_eq, ipAfter_eq_bridge]
    constructor
    · rintro ⟨hpair, -, hnotBridge⟩
      refine ⟨hbridge.mp (hnotBridge _ List.mem_cons_self), ?_⟩
      intro vm hvm
      exact (hother vm hvm).mp (List.rel_of_pairwise_cons hpair hvm)
    · rintro ⟨hcount, hfresh⟩
      refine ⟨List.pairwise_cons.mpr ⟨?_, hdistinct.distinct⟩, ?_, ?_⟩
      · exact fun vm hvm => (hother vm hvm).mpr (hfresh vm hvm)
      · exact List.forall_mem_cons.mpr ⟨⟨rfl, rfl⟩, hdistinct.subnet⟩
      · exact List.forall_mem_cons.mpr ⟨hbridge.mpr hcount, hdistinct.notBridge⟩
  | tearDown vmIndex =>
    obtain ⟨vm, -, -, rfl⟩ := next_tearDown hnext
    refine iff_of_true ⟨?_, ?_, ?_⟩ trivial
    · exact hdistinct.distinct.sublist List.erase_sublist
    · exact fun vm' hvm' => hdistinct.subnet vm' (List.mem_of_mem_erase hvm')
    · exact fun vm' hvm' => hdistinct.notBridge vm' (List.mem_of_mem_erase hvm')

theorem liveAddresses_distinct_iff (actions : List Action) (host : Host) :
    Steps (fun s a t => next s a = some t ∧ DistinctAddresses t) Host.empty actions host ↔
      Steps (fun s a t => next s a = some t ∧ FreshCount s a) Host.empty actions host := by
  apply Steps.iff_of_step (I := Consistent)
  · exact fun s a t hnext h => h.next hnext
  · exact fun s a t hnext h hdistinct => distinctAddresses_next h hnext hdistinct
  · exact consistent_empty
  · exact ⟨List.Pairwise.nil, List.forall_mem_nil _, List.forall_mem_nil _⟩

theorem liveAddresses_distinct_fails :
    ∃ host, Steps (fun s a t => next s a = some t) Host.empty
        [.setUp 101, .setUp 102, .tearDown 101, .setUp 103] host ∧
      host.vms = [⟨103, ⟨172, 30, 0, 3⟩, 1⟩, ⟨102, ⟨172, 30, 0, 3⟩, 1⟩] ∧ ¬ DistinctAddresses host := by
  have hrun : Steps.trace next (fun _ _ => True) Host.empty [.setUp 101, .setUp 102, .tearDown 101, .setUp 103] =
      some ⟨["nvm-103", "nvm-102"], [⟨103, ⟨172, 30, 0, 3⟩, 1⟩, ⟨102, ⟨172, 30, 0, 3⟩, 1⟩]⟩ := by decide
  refine ⟨_, (Steps.of_trace hrun).mono fun _ _ _ h => h.1, rfl, ?_⟩
  intro hdistinct
  exact List.rel_of_pairwise_cons hdistinct.distinct List.mem_cons_self rfl

end CloneVmm.Net
