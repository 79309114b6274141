import CloneVmm.Vmm.PciRegisters

namespace CloneVmm.Vmm.Pci

open CloneVmm.Lib

namespace PciBus

def access (bus : PciBus) (addr : UInt64) : Option (Nat × Nat × UInt64) :=
  (findBar addr bus.devices).map fun (k, bar) => (k, bar.index, addr - bar.guestAddr)

theorem handleBarRead_eq (pread : Nat → Pread) (bus : PciBus) (addr : UInt64) (data : List UInt8) :
    bus.handleBarRead pread addr data = (bus.access addr).map fun (k, region, offset) =>
      match bus.devices[k]?.bind PciDevice.vfio with
      | none => data
      | some vfio =>
        match vfio.barRead (pread k) region offset data.length with
        | some readData => readData ++ data.drop readData.length
        | none => List.replicate data.length 0xFF := by
  rw [handleBarRead, access, Option.map_map]
  rfl

theorem handleBarWrite_eq (bus : PciBus) (addr : UInt64) (data : List UInt8) :
    bus.handleBarWrite addr data = (bus.access addr).map fun (k, region, offset) =>
      { bus with
        devices := bus.devices.modify k fun dev =>
          { dev with vfio := dev.vfio.map fun vfio => vfio.barWrite region offset data } } := by
  rw [handleBarWrite, access, Option.map_map]
  rfl

def configWrite (bus : PciBus) (w : ConfigWrite) : PciBus :=
  { bus with devices := bus.devices.modify w.device fun dev => dev.configWrite w.off w.data }

theorem handleEcamWrite_eq {bus bus' : PciBus} {addr : UInt64} {data : List UInt8}
    (h : bus.handleEcamWrite addr data = some bus') : bus' = bus ∨ ∃ k off, bus' = bus.configWrite ⟨k, off, data⟩ := by
  rw [handleEcamWrite] at h
  split at h
  · dsimp only at h
    split at h
    · exact .inl (Option.some.inj h).symm
    · exact .inr ⟨_, _, (Option.some.inj h).symm⟩
  · cases h

section FindBar

variable {addr : UInt64} {k : Nat} {dev : PciDevice} {bar : PciBar}

theorem findBar_congr {devices devices' : List PciDevice}
    (h : devices.map PciDevice.bars = devices'.map PciDevice.bars) :
    findBar addr devices = findBar addr devices' := by
  induction devices generalizing devices' with
  | nil =>
    obtain rfl := List.map_eq_nil_iff.mp h.symm
    rfl
  | cons dev devices ih =>
    cases devices' with
    | nil => cases h
    | cons dev' devices' =>
      rw [List.map_cons, List.map_cons, List.cons.injEq] at h
      rw [findBar, findBar, h.1, ih h.2]

theorem findBar_some {devices : List PciDevice} (h : findBar addr devices = some (k, bar)) :
    ∃ dev, devices[k]? = some dev ∧ bar ∈ dev.bars ∧ bar.contains addr = true := by
  induction devices generalizing k with
  | nil => cases h
  | cons dev devices ih =>
    rw [findBar] at h
    cases hfind : dev.bars.find? fun bar => bar.contains addr with
    | some bar' =>
      rw [hfind] at h
      cases h
      exact ⟨dev, rfl, List.mem_of_find?_eq_some hfind, by simpa using List.find?_some hfind⟩
    | none =>
      rw [hfind] at h
      obtain ⟨⟨k', bar'⟩, hlater, heq⟩ := Option.map_eq_some_iff.mp h
      cases heq
      exact ih hlater

theorem contains_iff (hwrap : bar.guestAddr.toNat + bar.size.toNat < 2 ^ 64) :
    bar.contains addr = true ↔ bar.span.Covers addr.toNat := by
  have hsum : (bar.guestAddr + bar.size).toNat = bar.guestAddr.toNat + bar.size.toNat := by
    rw [UInt64.toNat_add, Nat.mod_eq_of_lt hwrap]
  rw [PciBar.contains, Bool.and_eq_true, decide_eq_true_iff, decide_eq_true_iff, UInt64.le_iff_toNat_le,
    UInt64.lt_iff_toNat_lt, hsum]
  rfl

theorem findBar_of_contains {devices : List PciDevice}
    (hapart : ((devices.flatMap PciDevice.bars).map PciBar.span).Pairwise Span.Apart)
    (hwrap : ∀ bar ∈ devices.flatMap PciDevice.bars, bar.guestAddr.toNat + bar.size.toNat < 2 ^ 64)
    (hdev : devices[k]? = some dev) (hbar : bar ∈ dev.bars) (h : bar.contains addr = true) :
    findBar addr devices = some (k, bar) := by
  have hclash : ∀ bar bar' : PciBar, bar ∈ devices.flatMap PciDevice.bars → bar' ∈ devices.flatMap PciDevice.bars →
      bar.span.Apart bar'.span → bar.contains addr = true → bar'.contains addr = true → False := by
    intro bar bar' hmem hmem' hapart h h'
    exact hapart addr.toNat ((contains_iff (hwrap bar hmem)).mp h) ((contains_iff (hwrap bar' hmem')).mp h')
  rw [List.pairwise_map] at hapart
  induction devices generalizing k with
  | nil => cases hdev
  | cons head devices ih =>
    rw [List.flatMap_cons] at hapart hwrap hclash
    rw [List.pairwise_append] at hapart
    cases k with
    | zero =>
      cases hdev
      have hsome : (dev.bars.find? fun bar => bar.contains addr).isSome = true :=
        List.find?_isSome.mpr ⟨bar, hbar, h⟩
      obtain ⟨found, hfind⟩ := Option.isSome_iff_exists.mp hsome
      have hfound : found ∈ dev.bars := List.mem_of_find?_eq_some hfind
      have hcontains : found.contains addr = true := by
        simpa using List.find?_some hfind
      have hsame : found = bar := by
        by_contra hne
        have hsymm : Std.Symm fun b b' : PciBar => b.span.Apart b'.span := ⟨fun _ _ h' => h'.symm⟩
        exact hclash found bar (List.mem_append_left _ hfound) (List.mem_append_left _ hbar)
          (hapart.1.forall hfound hbar hne) hcontains h
      rw [findBar, hfind, hsame]
    | succ k =>
      have hlater : bar ∈ devices.flatMap PciDevice.bars :=
        List.mem_flatMap.mpr ⟨dev, List.mem_of_getElem? hdev, hbar⟩
      have hnone : (head.bars.find? fun bar => bar.contains addr) = none := by
        rw [List.find?_eq_none]
        intro bar' hbar' hcontains
        exact hclash bar' bar (List.mem_append_left _ hbar') (List.mem_append_right _ hlater)
          (hapart.2.2 bar' hbar' bar hlater) hcontains h
      have hrest := ih hapart.2.1 (fun bar hmem => hwrap bar (List.mem_append_right _ hmem)) hdev
        fun bar bar' hmem hmem' => hclash bar bar' (List.mem_append_right _ hmem) (List.mem_append_right _ hmem')
      rw [findBar, hnone, hrest]
      rfl

end FindBar

end PciBus

def barBase (dev : PciDevice) (bar : PciBar) : Nat :=
  dev.configRead (regOffset bar.index) 4 / 16 * 16 +
    if bar.is64bit then dev.configRead (regOffset (bar.index + 1)) 4 * 2 ^ 32 else 0

def Sizing (k : Nat) (bar : PciBar) (ws : List ConfigWrite) : Prop :=
  lastWrite k bar.index ws = some allOnes ∨
    (bar.is64bit = true ∧ lastWrite k (bar.index + 1) ws = some allOnes)

instance (k : Nat) (bar : PciBar) (ws : List ConfigWrite) : Decidable (Sizing k bar ws) :=
  inferInstanceAs (Decidable (_ ∨ _))

structure Follows (bus : PciBus) (ws : List ConfigWrite) (k : Nat) (dev0 dev : PciDevice) : Prop where
  sized : ∀ bar ∈ dev0.bars, lastWrite k bar.index ws = some allOnes →
    dev.configRead (regOffset bar.index) 4 = 2 ^ 32 - bar.size.toNat + bar.typeBits.toNat
  addressed : ∀ bar ∈ dev0.bars, ∀ addr, lastWrite k bar.index ws = some addr → addr ≠ allOnes →
    bar.size.toNat ∣ addr.toNat → dev.configRead (regOffset bar.index) 4 = addr.toNat + bar.typeBits.toNat
  upper : ∀ bar ∈ dev0.bars, bar.is64bit = true → ∀ v, lastWrite k (bar.index + 1) ws = some v →
    dev.configRead (regOffset (bar.index + 1)) 4 = v.toNat
  routed : ∀ bar ∈ dev0.bars, ¬ Sizing k bar ws → ∀ addr offset, bus.access addr = some (k, bar.index, offset) ↔
    barBase dev bar ≤ addr.toNat ∧ addr.toNat < barBase dev bar + bar.size.toNat ∧
      offset.toNat = addr.toNat - barBase dev bar
  hardWired : ∀ j < 6, ¬ Held dev0.bars j → dev.configRead (regOffset j) 4 = dev0.configRead (regOffset j) 4

def BarsFollow (bus0 : PciBus) (ws : List ConfigWrite) (bus : PciBus) : Prop :=
  ∀ k dev0 dev, bus0.devices[k]? = some dev0 → bus.devices[k]? = some dev → Follows bus ws k dev0 dev

structure Regular (dev : PciDevice) : Prop where
  sixteen : ∀ bar ∈ dev.bars, 16 ≤ bar.size.toNat
  pairs : ∀ bar ∈ dev.bars, bar.is64bit = true → bar.index + 1 < 6 ∧ ∀ bar' ∈ dev.bars, bar'.index ≠ bar.index + 1

def TrackedRun (start : PciBus) (ws : List ConfigWrite) (bus : PciBus) : Prop :=
  Steps (fun bus w bus' => bus' = bus.configWrite w ∧
    ∀ dev, bus.devices[w.device]? = some dev → Tracked dev w.off w.data) start ws bus

section Added

variable {devs : List (Pread × VfioDevice)}

theorem addDevices_written (devs : List (Pread × VfioDevice)) :
    ∀ dev ∈ (PciBus.new.addDevices devs).devices, ∃ (a : Allocation) (n : Nat), a.Written n ∧ dev.config = a.config ∧
      dev.bars = a.bars := by
  induction devs using List.reverseRecOn with
  | nil => exact fun dev hdev => absurd hdev List.not_mem_nil
  | append_singleton devs dev ih =>
    rw [PciBus.addDevices, List.foldl_append, ← PciBus.addDevices]
    intro dev' hdev'
    rcases List.mem_append.mp hdev' with hold | hnew
    · exact ih dev' hold
    · obtain rfl := List.mem_singleton.mp hnew
      have hstart : Allocation.Written
          ⟨(PciBus.new.addDevices devs).mmioNext, PciBus.initialConfig dev.1 dev.2, []⟩ 0 :=
        ⟨fun _ hbar => absurd hbar List.not_mem_nil, .nil, fun _ hbar => absurd hbar List.not_mem_nil,
          fun _ hbar => absurd hbar List.not_mem_nil⟩
      obtain ⟨n, hn⟩ := hstart.addRegions
      exact ⟨_, n, hn, rfl, rfl⟩

theorem addDevices_apart (hsmall : ∀ size ∈ requests devs, size.toNat ≤ 2 ^ 62) :
    ((PciBus.new.addDevices devs).bars.map PciBar.span).Pairwise Span.Apart ∧
      ∀ bar ∈ (PciBus.new.addDevices devs).bars, bar.guestAddr.toNat + bar.size.toNat ≤ pciMmioEnd ∧
        ∃ n, bar.size.toNat = 2 ^ n ∧ 2 ^ n ∣ bar.guestAddr.toNat := by
  have hplaced := addDevices_placed devs
  obtain ⟨hblocks, hapart⟩ := placements_apart hsmall (by decide : mmioStart.toNat ≤ 2 ^ 62)
  rw [← hplaced] at hblocks hapart
  exact ⟨hapart, fun bar hbar => (hblocks bar.span (List.mem_map_of_mem hbar)).2⟩

theorem addDevices_laid (hsmall : ∀ size ∈ requests devs, size.toNat ≤ 2 ^ 62) {dev : PciDevice}
    (hdev : dev ∈ (PciBus.new.addDevices devs).devices) (hregular : Regular dev) : Laid dev := by
  obtain ⟨a, n, hwritten, hconfig, hbars⟩ := addDevices_written devs dev hdev
  have hsized : ∀ bar ∈ dev.bars, ∃ n, bar.Sized n := by
    intro bar hbar
    obtain ⟨hend, m, hsize, hdvd⟩ := (addDevices_apart hsmall).2 bar (List.mem_flatMap.mpr ⟨dev, hdev, hbar⟩)
    have hsixteen := hregular.sixteen bar hbar
    rw [hsize] at hsixteen hend
    refine ⟨m, ?_, ?_, hsize, hdvd, hend⟩
    · by_contra hlt
      have := Nat.pow_lt_pow_right (by decide : 1 < 2) (Nat.not_le.mp hlt)
      omega
    · by_contra hle
      have hbig := Nat.pow_le_pow_right (by decide : 0 < 2) (Nat.not_lt.mp hle)
      have hwindow : pciMmioEnd = 0xCFFFFFFF := rfl
      omega
  refine ⟨?_, ?_, hsized, hregular.pairs, ?_, ?_⟩
  · intro bar hbar
    exact (hwritten.index bar (hbars ▸ hbar)).2
  · rw [hbars]
    exact hwritten.increasing
  · intro bar hbar
    rw [hconfig]
    exact hwritten.low bar (hbars ▸ hbar)
  · intro bar hbar h64
    obtain ⟨hlt, hfree⟩ := hregular.pairs bar hbar h64
    obtain ⟨m, hm⟩ := hsized bar hbar
    rw [hconfig, ← hm.guestAddr_high]
    refine (hwritten.high bar (hbars ▸ hbar) h64 hlt).resolve_left ?_
    rintro ⟨bar', hbar', hindex⟩
    exact hfree bar' (hbars ▸ hbar') hindex

theorem configRead_register (dev : PciDevice) {j : Nat} (hj : j < 6) :
    dev.configRead (regOffset j) 4 = (word dev.config (regOffset j)).toNat := by
  have hend := regOffset_le hj
  have hsize : barsEnd ≤ configSize := by decide
  exact dev.configRead_word (hend.trans hsize)

theorem Registers.base_eq {k : Nat} {ws : List ConfigWrite} {dev0 dev : PciDevice} (h : Registers k ws dev0 dev)
    (hlaid : Laid dev0) {bar : PciBar} (hbar : bar ∈ dev0.bars) (hsizing : ¬ Sizing k bar ws) :
    barBase dev bar = bar.guestAddr.toNat := by
  obtain ⟨n, hsized⟩ := hlaid.sized bar hbar
  have hlow : dev.configRead (regOffset bar.index) 4 = bar.guestAddr.toNat + bar.typeBits.toNat := by
    rw [configRead_register dev (hlaid.index bar hbar), h.low bar hbar, if_neg fun h' => hsizing (.inl h'),
      PciBar.or_typeBits_toNat hsized.sixteen_dvd_guestAddr, hsized.guestAddr_toUInt32]
  have hdvd : 16 ∣ bar.guestAddr.toNat := hsized.sixteen_dvd.trans hsized.2.2.2.1
  have hlt := bar.typeBits_lt
  have hround : (bar.guestAddr.toNat + bar.typeBits.toNat) / 16 * 16 = bar.guestAddr.toNat := by
    omega
  rw [barBase, hlow, hround]
  split
  · rename_i h64
    rw [configRead_register dev (hlaid.pairs bar hbar h64).1, h.high bar hbar h64,
      if_neg fun h' => hsizing (.inr ⟨h64, h'⟩)]
    rfl
  · rfl

theorem Registers.follows {bus : PciBus} {k : Nat} {ws : List ConfigWrite} {dev0 dev : PciDevice}
    (h : Registers k ws dev0 dev) (hlaid : Laid dev0)
    (hfind : ∀ addr found, PciBus.findBar addr bus.devices = some (k, found) ↔
      found ∈ dev0.bars ∧ found.span.Covers addr.toNat) : Follows bus ws k dev0 dev := by
  refine ⟨?_, ?_, ?_, ?_, ?_⟩
  · intro bar hbar hlast
    obtain ⟨n, hsized⟩ := hlaid.sized bar hbar
    rw [configRead_register dev (hlaid.index bar hbar), h.low bar hbar, if_pos hlast,
      PciBar.or_typeBits_toNat hsized.sixteen_dvd_mask, hsized.mask_toNat, hsized.2.2.1]
  · intro bar hbar addr hlast hones hdvd
    obtain ⟨n, hsized⟩ := hlaid.sized bar hbar
    have hne : lastWrite k bar.index ws ≠ some allOnes := by
      rw [hlast]
      exact fun h' => hones (Option.some.inj h')
    have hmasked := congrArg UInt32.toNat (h.lowValue bar hbar addr hlast hones)
    rw [hsized.2.2.1] at hdvd
    rw [hsized.and_mask, Nat.div_mul_cancel hdvd] at hmasked
    rw [configRead_register dev (hlaid.index bar hbar), h.low bar hbar, if_neg hne,
      PciBar.or_typeBits_toNat hsized.sixteen_dvd_guestAddr, ← hmasked]
  · intro bar hbar h64 v hlast
    rw [configRead_register dev (hlaid.pairs bar hbar h64).1, h.high bar hbar h64, hlast]
    by_cases hones : v = allOnes
    · rw [if_pos (congrArg some hones), hones]
    · rw [if_neg fun h' => hones (Option.some.inj h'), h.highValue bar hbar h64 v hlast hones]
  · intro bar hbar hsizing addr offset
    rw [h.base_eq hlaid hbar hsizing, PciBus.access, Option.map_eq_some_iff]
    constructor
    · rintro ⟨⟨k', found⟩, hfound, heq⟩
      rw [Prod.mk.injEq, Prod.mk.injEq] at heq
      obtain ⟨rfl, hindex, rfl⟩ := heq
      obtain ⟨hmem, hcovers⟩ := (hfind addr found).mp hfound
      obtain rfl := hlaid.eq_of_index hmem hbar hindex
      exact ⟨hcovers.1, hcovers.2, UInt64.toNat_sub_of_le _ _ (UInt64.le_iff_toNat_le.mpr hcovers.1)⟩
    · rintro ⟨hle, hlt, hoffset⟩
      refine ⟨(k, bar), (hfind addr bar).mpr ⟨hbar, hle, hlt⟩, ?_⟩
      have hsub : addr - bar.guestAddr = offset := by
        apply UInt64.toNat_inj.mp
        rw [hoffset]
        exact UInt64.toNat_sub_of_le _ _ (UInt64.le_iff_toNat_le.mpr hle)
      exact congrArg (fun off => (k, bar.index, off)) hsub
  · intro j hj hfree
    rw [configRead_register dev hj, configRead_register dev0 hj, h.hard j hj hfree]

theorem Registers.elsewhere {k : Nat} {ws : List ConfigWrite} {w : ConfigWrite} {dev0 dev : PciDevice}
    (h : Registers k ws dev0 dev) (hlaid : Laid dev0) (hw : w.device ≠ k) : Registers k (ws ++ [w]) dev0 dev :=
  h.of_same (fun _ _ => rfl) hlaid fun _ _ hsets => hw hsets.1

theorem TrackedRun.registers {bus0 bus : PciBus} {ws : List ConfigWrite} (h : TrackedRun bus0 ws bus)
    (hlaid : ∀ dev ∈ bus0.devices, Laid dev) :
    bus.devices.length = bus0.devices.length ∧
      ∀ k dev0 dev, bus0.devices[k]? = some dev0 → bus.devices[k]? = some dev → Registers k ws dev0 dev := by
  refine Steps.invariant_history (P := fun ws bus => bus.devices.length = bus0.devices.length ∧
    ∀ k dev0 dev, bus0.devices[k]? = some dev0 → bus.devices[k]? = some dev → Registers k ws dev0 dev) ?_ h ?_
  · rintro ws bus w bus' ⟨rfl, htracked⟩ ⟨hlength, hregisters⟩
    refine ⟨(List.length_modify ..).trans hlength, ?_⟩
    intro k dev0 dev' hdev0 hdev'
    have hlaid0 := hlaid dev0 (List.mem_of_getElem? hdev0)
    rw [PciBus.configWrite, List.getElem?_modify] at hdev'
    obtain ⟨dev, hdev, rfl⟩ := Option.map_eq_some_iff.mp hdev'
    have hbefore := hregisters k dev0 dev hdev0 hdev
    by_cases hk : w.device = k
    · rw [if_pos hk]
      exact hbefore.step hlaid0 hk (htracked dev (hk ▸ hdev))
    · rw [if_neg hk]
      exact hbefore.elsewhere hlaid0 hk
  · refine ⟨rfl, ?_⟩
    intro k dev0 dev hdev0 hdev
    rw [hdev0] at hdev
    cases hdev
    exact (hlaid dev0 (List.mem_of_getElem? hdev0)).registers k

theorem bars_follow {ws : List ConfigWrite} {bus : PciBus} (hsmall : ∀ size ∈ requests devs, size.toNat ≤ 2 ^ 62)
    (hregular : ∀ dev ∈ (PciBus.new.addDevices devs).devices, Regular dev)
    (hrun : TrackedRun (PciBus.new.addDevices devs) ws bus) : BarsFollow (PciBus.new.addDevices devs) ws bus := by
  have hlaid : ∀ dev ∈ (PciBus.new.addDevices devs).devices, Laid dev :=
    fun dev hdev => addDevices_laid hsmall hdev (hregular dev hdev)
  obtain ⟨hlength, hregisters⟩ := hrun.registers hlaid
  obtain ⟨hapart, hend⟩ := addDevices_apart hsmall
  have hwrap : ∀ bar ∈ (PciBus.new.addDevices devs).bars, bar.guestAddr.toNat + bar.size.toNat < 2 ^ 64 := by
    intro bar hbar
    have hle := (hend bar hbar).1
    have hwindow : pciMmioEnd = 0xCFFFFFFF := rfl
    omega
  have hbars : bus.devices.map PciDevice.bars = (PciBus.new.addDevices devs).devices.map PciDevice.bars := by
    apply List.ext_getElem (by rw [List.length_map, List.length_map, hlength])
    intro k hk hk'
    rw [List.length_map] at hk hk'
    rw [List.getElem_map, List.getElem_map]
    exact (hregisters k _ _ (List.getElem?_eq_getElem hk') (List.getElem?_eq_getElem hk)).bars
  intro k dev0 dev hdev0 hdev
  refine (hregisters k dev0 dev hdev0 hdev).follows (hlaid dev0 (List.mem_of_getElem? hdev0)) ?_
  intro addr found
  rw [PciBus.findBar_congr hbars]
  constructor
  · intro hfound
    obtain ⟨dev', hdev', hmem, hcontains⟩ := PciBus.findBar_some hfound
    rw [hdev0] at hdev'
    cases hdev'
    have hmem' : found ∈ (PciBus.new.addDevices devs).bars :=
      List.mem_flatMap.mpr ⟨dev0, List.mem_of_getElem? hdev0, hmem⟩
    exact ⟨hmem, (PciBus.contains_iff (hwrap found hmem')).mp hcontains⟩
  · rintro ⟨hmem, hcovers⟩
    have hmem' : found ∈ (PciBus.new.addDevices devs).bars :=
      List.mem_flatMap.mpr ⟨dev0, List.mem_of_getElem? hdev0, hmem⟩
    exact PciBus.findBar_of_contains hapart hwrap hdev0 hmem ((PciBus.contains_iff (hwrap found hmem')).mpr hcovers)

end Added

def registerWrite (j v : Nat) : ConfigWrite := ⟨0, regOffset j, leBytes 4 v⟩

theorem bars_follow_size_and_restore :
    BarsFollow (PciBus.new.addDevices [deviceOf [0x1000]]) [registerWrite 0 0xFFFFFFFF, registerWrite 0 0xC0000000]
      (((PciBus.new.addDevices [deviceOf [0x1000]]).configWrite (registerWrite 0 0xFFFFFFFF)).configWrite
        (registerWrite 0 0xC0000000)) := by
  have hregular : ∀ dev ∈ (PciBus.new.addDevices [deviceOf [0x1000]]).devices, Regular dev := by
    have h : ∀ dev ∈ (PciBus.new.addDevices [deviceOf [0x1000]]).devices, ∀ bar ∈ dev.bars,
        16 ≤ bar.size.toNat ∧ bar.is64bit = false := by
      decide +kernel
    intro dev hdev
    refine ⟨fun bar hbar => (h dev hdev bar hbar).1, fun bar hbar h64 => ?_⟩
    rw [(h dev hdev bar hbar).2] at h64
    cases h64
  have htracked : ∀ v, UInt32.ofNat (leNat (leBytes 4 v)) = allOnes ∨
        UInt32.ofNat (leNat (leBytes 4 v)) &&& (0xFFFFF000 : UInt32) = 0xC0000000 →
      ∀ dev : PciDevice, dev.bars = [⟨0, 0xC0000000, 0x1000, false, false⟩] →
        Tracked dev (registerWrite 0 v).off (registerWrite 0 v).data := by
    intro v hv dev hbars
    refine .lower ⟨0, 0xC0000000, 0x1000, false, false⟩ ?_ rfl (leBytes_length 4 v) ?_ hv
    · rw [hbars]
      exact List.mem_singleton_self _
    · rw [hbars]
      rfl
  have hbars : ((PciBus.new.addDevices [deviceOf [0x1000]]).devices[0]?.map PciDevice.bars) =
        some [⟨0, 0xC0000000, 0x1000, false, false⟩] ∧
      (((PciBus.new.addDevices [deviceOf [0x1000]]).configWrite (registerWrite 0 0xFFFFFFFF)).devices[0]?.map
        PciDevice.bars) = some [⟨0, 0xC0000000, 0x1000, false, false⟩] := by
    decide
  have hrequests : requests [deviceOf [0x1000]] = [0x1000] := by decide
  have hsmall : ∀ size ∈ requests [deviceOf [0x1000]], size.toNat ≤ 2 ^ 62 := by
    rw [hrequests, List.forall_mem_singleton]
    decide
  refine bars_follow hsmall hregular (.cons ⟨rfl, ?_⟩ (.cons ⟨rfl, ?_⟩ (.nil _)))
  · intro dev hdev
    have hdev' := congrArg (Option.map PciDevice.bars) hdev
    exact htracked _ (by decide) dev (Option.some.inj (hdev'.symm.trans hbars.1))
  · intro dev hdev
    have hdev' := congrArg (Option.map PciDevice.bars) hdev
    exact htracked _ (by decide) dev (Option.some.inj (hdev'.symm.trans hbars.2))

theorem bars_follow_fails :
    ¬ BarsFollow (PciBus.new.addDevices [deviceOf [0x1000]]) [registerWrite 0 0xC0100000]
        ((PciBus.new.addDevices [deviceOf [0x1000]]).configWrite (registerWrite 0 0xC0100000)) ∧
      ¬ BarsFollow (PciBus.new.addDevices [deviceOf [0, 0x1000]]) [registerWrite 1 0xFFFFFFFF]
        ((PciBus.new.addDevices [deviceOf [0, 0x1000]]).configWrite (registerWrite 1 0xFFFFFFFF)) ∧
      ¬ BarsFollow (PciBus.new.addDevices [deviceOf [0x1000]]) [registerWrite 5 0xFFFFFFFF]
        ((PciBus.new.addDevices [deviceOf [0x1000]]).configWrite (registerWrite 5 0xFFFFFFFF)) := by
  refine ⟨?_, ?_, ?_⟩
  · intro h
    have hrouted := (h 0 _ _ rfl rfl).routed ⟨0, 0xC0000000, 0x1000, false, false⟩ (by decide)
      (by decide) 0xC0100000 0
    exact absurd (hrouted.mpr (by decide)) (by decide)
  · intro h
    have hsized := (h 0 _ _ rfl rfl).sized ⟨1, 0xC0000000, 0x1000, false, false⟩ (by decide)
      (by decide)
    exact absurd hsized (by decide)
  · intro h
    have hhard := (h 0 _ _ rfl rfl).hardWired 5 (by decide) (by decide)
    exact absurd hhard (by decide)

end CloneVmm.Vmm.Pci
