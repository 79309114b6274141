import Mathlib.Data.List.Induction
import Mathlib.Data.List.ReduceOption
import CloneVmm.Lib.Run
import CloneVmm.Vmm.Pci

namespace CloneVmm.Vmm.Pci

open CloneVmm.Lib

def PciBar.span (bar : PciBar) : Span := ⟨bar.guestAddr.toNat, bar.size.toNat⟩

def requestsFrom (i : Nat) (regions : List VfioRegionInfo) : List UInt64 :=
  ((regions.take (6 - i)).map VfioRegionInfo.size).filter (· ≠ 0)

/-- The blocks that the regions get from `mmioNext` on, and `none` where one is refused. -/
def placements : UInt64 → List UInt64 → List (Option Span)
  | _, [] => []
  | mmioNext, size :: sizes =>
    ((allocBar mmioNext size).1.map fun addr => ⟨addr.toNat, (nextPowerOfTwo size).toNat⟩)
      :: placements (allocBar mmioNext size).2 sizes

def nextAfter (mmioNext : UInt64) (sizes : List UInt64) : UInt64 :=
  sizes.foldl (fun next size => (allocBar next size).2) mmioNext

theorem placements_append (mmioNext : UInt64) (sizes sizes' : List UInt64) :
    placements mmioNext (sizes ++ sizes') =
      placements mmioNext sizes ++ placements (nextAfter mmioNext sizes) sizes' := by
  induction sizes generalizing mmioNext with
  | nil => rfl
  | cons size sizes ih => rw [List.cons_append, placements, placements, ih, List.cons_append, nextAfter, nextAfter,
      List.foldl_cons]

theorem nextAfter_append (mmioNext : UInt64) (sizes sizes' : List UInt64) :
    nextAfter mmioNext (sizes ++ sizes') = nextAfter (nextAfter mmioNext sizes) sizes' := List.foldl_append

namespace Allocation

theorem addRegion_of_skip {a : Allocation} {i : Nat} {region : VfioRegionInfo} (h : 6 ≤ i ∨ region.size = 0) :
    a.addRegion i region = a := if_pos h

theorem addRegion_spec {a : Allocation} {i : Nat} {region : VfioRegionInfo} (h : ¬ (6 ≤ i ∨ region.size = 0)) :
    (a.addRegion i region).mmioNext = (allocBar a.mmioNext region.size).2 ∧
      (((allocBar a.mmioNext region.size).1 = none ∧ (a.addRegion i region).bars = a.bars) ∨
        ∃ addr bar, (allocBar a.mmioNext region.size).1 = some addr ∧ (a.addRegion i region).bars = a.bars ++ [bar] ∧
          bar.index = i ∧ bar.guestAddr = addr ∧ bar.size = nextPowerOfTwo region.size) := by
  rw [addRegion, if_neg h]
  cases halloc : allocBar a.mmioNext region.size with
  | mk placed next =>
    cases placed with
    | none => exact ⟨rfl, .inl ⟨rfl, rfl⟩⟩
    | some addr => exact ⟨rfl, .inr ⟨addr, _, rfl, rfl, rfl, rfl, rfl⟩⟩

theorem requestsFrom_cons (i : Nat) (region : VfioRegionInfo) (regions : List VfioRegionInfo) :
    requestsFrom i (region :: regions) =
      if 6 ≤ i ∨ region.size = 0 then requestsFrom (i + 1) regions
      else region.size :: requestsFrom (i + 1) regions := by
  by_cases hi : 6 ≤ i
  · have h0 : 6 - i = 0 := by omega
    have h1 : 6 - (i + 1) = 0 := by omega
    simp [requestsFrom, hi, h0, h1]
  · have hsub : 6 - i = (6 - (i + 1)) + 1 := by omega
    by_cases hsize : region.size = 0
    · simp [requestsFrom, hsub, hsize]
    · simp [requestsFrom, hsub, hsize, hi]

theorem addRegions_spans (i : Nat) (regions : List VfioRegionInfo) (a : Allocation) :
    (addRegions i regions a).mmioNext = nextAfter a.mmioNext (requestsFrom i regions) ∧
      (addRegions i regions a).bars.map PciBar.span =
        a.bars.map PciBar.span ++ (placements a.mmioNext (requestsFrom i regions)).reduceOption := by
  induction regions generalizing i a with
  | nil =>
    have hnone : requestsFrom i [] = [] := by
      simp [requestsFrom]
    rw [hnone]
    exact ⟨rfl, (List.append_nil _).symm⟩
  | cons region regions ih =>
    obtain ⟨hnext, hspans⟩ := ih (i + 1) (a.addRegion i region)
    rw [addRegions, requestsFrom_cons, hnext, hspans]
    by_cases hskip : 6 ≤ i ∨ region.size = 0
    · rw [addRegion_of_skip hskip, if_pos hskip]
      exact ⟨rfl, rfl⟩
    · rw [if_neg hskip]
      obtain ⟨hstep, ⟨hnone, hbars⟩ | ⟨addr, bar, hsome, hbars, -, haddr, hsize⟩⟩ := addRegion_spec hskip
      · rw [hstep, hbars, placements, hnone]
        exact ⟨rfl, rfl⟩
      · rw [hstep, hbars, placements, hsome, List.map_append, List.append_assoc]
        refine ⟨rfl, ?_⟩
        rw [Option.map_some, List.reduceOption_cons_of_some, List.map_singleton, PciBar.span, haddr, hsize]
        rfl

end Allocation

structure PciBar.Serves (regions : List VfioRegionInfo) (bar : PciBar) (region : VfioRegionInfo) : Prop where
  index : bar.index < 6
  found : regions[bar.index]? = some region
  nonempty : region.size ≠ 0
  size : bar.size = nextPowerOfTwo region.size

theorem PciBar.Serves.mem_requestsFrom {regions : List VfioRegionInfo} {bar : PciBar} {region : VfioRegionInfo}
    (h : bar.Serves regions region) : region.size ∈ requestsFrom 0 regions := by
  have hmem : region ∈ regions.take 6 := by
    apply List.mem_of_getElem? (i := bar.index)
    rw [List.getElem?_take, if_pos h.index, h.found]
  exact List.mem_filter.mpr ⟨List.mem_map_of_mem hmem, by simpa using h.nonempty⟩

theorem Allocation.addRegions_serves (all : List VfioRegionInfo) {i : Nat} {a : Allocation}
    (ha : ∀ bar ∈ a.bars, ∃ region, bar.Serves all region) :
    ∀ bar ∈ (addRegions i (all.drop i) a).bars, ∃ region, bar.Serves all region := by
  generalize hregions : all.drop i = regions
  induction regions generalizing i a with
  | nil => exact ha
  | cons region regions ih =>
    have hget : all[i]? = some region := by
      rw [← List.head?_drop, hregions, List.head?_cons]
    have hrest : all.drop (i + 1) = regions := by
      rw [← List.tail_drop, hregions, List.tail_cons]
    rw [addRegions]
    refine ih ?_ hrest
    by_cases hskip : 6 ≤ i ∨ region.size = 0
    · rwa [addRegion_of_skip hskip]
    · obtain ⟨-, ⟨-, hbars⟩ | ⟨addr, bar, -, hbars, hindex, -, hsize⟩⟩ := addRegion_spec hskip
      · rwa [hbars]
      · rw [hbars]
        push Not at hskip
        intro bar' hbar'
        rcases List.mem_append.mp hbar' with hold | hnew
        · exact ha bar' hold
        · obtain rfl := List.mem_singleton.mp hnew
          exact ⟨region, by omega, by rw [hindex, hget], hskip.2, hsize⟩

def VfioDevice.requests (dev : VfioDevice) : List UInt64 := requestsFrom 0 dev.regions

namespace PciBus

def addDevices (bus : PciBus) (devs : List (Pread × VfioDevice)) : PciBus :=
  devs.foldl (fun bus dev => (bus.addVfioDevice dev.1 dev.2).2) bus

def bars (bus : PciBus) : List PciBar := bus.devices.flatMap PciDevice.bars

theorem addDevices_spans (bus : PciBus) (devs : List (Pread × VfioDevice)) :
    (bus.addDevices devs).bars.map PciBar.span = bus.bars.map PciBar.span ++
      (placements bus.mmioNext (devs.flatMap fun dev => dev.2.requests)).reduceOption := by
  induction devs generalizing bus with
  | nil => exact (List.append_nil _).symm
  | cons dev devs ih =>
    obtain ⟨hnext, hspans⟩ := Allocation.addRegions_spans 0 dev.2.regions
      ⟨bus.mmioNext, initialConfig dev.1 dev.2, []⟩
    have hone : (bus.addVfioDevice dev.1 dev.2).2.bars.map PciBar.span =
        bus.bars.map PciBar.span ++ (placements bus.mmioNext dev.2.requests).reduceOption := by
      rw [bars, addVfioDevice, List.flatMap_append, List.map_append, List.flatMap_singleton, hspans]
      rfl
    have hafter : (bus.addVfioDevice dev.1 dev.2).2.mmioNext = nextAfter bus.mmioNext dev.2.requests := hnext
    rw [addDevices, List.foldl_cons, ← addDevices, ih, hone, hafter, List.flatMap_cons, placements_append,
      List.reduceOption_append, List.append_assoc]

def BarsServe (bus : PciBus) (devs : List (Pread × VfioDevice)) : Prop :=
  ∀ dev ∈ bus.devices, ∃ vfio, dev.vfio = some vfio ∧ (∃ pread, (pread, vfio) ∈ devs) ∧
    ∀ bar ∈ dev.bars, ∃ region, bar.Serves vfio.regions region

theorem addDevices_barsServe (devs : List (Pread × VfioDevice)) : (new.addDevices devs).BarsServe devs := by
  induction devs using List.reverseRecOn with
  | nil => exact nofun
  | append_singleton devs dev ih =>
    rw [addDevices, List.foldl_append, ← addDevices]
    intro dev' hdev'
    rcases List.mem_append.mp hdev' with hold | hnew
    · obtain ⟨vfio, hvfio, ⟨pread, hmem⟩, hbars⟩ := ih dev' hold
      exact ⟨vfio, hvfio, ⟨pread, List.mem_append_left _ hmem⟩, hbars⟩
    · obtain rfl := List.mem_singleton.mp hnew
      exact ⟨dev.2, rfl, ⟨dev.1, List.mem_append_right _ (List.mem_singleton_self _)⟩,
        Allocation.addRegions_serves dev.2.regions nofun⟩

end PciBus

theorem and_two_pow_sub {x k w : Nat} (hx : x < 2 ^ w) (hk : k ≤ w) : x &&& (2 ^ w - 2 ^ k) = x / 2 ^ k * 2 ^ k := by
  have hpos : 0 < 2 ^ k := Nat.two_pow_pos k
  have hle : 2 ^ k ≤ 2 ^ w := Nat.pow_le_pow_right (by decide) hk
  have hmask : 2 ^ w - 2 ^ k = 2 ^ w - (2 ^ k - 1 + 1) := by
    omega
  rw [hmask, ← Nat.shiftRight_eq_div_pow, ← Nat.shiftLeft_eq]
  apply Nat.eq_of_testBit_eq
  intro i
  rw [Nat.testBit_and, Nat.testBit_two_pow_sub_succ (by omega), Nat.testBit_shiftLeft, Nat.testBit_shiftRight,
    Nat.testBit_two_pow_sub_one]
  by_cases hi : i < k
  · simp [hi, Nat.not_le.mpr hi]
  · have hsum : k + (i - k) = i := by
      omega
    by_cases hw : i < w
    · simp [hi, hw, Nat.not_lt.mp hi, hsum]
    · have hhigh : x.testBit i = false :=
        Nat.testBit_lt_two_pow (hx.trans_le (Nat.pow_le_pow_right (by decide) (Nat.not_lt.mp hw)))
      simp [hhigh, hsum]

theorem and_not_toNat (x size : UInt64) {k : Nat} (hk : k < 64) (hsize : size.toNat = 2 ^ k) :
    (x &&& ~~~(size - 1)).toNat = x.toNat / 2 ^ k * 2 ^ k := by
  have hpos : 0 < 2 ^ k := Nat.two_pow_pos k
  have hlt : 2 ^ k < 2 ^ 64 := Nat.pow_lt_pow_right (by decide) hk
  have hmask : (~~~(size - 1)).toNat = 2 ^ 64 - 2 ^ k := by
    have hword : UInt64.size = 2 ^ 64 := rfl
    rw [UInt64.toNat_not, UInt64.toNat_sub, hsize, UInt64.toNat_one]
    omega
  rw [UInt64.toNat_and, hmask]
  exact and_two_pow_sub x.toNat_lt hk.le

/-- The size of the block for a region, as a number without a bound. -/
def blockSize (size : UInt64) : Nat := 2 ^ Nat.clog 2 size.toNat

theorem le_blockSize (size : UInt64) : size.toNat ≤ blockSize size := Nat.le_pow_clog (by decide) _

theorem blockSize_le {size : UInt64} (h : size.toNat ≤ 2 ^ 62) : blockSize size ≤ 2 ^ 62 := by
  have hclog : Nat.clog 2 size.toNat ≤ 62 := by
    calc Nat.clog 2 size.toNat ≤ Nat.clog 2 (2 ^ 62) := Nat.clog_mono_right 2 h
      _ = 62 := Nat.clog_pow 2 62 (by decide)
  exact Nat.pow_le_pow_right (by decide) hclog

theorem nextPowerOfTwo_toNat {size : UInt64} (h : size.toNat ≤ 2 ^ 62) :
    (nextPowerOfTwo size).toNat = blockSize size := by
  have hle := blockSize_le h
  have hlt : blockSize size < 2 ^ 64 := by
    omega
  exact Nat.mod_eq_of_lt hlt

def blockStart (mmioNext size : UInt64) : Nat :=
  (mmioNext.toNat + blockSize size - 1) / blockSize size * blockSize size

/-- The step does not wrap, the block does not end where the window does, and if it does not fit, its
place is where the last BAR ends. -/
structure Unhindered (mmioNext size : UInt64) : Prop where
  small : size.toNat ≤ 2 ^ 62
  notAtEnd : blockStart mmioNext size + blockSize size ≠ pciMmioEnd + 1
  aligned : pciMmioEnd + 1 < blockStart mmioNext size + blockSize size → blockSize size ∣ mmioNext.toNat

theorem le_blockStart (mmioNext size : UInt64) :
    mmioNext.toNat ≤ blockStart mmioNext size ∧ blockStart mmioNext size < mmioNext.toNat + blockSize size := by
  have hpos : 0 < blockSize size := Nat.two_pow_pos _
  have hdiv := Nat.div_add_mod' (mmioNext.toNat + blockSize size - 1) (blockSize size)
  have hmod := Nat.mod_lt (mmioNext.toNat + blockSize size - 1) hpos
  unfold blockStart
  omega

theorem blockStart_of_dvd {mmioNext size : UInt64} (h : blockSize size ∣ mmioNext.toNat) :
    blockStart mmioNext size = mmioNext.toNat := by
  have hle := le_blockStart mmioNext size
  obtain ⟨m, hm⟩ := h
  have hstart : blockSize size ∣ blockStart mmioNext size := Nat.dvd_mul_left _ _
  obtain ⟨n, hn⟩ := hstart
  rw [hm, hn] at hle ⊢
  have hlow := Nat.le_of_mul_le_mul_left hle.1 (Nat.two_pow_pos _)
  have hhigh : n < m + 1 := Nat.lt_of_mul_lt_mul_left (hle.2.trans_eq (Nat.mul_succ _ _).symm)
  have heq : n = m := by omega
  rw [heq]

theorem blockStart_le {mmioNext size : UInt64} (hnext : mmioNext.toNat ≤ 2 ^ 62) (h : size.toNat ≤ 2 ^ 62) :
    blockStart mmioNext size ≤ 2 ^ 62 := by
  have hclog : Nat.clog 2 size.toNat ≤ 62 := by
    calc Nat.clog 2 size.toNat ≤ Nat.clog 2 (2 ^ 62) := Nat.clog_mono_right 2 h
      _ = 62 := Nat.clog_pow 2 62 (by decide)
  obtain ⟨m, hm⟩ : blockSize size ∣ 2 ^ 62 := Nat.pow_dvd_pow 2 hclog
  obtain ⟨n, hn⟩ : blockSize size ∣ blockStart mmioNext size := Nat.dvd_mul_left _ _
  have hlt := (le_blockStart mmioNext size).2
  rw [hm] at hnext ⊢
  rw [hn] at hlt ⊢
  have hsucc : blockSize size * n < blockSize size * (m + 1) := by
    rw [Nat.mul_succ]
    omega
  have := Nat.lt_of_mul_lt_mul_left hsucc
  exact Nat.mul_le_mul_left _ (by omega)

theorem allocBar_toNat {mmioNext size : UInt64} (hnext : mmioNext.toNat ≤ 2 ^ 62) (h : size.toNat ≤ 2 ^ 62) :
    ((mmioNext + nextPowerOfTwo size - 1) &&& ~~~(nextPowerOfTwo size - 1)).toNat = blockStart mmioNext size := by
  have hclog : Nat.clog 2 size.toNat < 64 := by
    calc Nat.clog 2 size.toNat ≤ Nat.clog 2 (2 ^ 62) := Nat.clog_mono_right 2 h
      _ < 64 := by rw [Nat.clog_pow 2 62 (by decide)]; decide
  have hsize := nextPowerOfTwo_toNat h
  have hpos : 0 < blockSize size := Nat.two_pow_pos _
  have hle := blockSize_le h
  rw [and_not_toNat _ _ hclog hsize, blockStart, UInt64.toNat_sub, UInt64.toNat_add, hsize, UInt64.toNat_one]
  have hsum : (2 ^ 64 - 1 + (mmioNext.toNat + blockSize size) % 2 ^ 64) % 2 ^ 64 =
      mmioNext.toNat + blockSize size - 1 := by
    omega
  rw [hsum]
  rfl

theorem allocBar_small {mmioNext size : UInt64} (hnext : mmioNext.toNat ≤ 2 ^ 62) (h : size.toNat ≤ 2 ^ 62) :
    ∃ start next, start.toNat = blockStart mmioNext size ∧
      ((allocBar mmioNext size = (some start, next) ∧ next.toNat = start.toNat + blockSize size ∧
          next.toNat ≤ pciMmioEnd) ∨
        allocBar mmioNext size = (none, start) ∧ pciMmioEnd < start.toNat + blockSize size) := by
  have hstart := allocBar_toNat hnext h
  have hsize := nextPowerOfTwo_toNat h
  have hle := blockSize_le h
  have hstartLe := blockStart_le hnext h
  have hendU : (UInt64.ofNat pciMmioEnd).toNat = pciMmioEnd := rfl
  rw [allocBar]
  generalize (mmioNext + nextPowerOfTwo size - 1) &&& ~~~(nextPowerOfTwo size - 1) = start at hstart
  have hsum : (start + nextPowerOfTwo size).toNat = start.toNat + blockSize size := by
    rw [UInt64.toNat_add, hsize]
    omega
  refine ⟨start, start + nextPowerOfTwo size, hstart, ?_⟩
  by_cases hfits : start + nextPowerOfTwo size > .ofNat pciMmioEnd
  · rw [if_pos hfits]
    rw [gt_iff_lt, UInt64.lt_iff_toNat_lt, hsum, hendU] at hfits
    exact .inr ⟨rfl, hfits⟩
  · rw [if_neg hfits]
    rw [gt_iff_lt, UInt64.lt_iff_toNat_lt, hsum, hendU] at hfits
    exact .inl ⟨rfl, hsum, by omega⟩

theorem allocBar_spec {mmioNext size : UInt64} (hnext : mmioNext.toNat ≤ pciMmioEnd) (h : Unhindered mmioNext size) :
    (∃ addr next, allocBar mmioNext size = (some addr, next) ∧ next.toNat = addr.toNat + blockSize size ∧
        next.toNat ≤ pciMmioEnd) ∨
      (allocBar mmioNext size = (none, mmioNext) ∧ pciMmioEnd + 1 < mmioNext.toNat + blockSize size) := by
  have hend : pciMmioEnd = 0xCFFFFFFF := rfl
  obtain ⟨start, next, hstart, ⟨halloc, hnext', hle⟩ | ⟨halloc, hfull⟩⟩ :=
    allocBar_small (hnext.trans (by decide)) h.small
  · exact .inl ⟨start, next, halloc, hnext', hle⟩
  · have hnotAtEnd := h.notAtEnd
    have hsame := blockStart_of_dvd (h.aligned (by omega))
    rw [UInt64.toNat_inj.mp (hstart.trans hsame)] at halloc hfull
    exact .inr ⟨halloc, by omega⟩

theorem placements_getElem? (mmioNext : UInt64) (sizes : List UInt64) (n : Nat) :
    (placements mmioNext sizes)[n]? = sizes[n]?.map fun size =>
      (allocBar (nextAfter mmioNext (sizes.take n)) size).1.map fun addr =>
        ⟨addr.toNat, (nextPowerOfTwo size).toNat⟩ := by
  induction sizes generalizing mmioNext n with
  | nil => rfl
  | cons size sizes ih =>
    cases n with
    | zero => rfl
    | succ n => exact ih (allocBar mmioNext size).2 n

theorem placements_length (mmioNext : UInt64) (sizes : List UInt64) :
    (placements mmioNext sizes).length = sizes.length := by
  induction sizes generalizing mmioNext with
  | nil => rfl
  | cons size sizes ih => exact congrArg Nat.succ (ih _)

def lastEnd (start : Nat) (placed : List (Option Span)) : Nat :=
  placed.foldl (fun last block => block.elim last fun s => s.base + s.size) start

def UnhinderedRun (sizes : List UInt64) : UInt64 → UInt64 → Prop :=
  fun start next => Steps (fun s size t => t = (allocBar s size).2 ∧ Unhindered s size) start sizes next

section Run

variable {start next : UInt64} {sizes : List UInt64}

theorem allocBar_next (hstart : start.toNat ≤ pciMmioEnd) {size : UInt64} (h : Unhindered start size) :
    (allocBar start size).2.toNat ≤ pciMmioEnd ∧ (allocBar start size).2.toNat =
      lastEnd start.toNat [(allocBar start size).1.map fun addr => ⟨addr.toNat, (nextPowerOfTwo size).toNat⟩] := by
  have hsize := nextPowerOfTwo_toNat h.small
  obtain ⟨addr, next, halloc, hnext, hend⟩ | ⟨halloc, -⟩ := allocBar_spec hstart h
  · rw [halloc]
    refine ⟨hend, ?_⟩
    rw [hnext, ← hsize]
    rfl
  · rw [halloc]
    exact ⟨hstart, rfl⟩

theorem UnhinderedRun.before (h : UnhinderedRun sizes start next) (hstart : start.toNat ≤ pciMmioEnd) {n : Nat}
    {size : UInt64} (hsize : sizes[n]? = some size) :
    Unhindered (nextAfter start (sizes.take n)) size ∧ (nextAfter start (sizes.take n)).toNat ≤ pciMmioEnd ∧
      (nextAfter start (sizes.take n)).toNat = lastEnd start.toNat ((placements start sizes).take n) := by
  induction h generalizing n with
  | nil start => cases hsize
  | @cons start mid next first sizes hstep _ ih =>
    obtain ⟨rfl, hunhindered⟩ := hstep
    cases n with
    | zero =>
      cases hsize
      exact ⟨hunhindered, hstart, rfl⟩
    | succ n =>
      obtain ⟨hend, hlast⟩ := allocBar_next hstart hunhindered
      obtain ⟨hthis, hle, heq⟩ := ih hend hsize
      refine ⟨hthis, hle, ?_⟩
      rw [placements, List.take_succ_cons, List.take_succ_cons]
      exact heq.trans (by rw [hlast]; rfl)

theorem placements_apart (hsmall : ∀ size ∈ sizes, size.toNat ≤ 2 ^ 62) (hstart : start.toNat ≤ 2 ^ 62) :
    (∀ block ∈ (placements start sizes).reduceOption, start.toNat ≤ block.base ∧
        block.base + block.size ≤ pciMmioEnd ∧ ∃ k, block.size = 2 ^ k ∧ 2 ^ k ∣ block.base) ∧
      (placements start sizes).reduceOption.Pairwise Span.Apart := by
  induction sizes generalizing start with
  | nil => exact ⟨nofun, .nil⟩
  | cons size sizes ih =>
    have hfirst := hsmall size (List.mem_cons_self ..)
    have hsize := nextPowerOfTwo_toNat hfirst
    have hlater : ∀ size ∈ sizes, size.toNat ≤ 2 ^ 62 := fun size hmem => hsmall size (List.mem_cons_of_mem _ hmem)
    have hbounds := le_blockStart start size
    have hstartLe := blockStart_le hstart hfirst
    have hend : pciMmioEnd = 0xCFFFFFFF := rfl
    obtain ⟨addr, mid, haddr, ⟨halloc, hmid, hle⟩ | ⟨halloc, -⟩⟩ := allocBar_small hstart hfirst
    · obtain ⟨hblocks, hapart⟩ := @ih mid hlater (by omega)
      rw [placements, halloc, Option.map_some, List.reduceOption_cons_of_some, hsize]
      refine ⟨?_, List.pairwise_cons.mpr ⟨?_, hapart⟩⟩
      · intro block hblock
        rcases List.mem_cons.mp hblock with rfl | hblock
        · dsimp only
          refine ⟨by omega, by omega, _, rfl, ?_⟩
          rw [haddr]
          exact Nat.dvd_mul_left _ _
        · obtain ⟨hbase, hrest⟩ := hblocks block hblock
          exact ⟨by omega, hrest⟩
      · intro block hblock
        have hbase := (hblocks block hblock).1
        apply Span.apart_of_le
        dsimp only
        omega
    · obtain ⟨hblocks, hapart⟩ := @ih addr hlater (by omega)
      rw [placements, halloc, Option.map_none, List.reduceOption_cons_of_none]
      refine ⟨?_, hapart⟩
      intro block hblock
      obtain ⟨hbase, hrest⟩ := hblocks block hblock
      exact ⟨by omega, hrest⟩

end Run

def requests (devs : List (Pread × VfioDevice)) : List UInt64 := devs.flatMap fun dev => dev.2.requests

def mmioStart : UInt64 := .ofNat pciMmioBase

theorem addDevices_placed (devs : List (Pread × VfioDevice)) :
    (PciBus.new.addDevices devs).bars.map PciBar.span = (placements mmioStart (requests devs)).reduceOption :=
  PciBus.addDevices_spans PciBus.new devs

structure Allocated (devs : List (Pread × VfioDevice)) : Prop where
  placed : (PciBus.new.addDevices devs).bars.map PciBar.span = (placements mmioStart (requests devs)).reduceOption
  apart : ((PciBus.new.addDevices devs).bars.map PciBar.span).Pairwise Span.Apart
  aligned : ∀ bar ∈ (PciBus.new.addDevices devs).bars, ∃ k, bar.size.toNat = 2 ^ k ∧ 2 ^ k ∣ bar.guestAddr.toNat
  inside : ∀ bar ∈ (PciBus.new.addDevices devs).bars, bar.span.Within barWindow
  covers : ∀ dev ∈ (PciBus.new.addDevices devs).devices, ∃ vfio, dev.vfio = some vfio ∧
    ∀ bar ∈ dev.bars, ∃ region, vfio.regions[bar.index]? = some region ∧ region.size ≤ bar.size
  refused : ∀ n size, (requests devs)[n]? = some size → (placements mmioStart (requests devs))[n]? = some none →
    ∀ addr, blockSize size ∣ addr → lastEnd pciMmioBase ((placements mmioStart (requests devs)).take n) ≤ addr →
      pciMmioEnd + 1 < addr + blockSize size
  undisturbed : ∀ n, (placements mmioStart (requests devs))[n]? = some none → ∀ later,
    (placements mmioStart ((requests devs).take (n + 1) ++ later)).drop (n + 1) =
      (placements mmioStart ((requests devs).take n ++ later)).drop n

theorem allocated_of_unhindered {devs : List (Pread × VfioDevice)} {next : UInt64}
    (h : UnhinderedRun (requests devs) mmioStart next) : Allocated devs := by
  have hstart : mmioStart.toNat ≤ pciMmioEnd := by decide
  have hsmall : ∀ size ∈ requests devs, size.toNat ≤ 2 ^ 62 := by
    intro size hsize
    obtain ⟨n, hn⟩ := List.mem_iff_getElem?.mp hsize
    exact (h.before hstart hn).1.small
  obtain ⟨hblocks, hapart⟩ := placements_apart hsmall (by decide : mmioStart.toNat ≤ 2 ^ 62)
  have hplaced := addDevices_placed devs
  have hblock : ∀ bar ∈ (PciBus.new.addDevices devs).bars, pciMmioBase ≤ bar.span.base ∧
      bar.span.base + bar.span.size ≤ pciMmioEnd ∧ ∃ k, bar.span.size = 2 ^ k ∧ 2 ^ k ∣ bar.span.base := by
    intro bar hbar
    apply hblocks
    rw [← hplaced]
    exact List.mem_map_of_mem hbar
  have hrefused : ∀ n size, (requests devs)[n]? = some size →
      (placements mmioStart (requests devs))[n]? = some none →
      allocBar (nextAfter mmioStart ((requests devs).take n)) size =
        (none, nextAfter mmioStart ((requests devs).take n)) ∧
      pciMmioEnd + 1 < (nextAfter mmioStart ((requests devs).take n)).toNat + blockSize size := by
    intro n size hsize hnone
    obtain ⟨hunhindered, hend, -⟩ := h.before hstart hsize
    rw [placements_getElem?, hsize, Option.map_some, Option.some.injEq, Option.map_eq_none_iff] at hnone
    obtain ⟨addr, next, halloc, -⟩ | ⟨halloc, hfull⟩ := allocBar_spec hend hunhindered
    · rw [halloc] at hnone
      cases hnone
    · exact ⟨halloc, hfull⟩
  refine ⟨hplaced, hplaced ▸ hapart, fun bar hbar => (hblock bar hbar).2.2, ?_, ?_, ?_, ?_⟩
  · intro bar hbar
    obtain ⟨hbase, hend, -⟩ := hblock bar hbar
    refine ⟨hbase, ?_⟩
    have hwindow : barWindow.base + barWindow.size = pciMmioEnd + 1 := rfl
    omega
  · intro dev hdev
    obtain ⟨vfio, hvfio, ⟨pread, hmem⟩, hbars⟩ := PciBus.addDevices_barsServe devs dev hdev
    refine ⟨vfio, hvfio, ?_⟩
    intro bar hbar
    obtain ⟨region, hserves⟩ := hbars bar hbar
    refine ⟨region, hserves.found, ?_⟩
    have hrequest : region.size ∈ requests devs :=
      List.mem_flatMap.mpr ⟨(pread, vfio), hmem, hserves.mem_requestsFrom⟩
    rw [hserves.size, UInt64.le_iff_toNat_le, nextPowerOfTwo_toNat (hsmall _ hrequest)]
    exact le_blockSize region.size
  · intro n size hsize hnone addr hdvd hlast
    obtain ⟨-, hfull⟩ := hrefused n size hsize hnone
    have hbefore : (nextAfter mmioStart ((requests devs).take n)).toNat =
        lastEnd pciMmioBase ((placements mmioStart (requests devs)).take n) := (h.before hstart hsize).2.2
    omega
  · intro n hnone later
    obtain ⟨size, hsize⟩ : ∃ size, (requests devs)[n]? = some size := by
      rw [placements_getElem?, Option.map_eq_some_iff] at hnone
      obtain ⟨size, hsize, -⟩ := hnone
      exact ⟨size, hsize⟩
    have htake : (requests devs).take (n + 1) = (requests devs).take n ++ [size] := by
      rw [List.take_add_one, hsize]
      rfl
    have hlt : n < (requests devs).length := (List.getElem?_eq_some_iff.mp hsize).1
    have hlength : (placements mmioStart ((requests devs).take n)).length = n := by
      rw [placements_length, List.length_take, Nat.min_eq_left hlt.le]
    have hlength' : (placements mmioStart ((requests devs).take (n + 1))).length = n + 1 := by
      rw [placements_length, List.length_take, Nat.min_eq_left hlt]
    have hnext : nextAfter mmioStart ((requests devs).take (n + 1)) = nextAfter mmioStart ((requests devs).take n) := by
      rw [htake, nextAfter_append]
      exact congrArg Prod.snd (hrefused n size hsize hnone).1
    rw [placements_append, placements_append, List.drop_left' hlength, List.drop_left' hlength', hnext]

def deviceOf (sizes : List UInt64) : Pread × VfioDevice :=
  (fun _ _ => none, ⟨sizes.map fun size => ⟨0, size, 0⟩, []⟩)

theorem allocated_of_unhindered_two_regions : Allocated [deviceOf [0x1000, 0, 0x4000]] := by
  have hsmall : Nat.clog 2 (0x1000 : UInt64).toNat = 12 ∧ Nat.clog 2 (0x4000 : UInt64).toNat = 14 := by
    decide
  have hfirst : Unhindered mmioStart 0x1000 := by
    refine ⟨by decide, ?_, ?_⟩ <;> simp only [blockStart, blockSize, hsmall.1] <;> decide
  have hsecond : Unhindered (allocBar mmioStart 0x1000).2 0x4000 := by
    have hnext : (allocBar mmioStart 0x1000).2 = 0xC0001000 := by
      decide
    rw [hnext]
    refine ⟨by decide, ?_, ?_⟩ <;> simp only [blockStart, blockSize, hsmall.2] <;> decide
  exact allocated_of_unhindered (.cons ⟨rfl, hfirst⟩ (.cons ⟨rfl, hsecond⟩ (.nil _)))

theorem allocated_fails :
    ¬ Allocated [deviceOf [0x10000000]] ∧ ¬ Allocated [deviceOf [0x1000, 0x10000000, 0x1000]] ∧
      ¬ Allocated [deviceOf [0x8000000000000000]] := by
  refine ⟨?_, ?_, ?_⟩
  · intro h
    have hrefused := h.refused 0 0x10000000 rfl (by decide) pciMmioBase
    exact absurd (hrefused (by decide) (by decide)) (by decide)
  · intro h
    have hundisturbed := h.undisturbed 1 (by decide) [0x1000]
    exact absurd hundisturbed (by decide)
  · intro h
    have hinside := h.inside ⟨0, 0x8000000000000000, 0x8000000000000000, false, false⟩ (by decide)
    exact absurd hinside (by decide)

end CloneVmm.Vmm.Pci
