import Mathlib.Data.List.Pairwise
import CloneVmm.Vmm.PciAllocation

namespace CloneVmm.Vmm.Pci

open CloneVmm.Lib

def word (config : ByteStore) (off : Nat) : UInt32 := .ofNat (leNat (readBytes config off 4))

def regOffset (j : Nat) : Nat := barsStart + j * 4

def allOnes : UInt32 := 0xFFFFFFFF

def PciBar.typeBits (bar : PciBar) : UInt32 :=
  (if bar.is64bit then 0x4 else 0x0) ||| (if bar.prefetchable then 0x8 else 0x0)

def Held (bars : List PciBar) (j : Nat) : Prop :=
  ∃ bar ∈ bars, bar.index = j ∨ (bar.is64bit = true ∧ bar.index + 1 = j)

instance (bars : List PciBar) (j : Nat) : Decidable (Held bars j) := inferInstanceAs (Decidable (∃ bar ∈ bars, _))

theorem word_congr {config config' : ByteStore} {off : Nat} (h : ∀ i < 4, config' (off + i) = config (off + i)) :
    word config' off = word config off := by
  have hbytes : readBytes config' off 4 = readBytes config off 4 := by
    apply readBytes_congr
    intro i hle hlt
    obtain ⟨n, rfl⟩ := Nat.exists_eq_add_of_le hle
    exact h n (by omega)
  rw [word, word, hbytes]

theorem word_writeBytes_self (config : ByteStore) (off : Nat) (v : UInt32) :
    word (writeBytes config off (leBytes 4 v.toNat)) off = v := by
  have hread := readBytes_writeBytes config off (leBytes 4 v.toNat)
  have hlt : v.toNat < 256 ^ 4 := v.toNat_lt
  rw [leBytes_length] at hread
  rw [word, hread, leNat_leBytes, Nat.mod_eq_of_lt hlt]
  exact UInt32.ofNat_toNat

theorem word_writeBytes_data (config : ByteStore) (off : Nat) {data : List UInt8} (h : data.length = 4) :
    word (writeBytes config off data) off = .ofNat (leNat data) := by
  have hread := readBytes_writeBytes config off data
  rw [h] at hread
  rw [word, hread]

theorem word_writeBytes_apart (config : ByteStore) {off off' : Nat} {data : List UInt8}
    (h : off + 4 ≤ off' ∨ off' + data.length ≤ off) : word (writeBytes config off' data) off = word config off := by
  rw [word, readBytes_writeBytes_disjoint _ _ _ _ _ h, word]

theorem word_toNat (config : ByteStore) (off : Nat) : (word config off).toNat = leNat (readBytes config off 4) := by
  have hlt := leNat_lt (readBytes config off 4)
  rw [readBytes_length] at hlt
  exact Nat.mod_eq_of_lt hlt

theorem PciDevice.configRead_word (dev : PciDevice) {off : Nat} (h : off + 4 ≤ configSize) :
    dev.configRead off 4 = (word dev.config off).toNat := by
  rw [configRead, if_neg (by omega), if_pos (by decide), word_toNat]

theorem low_nibble (config : ByteStore) (off : Nat) :
    (config off).toUInt32 &&& 0xF = word config off &&& 0xF := by
  apply UInt32.toNat_inj.mp
  have hmask : (0xF : UInt32).toNat = 2 ^ 4 - 1 := rfl
  have hfirst : leNat (readBytes config off 4) = (config off).toNat + 256 * leNat (readBytes config (off + 1) 3) := by
    simp [readBytes, leNat, List.range_succ]
  rw [UInt32.toNat_and, UInt32.toNat_and, hmask, Nat.and_two_pow_sub_one_eq_mod, Nat.and_two_pow_sub_one_eq_mod,
    word_toNat, hfirst, UInt8.toNat_toUInt32]
  omega

theorem regOffset_apart {i j : Nat} (h : i ≠ j) : regOffset i + 4 ≤ regOffset j ∨ regOffset j + 4 ≤ regOffset i := by
  unfold regOffset
  omega

namespace Allocation

structure Written (a : Allocation) (i : Nat) : Prop where
  index : ∀ bar ∈ a.bars, bar.index < i ∧ bar.index < 6
  increasing : a.bars.Pairwise fun bar bar' => bar.index < bar'.index
  low : ∀ bar ∈ a.bars, word a.config (regOffset bar.index) = bar.guestAddr.toUInt32 ||| bar.typeBits
  high : ∀ bar ∈ a.bars, bar.is64bit = true → bar.index + 1 < 6 →
    (∃ bar' ∈ a.bars, bar'.index = bar.index + 1) ∨
      word a.config (regOffset (bar.index + 1)) = (bar.guestAddr >>> 32).toUInt32

section AddBar

variable {a : Allocation} {bar : PciBar} {mmioNext : UInt64}

theorem addBar_low : word (a.addBar bar mmioNext).config (regOffset bar.index) =
    bar.guestAddr.toUInt32 ||| bar.typeBits := by
  have hself := word_writeBytes_self a.config (regOffset bar.index) (bar.guestAddr.toUInt32 ||| bar.typeBits)
  rw [addBar, UInt32.or_assoc]
  split
  · exact (word_writeBytes_apart _ (.inl le_rfl)).trans hself
  · exact hself

theorem addBar_high (h64 : bar.is64bit = true) (hlt : bar.index + 1 < 6) :
    word (a.addBar bar mmioNext).config (regOffset (bar.index + 1)) = (bar.guestAddr >>> 32).toUInt32 := by
  have hoff : regOffset (bar.index + 1) = barsStart + bar.index * 4 + 4 := by
    unfold regOffset
    omega
  rw [addBar, if_pos ⟨h64, hlt⟩, hoff, word_writeBytes_self]

theorem addBar_other {j : Nat} (hj : j < bar.index) :
    word (a.addBar bar mmioNext).config (regOffset j) = word a.config (regOffset j) := by
  have hlow : regOffset j + 4 ≤ barsStart + bar.index * 4 := by
    unfold regOffset
    omega
  rw [addBar]
  split
  · rw [word_writeBytes_apart _ (.inl (by omega)), word_writeBytes_apart _ (.inl hlow)]
  · rw [word_writeBytes_apart _ (.inl hlow)]

theorem Written.addBar (h : a.Written bar.index) (hbar : bar.index < 6) :
    (a.addBar bar mmioNext).Written (bar.index + 1) := by
  have hmem : ∀ bar', bar' ∈ (a.addBar bar mmioNext).bars ↔ bar' ∈ a.bars ∨ bar' = bar :=
    fun bar' => List.mem_append.trans (or_congr Iff.rfl List.mem_singleton)
  refine ⟨?_, ?_, ?_, ?_⟩
  · intro bar' hbar'
    rcases (hmem bar').mp hbar' with hold | rfl
    · have := h.index bar' hold
      omega
    · omega
  · apply List.pairwise_append.mpr
    refine ⟨h.increasing, List.pairwise_singleton _ _, ?_⟩
    intro bar' hold bar'' hnew
    obtain rfl := List.mem_singleton.mp hnew
    exact (h.index bar' hold).1
  · intro bar' hbar'
    rcases (hmem bar').mp hbar' with hold | rfl
    · rw [addBar_other (h.index bar' hold).1, h.low bar' hold]
    · exact addBar_low
  · intro bar' hbar' h64 hlt
    rcases (hmem bar').mp hbar' with hold | rfl
    · have hindex := (h.index bar' hold).1
      by_cases hnext : bar'.index + 1 = bar.index
      · exact .inl ⟨bar, (hmem bar).mpr (.inr rfl), hnext.symm⟩
      · rw [addBar_other (by omega)]
        rcases h.high bar' hold h64 hlt with ⟨bar'', hbar'', heq⟩ | hword
        · exact .inl ⟨bar'', (hmem bar'').mpr (.inl hbar''), heq⟩
        · exact .inr hword
    · exact .inr (addBar_high h64 hlt)

end AddBar

theorem Written.mono {a : Allocation} {i j : Nat} (h : a.Written i) (hij : i ≤ j) : a.Written j :=
  ⟨fun bar hbar => ⟨(h.index bar hbar).1.trans_le hij, (h.index bar hbar).2⟩, h.increasing, h.low, h.high⟩

theorem Written.addRegion {a : Allocation} {i : Nat} {region : VfioRegionInfo} (h : a.Written i) :
    (a.addRegion i region).Written (i + 1) := by
  rw [Allocation.addRegion]
  split
  · exact h.mono (Nat.le_succ i)
  · rename_i hskip
    push Not at hskip
    cases allocBar a.mmioNext region.size with
    | mk placed next =>
      cases placed with
      | none => exact ⟨(h.mono (Nat.le_succ i)).index, h.increasing, h.low, h.high⟩
      | some addr => exact Written.addBar h hskip.1

theorem Written.addRegions {a : Allocation} {i : Nat} {regions : List VfioRegionInfo} (h : a.Written i) :
    ∃ n, (addRegions i regions a).Written n := by
  induction regions generalizing i a with
  | nil => exact ⟨i, h⟩
  | cons region regions ih => exact ih h.addRegion

end Allocation

namespace PciBar

/-- The block of a BAR in the window, large enough for the type bits to lie below its address. -/
def Sized (bar : PciBar) (n : Nat) : Prop :=
  4 ≤ n ∧ n < 32 ∧ bar.size.toNat = 2 ^ n ∧ 2 ^ n ∣ bar.guestAddr.toNat ∧ bar.guestAddr.toNat + 2 ^ n ≤ pciMmioEnd

variable {bar : PciBar} {n : Nat}

theorem typeBits_lt (bar : PciBar) : bar.typeBits.toNat < 16 := by
  unfold typeBits
  cases bar.is64bit <;> cases bar.prefetchable <;> decide

theorem Sized.two_pow_lt (h : bar.Sized n) : 2 ^ n < 2 ^ 32 := Nat.pow_lt_pow_right (by decide) h.2.1

theorem Sized.sixteen_dvd (h : bar.Sized n) : 16 ∣ 2 ^ n := Nat.pow_dvd_pow 2 h.1

theorem Sized.mask_toNat (h : bar.Sized n) : bar.mask.toNat = 2 ^ 32 - 2 ^ n := by
  have hpos : 0 < 2 ^ n := Nat.two_pow_pos n
  have hlt := h.two_pow_lt
  have hword : UInt64.size = 2 ^ 64 := rfl
  rw [mask, UInt64.toNat_toUInt32, UInt64.toNat_not, UInt64.toNat_sub, h.2.2.1, UInt64.toNat_one]
  omega

theorem Sized.guestAddr_lt (h : bar.Sized n) : bar.guestAddr.toNat < 2 ^ 32 := by
  have hle := h.2.2.2.2
  have hpos : 0 < 2 ^ n := Nat.two_pow_pos n
  have hend : pciMmioEnd = 0xCFFFFFFF := rfl
  omega

theorem Sized.guestAddr_toUInt32 (h : bar.Sized n) : bar.guestAddr.toUInt32.toNat = bar.guestAddr.toNat :=
  Nat.mod_eq_of_lt h.guestAddr_lt

theorem Sized.guestAddr_high (h : bar.Sized n) : (bar.guestAddr >>> 32).toUInt32 = 0 := by
  have hlt := h.guestAddr_lt
  apply UInt32.toNat_inj.mp
  rw [UInt64.toNat_toUInt32, UInt64.toNat_shiftRight]
  change bar.guestAddr.toNat >>> 32 % 2 ^ 32 = 0
  rw [Nat.shiftRight_eq_div_pow, Nat.div_eq_of_lt hlt]

theorem Sized.and_mask (h : bar.Sized n) (v : UInt32) : (v &&& bar.mask).toNat = v.toNat / 2 ^ n * 2 ^ n := by
  rw [UInt32.toNat_and, h.mask_toNat]
  exact and_two_pow_sub v.toNat_lt h.2.1.le

theorem or_typeBits_toNat {x : UInt32} (hx : 16 ∣ x.toNat) (bar : PciBar) :
    (x ||| bar.typeBits).toNat = x.toNat + bar.typeBits.toNat := by
  have hlt : bar.typeBits.toNat < 2 ^ 4 := bar.typeBits_lt
  obtain ⟨m, hm⟩ := hx
  rw [UInt32.toNat_or, hm]
  exact (Nat.two_pow_add_eq_or_of_lt hlt m).symm

theorem or_typeBits_nibble {x : UInt32} (hx : 16 ∣ x.toNat) (bar : PciBar) :
    (x ||| bar.typeBits) &&& 0xF = bar.typeBits := by
  have hmask : (0xF : UInt32).toNat = 2 ^ 4 - 1 := rfl
  have hlt := bar.typeBits_lt
  apply UInt32.toNat_inj.mp
  rw [UInt32.toNat_and, hmask, Nat.and_two_pow_sub_one_eq_mod, or_typeBits_toNat hx]
  omega

theorem Sized.sixteen_dvd_mask (h : bar.Sized n) : 16 ∣ bar.mask.toNat := by
  rw [h.mask_toNat]
  exact Nat.dvd_sub (by decide) h.sixteen_dvd

theorem Sized.sixteen_dvd_guestAddr (h : bar.Sized n) : 16 ∣ bar.guestAddr.toUInt32.toNat := by
  rw [h.guestAddr_toUInt32]
  exact h.sixteen_dvd.trans h.2.2.2.1

theorem value_of_nibble (bar : PciBar) (v : UInt32) {low : UInt8} (h : low.toUInt32 &&& 0xF = bar.typeBits) :
    bar.value v low = (if v = allOnes then bar.mask else v &&& bar.mask) ||| bar.typeBits := by
  simp only [value, h]
  exact (apply_ite (· ||| bar.typeBits) (v = allOnes) _ _).symm

end PciBar

/-- A write to the configuration space of the device with the number `device`. -/
structure ConfigWrite where
  device : Nat
  off : Nat
  data : List UInt8

namespace ConfigWrite

def value (w : ConfigWrite) : UInt32 := .ofNat (leNat w.data)

def Sets (w : ConfigWrite) (k j : Nat) : Prop := w.device = k ∧ w.off = regOffset j ∧ w.data.length = 4

instance (w : ConfigWrite) (k j : Nat) : Decidable (w.Sets k j) := inferInstanceAs (Decidable (_ ∧ _))

end ConfigWrite

def lastWrite (k j : Nat) (ws : List ConfigWrite) : Option UInt32 :=
  ws.foldl (fun last w => if w.Sets k j then some w.value else last) none

theorem lastWrite_append (k j : Nat) (ws : List ConfigWrite) (w : ConfigWrite) :
    lastWrite k j (ws ++ [w]) = if w.Sets k j then some w.value else lastWrite k j ws := by
  rw [lastWrite, List.foldl_append]
  rfl

inductive Tracked (dev : PciDevice) (off : Nat) (data : List UInt8) : Prop
  | beyond (hlen : configSize < off + data.length)
  | dropped (hbar : (dev.barAt off).isSome = true) (hlen : data.length ≠ 4)
  | unchanged (hbar : dev.barAt off = none)
      (hdata : ∀ i (hi : i < data.length), barsStart ≤ off + i → off + i < barsEnd → data[i] = dev.config (off + i))
      (hreg : ∀ j, Held dev.bars j → off = regOffset j → data.length ≠ 4)
  | lower (bar : PciBar) (hmem : bar ∈ dev.bars) (hoff : off = regOffset bar.index) (hlen : data.length = 4)
      (hplace : dev.bars[bar.index]? = some bar)
      (hvalue : UInt32.ofNat (leNat data) = allOnes ∨
        UInt32.ofNat (leNat data) &&& bar.mask = bar.guestAddr.toUInt32)
  | upper (bar : PciBar) (hmem : bar ∈ dev.bars) (h64 : bar.is64bit = true) (hoff : off = regOffset (bar.index + 1))
      (hlen : data.length = 4) (hplace : dev.bars.length ≤ bar.index + 1)
      (hvalue : UInt32.ofNat (leNat data) = allOnes ∨
        UInt32.ofNat (leNat data) = (bar.guestAddr >>> 32).toUInt32)

structure Laid (dev : PciDevice) : Prop where
  index : ∀ bar ∈ dev.bars, bar.index < 6
  increasing : dev.bars.Pairwise fun bar bar' => bar.index < bar'.index
  sized : ∀ bar ∈ dev.bars, ∃ n, bar.Sized n
  pairs : ∀ bar ∈ dev.bars, bar.is64bit = true → bar.index + 1 < 6 ∧ ∀ bar' ∈ dev.bars, bar'.index ≠ bar.index + 1
  low : ∀ bar ∈ dev.bars, word dev.config (regOffset bar.index) = bar.guestAddr.toUInt32 ||| bar.typeBits
  high : ∀ bar ∈ dev.bars, bar.is64bit = true → word dev.config (regOffset (bar.index + 1)) = 0

/-- The registers of device `k` after the writes `ws`; `dev0` is the device as it was added. -/
structure Registers (k : Nat) (ws : List ConfigWrite) (dev0 dev : PciDevice) : Prop where
  bars : dev.bars = dev0.bars
  low : ∀ bar ∈ dev0.bars, word dev.config (regOffset bar.index) =
    (if lastWrite k bar.index ws = some allOnes then bar.mask else bar.guestAddr.toUInt32) ||| bar.typeBits
  high : ∀ bar ∈ dev0.bars, bar.is64bit = true → word dev.config (regOffset (bar.index + 1)) =
    if lastWrite k (bar.index + 1) ws = some allOnes then allOnes else 0
  lowValue : ∀ bar ∈ dev0.bars, ∀ v, lastWrite k bar.index ws = some v → v ≠ allOnes →
    v &&& bar.mask = bar.guestAddr.toUInt32
  highValue : ∀ bar ∈ dev0.bars, bar.is64bit = true → ∀ v, lastWrite k (bar.index + 1) ws = some v → v ≠ allOnes → v = 0
  hard : ∀ j < 6, ¬ Held dev0.bars j → word dev.config (regOffset j) = word dev0.config (regOffset j)

theorem Laid.registers {dev : PciDevice} (h : Laid dev) (k : Nat) : Registers k [] dev dev :=
  ⟨rfl, h.low, h.high, nofun, nofun, fun _ _ _ => rfl⟩

section Step

variable {k : Nat} {ws : List ConfigWrite} {w : ConfigWrite} {dev0 dev : PciDevice} {config : ByteStore}
  {vfio : Option VfioDevice}

theorem Registers.of_same (h : Registers k ws dev0 dev)
    (hword : ∀ j < 6, word config (regOffset j) = word dev.config (regOffset j))
    (hlaid : Laid dev0) (hsets : ∀ j, Held dev0.bars j → ¬ w.Sets k j) :
    Registers k (ws ++ [w]) dev0 { dev with config := config, vfio := vfio } := by
  have hlast : ∀ j, Held dev0.bars j → lastWrite k j (ws ++ [w]) = lastWrite k j ws := by
    intro j hj
    rw [lastWrite_append, if_neg (hsets j hj)]
  have hheld : ∀ bar ∈ dev0.bars, Held dev0.bars bar.index := fun bar hbar => ⟨bar, hbar, .inl rfl⟩
  have hheld' : ∀ bar ∈ dev0.bars, bar.is64bit = true → Held dev0.bars (bar.index + 1) :=
    fun bar hbar h64 => ⟨bar, hbar, .inr ⟨h64, rfl⟩⟩
  refine ⟨h.bars, ?_, ?_, ?_, ?_, ?_⟩
  · intro bar hbar
    rw [hlast _ (hheld bar hbar)]
    exact (hword _ (hlaid.index bar hbar)).trans (h.low bar hbar)
  · intro bar hbar h64
    rw [hlast _ (hheld' bar hbar h64)]
    exact (hword _ (hlaid.pairs bar hbar h64).1).trans (h.high bar hbar h64)
  · intro bar hbar
    rw [hlast _ (hheld bar hbar)]
    exact h.lowValue bar hbar
  · intro bar hbar h64
    rw [hlast _ (hheld' bar hbar h64)]
    exact h.highValue bar hbar h64
  · intro j hj hfree
    exact (hword j hj).trans (h.hard j hj hfree)

theorem Registers.of_one (h : Registers k ws dev0 dev) (hlaid : Laid dev0) {j : Nat} (hsets : w.Sets k j)
    (hheld : Held dev0.bars j) (hother : ∀ j' < 6, j' ≠ j → word config (regOffset j') = word dev.config (regOffset j'))
    (hlow : ∀ bar ∈ dev0.bars, bar.index = j →
      word config (regOffset j) = (if w.value = allOnes then bar.mask else bar.guestAddr.toUInt32) ||| bar.typeBits ∧
        (w.value ≠ allOnes → w.value &&& bar.mask = bar.guestAddr.toUInt32))
    (hhigh : ∀ bar ∈ dev0.bars, bar.is64bit = true → bar.index + 1 = j →
      word config (regOffset j) = (if w.value = allOnes then allOnes else 0) ∧ (w.value ≠ allOnes → w.value = 0)) :
    Registers k (ws ++ [w]) dev0 { dev with config := config, vfio := vfio } := by
  have hthis : lastWrite k j (ws ++ [w]) = some w.value := by
    rw [lastWrite_append, if_pos hsets]
  have hlast : ∀ j', j' ≠ j → lastWrite k j' (ws ++ [w]) = lastWrite k j' ws := by
    intro j' hne
    rw [lastWrite_append, if_neg]
    rintro ⟨-, hoff, -⟩
    have heq := hsets.2.1
    unfold regOffset at heq hoff
    omega
  refine ⟨h.bars, ?_, ?_, ?_, ?_, ?_⟩
  · intro bar hbar
    by_cases hj : bar.index = j
    · rw [hj, hthis]
      simpa using (hlow bar hbar hj).1
    · rw [hlast _ hj]
      exact (hother _ (hlaid.index bar hbar) hj).trans (h.low bar hbar)
  · intro bar hbar h64
    by_cases hj : bar.index + 1 = j
    · rw [hj, hthis]
      simpa using (hhigh bar hbar h64 hj).1
    · rw [hlast _ hj]
      exact (hother _ (hlaid.pairs bar hbar h64).1 hj).trans (h.high bar hbar h64)
  · intro bar hbar v hv hne
    by_cases hj : bar.index = j
    · rw [hj, hthis] at hv
      cases hv
      exact (hlow bar hbar hj).2 hne
    · rw [hlast _ hj] at hv
      exact h.lowValue bar hbar v hv hne
  · intro bar hbar h64 v hv hne
    by_cases hj : bar.index + 1 = j
    · rw [hj, hthis] at hv
      cases hv
      exact (hhigh bar hbar h64 hj).2 hne
    · rw [hlast _ hj] at hv
      exact h.highValue bar hbar h64 v hv hne
  · intro j' hj' hfree
    have hne : j' ≠ j := by
      rintro rfl
      exact hfree hheld
    exact (hother j' hj' hne).trans (h.hard j' hj' hfree)

theorem Laid.held_lt (h : Laid dev0) {j : Nat} (hj : Held dev0.bars j) : j < 6 := by
  obtain ⟨bar, hbar, rfl | ⟨h64, rfl⟩⟩ := hj
  · exact h.index bar hbar
  · exact (h.pairs bar hbar h64).1

theorem Laid.eq_of_index (h : Laid dev0) {bar bar' : PciBar} (hbar : bar ∈ dev0.bars) (hbar' : bar' ∈ dev0.bars)
    (hindex : bar.index = bar'.index) : bar = bar' := by
  by_contra hne
  have hdistinct : dev0.bars.Pairwise fun b b' => b.index ≠ b'.index := h.increasing.imp fun hlt => hlt.ne
  have hsymm : Std.Symm fun b b' : PciBar => b.index ≠ b'.index := ⟨fun _ _ h' => h'.symm⟩
  exact hdistinct.forall hbar hbar' hne hindex

theorem barAt_register (dev : PciDevice) {j : Nat} (hj : j < 6) : dev.barAt (regOffset j) = dev.bars[j]? := by
  have hrange : barsStart ≤ regOffset j ∧ regOffset j < barsEnd := by
    unfold regOffset barsStart barsEnd
    omega
  have hindex : (regOffset j - barsStart) / 4 = j := by
    unfold regOffset
    omega
  rw [PciDevice.barAt, if_pos hrange, hindex]

theorem configWrite_of_le (dev : PciDevice) {off : Nat} {data : List UInt8} (h : ¬ configSize < off + data.length) :
    dev.configWrite off data =
      { dev with config := dev.writeConfig off data, vfio := dev.vfio.map fun vfio => vfio.configWrite off data } :=
  if_neg h

theorem regOffset_le {j : Nat} (hj : j < 6) : regOffset j + 4 ≤ barsEnd := by
  unfold regOffset barsStart barsEnd
  omega

theorem Registers.step (h : Registers k ws dev0 dev) (hlaid : Laid dev0) (hk : w.device = k)
    (hw : Tracked dev w.off w.data) : Registers k (ws ++ [w]) dev0 (dev.configWrite w.off w.data) := by
  have hsize : barsEnd ≤ configSize := by decide
  have hbars := h.bars
  by_cases hbeyond : configSize < w.off + w.data.length
  · rw [PciDevice.configWrite, if_pos hbeyond]
    refine h.of_same (fun _ _ => rfl) hlaid ?_
    rintro j hj ⟨-, hoff, hlen⟩
    have := regOffset_le (hlaid.held_lt hj)
    omega
  · rw [configWrite_of_le dev hbeyond]
    cases hw with
    | beyond hlen => exact absurd hlen hbeyond
    | dropped hbar hlen =>
      obtain ⟨bar, hbar⟩ := Option.isSome_iff_exists.mp hbar
      have hsame : dev.writeConfig w.off w.data = dev.config := by
        rw [PciDevice.writeConfig, hbar]
        exact if_neg hlen
      rw [hsame]
      exact h.of_same (fun _ _ => rfl) hlaid fun j _ hsets => hlen hsets.2.2
    | unchanged hbar hdata hreg =>
      have hraw : dev.writeConfig w.off w.data = writeBytes dev.config w.off w.data := by
        rw [PciDevice.writeConfig, hbar]
      rw [hraw]
      refine h.of_same ?_ hlaid ?_
      · intro j hj
        have hend := regOffset_le hj
        apply word_congr
        intro i hi
        by_cases hin : w.off ≤ regOffset j + i ∧ regOffset j + i < w.off + w.data.length
        · obtain ⟨n, hn⟩ := Nat.exists_eq_add_of_le hin.1
          rw [hn, writeBytes_inside (by omega)]
          have hstart : barsStart ≤ regOffset j := Nat.le_add_right _ _
          exact hdata n (by omega) (by omega) (by omega)
        · exact writeBytes_outside (by omega)
      · intro j hj hsets
        exact hreg j (hbars ▸ hj) hsets.2.1 hsets.2.2
    | lower bar hmem hoff hlen hplace hvalue =>
      rw [hbars] at hmem
      have hlt := hlaid.index bar hmem
      obtain ⟨n, hsized⟩ := hlaid.sized bar hmem
      have hnibble : (dev.config (regOffset bar.index)).toUInt32 &&& 0xF = bar.typeBits := by
        rw [low_nibble, h.low bar hmem]
        split
        · exact PciBar.or_typeBits_nibble hsized.sixteen_dvd_mask bar
        · exact PciBar.or_typeBits_nibble hsized.sixteen_dvd_guestAddr bar
      have hconfig : dev.writeConfig w.off w.data = writeBytes dev.config (regOffset bar.index)
          (leBytes 4 (bar.value w.value (dev.config (regOffset bar.index))).toNat) := by
        rw [PciDevice.writeConfig, hoff, barAt_register dev hlt, hplace]
        exact if_pos hlen
      rw [hconfig]
      refine h.of_one hlaid ⟨hk, hoff, hlen⟩ ⟨bar, hmem, .inl rfl⟩ ?_ ?_ ?_
      · intro j _ hne
        apply word_writeBytes_apart
        rw [leBytes_length]
        exact regOffset_apart hne
      · intro bar' hbar' hindex
        obtain rfl := hlaid.eq_of_index hbar' hmem hindex
        rw [word_writeBytes_self, PciBar.value_of_nibble _ _ hnibble]
        by_cases hones : w.value = allOnes
        · rw [if_pos hones, if_pos hones]
          exact ⟨rfl, fun hne => absurd hones hne⟩
        · have hrestored := hvalue.resolve_left hones
          rw [if_neg hones, if_neg hones]
          exact ⟨congrArg (· ||| bar'.typeBits) hrestored, fun _ => hrestored⟩
      · intro bar' hbar' h64 hindex
        exact absurd hindex.symm ((hlaid.pairs bar' hbar' h64).2 bar hmem)
    | upper bar hmem h64 hoff hlen hplace hvalue =>
      rw [hbars] at hmem hplace
      have hlt := (hlaid.pairs bar hmem h64).1
      obtain ⟨n, hsized⟩ := hlaid.sized bar hmem
      have hraw : dev.writeConfig w.off w.data = writeBytes dev.config (regOffset (bar.index + 1)) w.data := by
        rw [PciDevice.writeConfig, hoff, barAt_register dev hlt, hbars, List.getElem?_eq_none hplace]
      rw [hraw]
      refine h.of_one hlaid ⟨hk, hoff, hlen⟩ ⟨bar, hmem, .inr ⟨h64, rfl⟩⟩ ?_ ?_ ?_
      · intro j _ hne
        apply word_writeBytes_apart
        rw [hlen]
        exact regOffset_apart hne
      · intro bar' hbar' hindex
        exact absurd hindex ((hlaid.pairs bar hmem h64).2 bar' hbar')
      · intro bar' _ _ _
        rw [word_writeBytes_data _ _ hlen]
        by_cases hones : w.value = allOnes
        · rw [if_pos hones]
          exact ⟨hones, fun hne => absurd hones hne⟩
        · have hzero := hvalue.resolve_left hones
          rw [hsized.guestAddr_high] at hzero
          rw [if_neg hones]
          exact ⟨hzero, fun _ => hzero⟩

end Step

end CloneVmm.Vmm.Pci
