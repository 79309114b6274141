import CloneVmm.Boot.LoadKernel
import CloneVmm.Lib.Placement
import CloneVmm.Lib.Prog

namespace CloneVmm.Boot

open CloneVmm.Lib CloneVmm.Vmm

variable {mem : GuestMem} {store store' : ByteStore} {actions : List (Part × Action)} {part : Part} {p : Nat}

def Footprint (mem : GuestMem) (actions : List (Part × Action)) (part : Part) (p : Nat) : Prop :=
  ∃ w offset, (part, .ok w) ∈ actions ∧ mem.gpaToOffset w.gpa = .ok offset ∧ Span.Covers ⟨offset, w.data.length⟩ p

structure Undisturbed (mem : GuestMem) (actions : List (Part × Action)) (store : ByteStore) : Prop where
  disjoint : ∀ part part', part ≠ part' → ∀ p, Footprint mem actions part p → ¬ Footprint mem actions part' p
  held : ∀ part blank own, performAll mem blank (actions.filter fun a => decide (a.1 = part)) = .ok own →
    ∀ p, Footprint mem actions part p → store p = own p

def Lands (mem : GuestMem) (a : Action) : Prop :=
  ∃ w offset, a = .ok w ∧ mem.gpaToOffset w.gpa = .ok offset ∧ offset + w.data.length ≤ mem.size

def resolve (mem : GuestMem) (a : Part × Action) : Option (Part × Write) :=
  match a.2 with
  | .ok w =>
    match mem.gpaToOffset w.gpa with
    | .ok offset => some (a.1, ⟨offset, w.data⟩)
    | .error _ => none
  | .error _ => none

theorem resolve_eq_some {a : Part × Action} {part : Part} {write : Write} :
    resolve mem a = some (part, write) ↔
      ∃ w, a = (part, .ok w) ∧ mem.gpaToOffset w.gpa = .ok write.offset ∧ write.data = w.data := by
  obtain ⟨part', action⟩ := a
  cases action with
  | error e => simp [resolve]
  | ok w =>
    cases hoffset : mem.gpaToOffset w.gpa with
    | error e => simp [resolve, hoffset]
    | ok offset =>
      obtain ⟨start, data⟩ := write
      simp only [resolve, hoffset, Option.some.injEq, Prod.mk.injEq, Write.mk.injEq, Except.ok.injEq]
      constructor
      · rintro ⟨rfl, rfl, rfl⟩
        exact ⟨w, ⟨rfl, rfl⟩, hoffset, rfl⟩
      · rintro ⟨w', ⟨rfl, rfl⟩, hoffset', rfl⟩
        rw [hoffset] at hoffset'
        exact ⟨rfl, Except.ok.inj hoffset', rfl⟩

theorem footprint_iff_writes : Footprint mem actions part p ↔ Writes (actions.filterMap (resolve mem)) part p := by
  constructor
  · rintro ⟨w, offset, hmem, hoffset, hp⟩
    refine ⟨⟨offset, w.data⟩, List.mem_filterMap.mpr ⟨_, hmem, ?_⟩, hp⟩
    exact resolve_eq_some.mpr ⟨w, rfl, hoffset, rfl⟩
  · rintro ⟨write, hmem, hp⟩
    obtain ⟨a, ha, hresolve⟩ := List.mem_filterMap.mp hmem
    obtain ⟨w, rfl, hoffset, hdata⟩ := resolve_eq_some.mp hresolve
    refine ⟨w, write.offset, ha, hoffset, ?_⟩
    rw [← hdata]
    exact hp

theorem perform_ok {a : Action} (h : perform mem store a = .ok store') : Lands mem a := by
  cases a with
  | error e => cases h
  | ok w =>
    obtain ⟨offset, hoffset, h⟩ := exceptBind_eq_ok.mp h
    split at h
    · cases h
    · exact ⟨w, offset, rfl, hoffset, by omega⟩

theorem perform_of_lands {a : Part × Action} (h : Lands mem a.2) (store : ByteStore) :
    ∃ write, resolve mem a = some (a.1, write) ∧ perform mem store a.2 = .ok (write.apply store) := by
  obtain ⟨part, action⟩ := a
  obtain ⟨w, offset, rfl, hoffset, hsize⟩ := h
  refine ⟨⟨offset, w.data⟩, resolve_eq_some.mpr ⟨w, rfl, hoffset, rfl⟩, ?_⟩
  simp only [perform, writeAt, hoffset]
  simp [Nat.not_lt.mpr hsize, Write.apply, pure, Except.pure, bind, Except.bind]

theorem performAll_ok (h : performAll mem store actions = .ok store') : ∀ a ∈ actions, Lands mem a.2 := by
  induction actions generalizing store with
  | nil => exact fun a ha => absurd ha List.not_mem_nil
  | cons a actions ih =>
    obtain ⟨store₁, hhead, htail⟩ := exceptBind_eq_ok.mp h
    exact List.forall_mem_cons.mpr ⟨perform_ok hhead, ih htail⟩

theorem performAll_of_lands (h : ∀ a ∈ actions, Lands mem a.2) (store : ByteStore) :
    performAll mem store actions = .ok (applyAll store (actions.filterMap (resolve mem))) := by
  induction actions generalizing store with
  | nil => rfl
  | cons a actions ih =>
    obtain ⟨hhead, htail⟩ := List.forall_mem_cons.mp h
    obtain ⟨write, hresolve, hperform⟩ := perform_of_lands hhead store
    rw [List.filterMap_cons_some hresolve, applyAll_cons, ← ih htail]
    rw [performAll, List.foldlM_cons, hperform]
    rfl

theorem filterMap_resolve_filter (mem : GuestMem) (actions : List (Part × Action)) (part : Part) :
    (actions.filter fun a => decide (a.1 = part)).filterMap (resolve mem) =
      (actions.filterMap (resolve mem)).filter fun w => decide (w.1 = part) := by
  rw [List.filterMap_filter, List.filter_filterMap]
  apply List.filterMap_congr
  intro a ha
  cases hresolve : resolve mem a with
  | none => simp
  | some entry =>
    obtain ⟨part', write⟩ := entry
    obtain ⟨w, rfl, -⟩ := resolve_eq_some.mp hresolve
    by_cases hpart : part' = part
    · simp [hpart, Option.filter]
    · simp [hpart, Option.filter]

theorem undisturbed_iff (h : performAll mem store actions = .ok store') :
    Undisturbed mem actions store' ↔
      ∀ part part', part ≠ part' → ∀ p, Footprint mem actions part p → ¬ Footprint mem actions part' p := by
  refine ⟨Undisturbed.disjoint, fun hdisjoint => ⟨hdisjoint, ?_⟩⟩
  intro part blank own hown p hp
  have hlands := performAll_ok h
  rw [performAll_of_lands hlands, Except.ok.injEq] at h
  rw [performAll_of_lands (performAll_ok hown), Except.ok.injEq, filterMap_resolve_filter] at hown
  rw [← h, ← hown]
  apply applyAll_own _ _ _ (.inr (footprint_iff_writes.mp hp))
  intro part' hne hwrites
  exact hdisjoint part part' (Ne.symm hne) p hp (footprint_iff_writes.mpr hwrites)

def allocOffset (mem : GuestMem) (gpa : Nat) : Nat :=
  if mem.hasHole ∧ mem.holeStart ≤ gpa then mem.holeStart + (gpa - mem.holeEnd) else gpa

def writeSpan (mem : GuestMem) (w : GuestWrite) : Span := ⟨allocOffset mem w.gpa, w.data.length⟩

namespace LoadConfig

variable (c : LoadConfig)

def madtAddr : Nat := if c.pciEnabled then xsdtAddr + 56 else xsdtAddr + 52

def xsdtLen : Nat := if c.pciEnabled then 52 else 44

def mcfgAreas (mem : GuestMem) : List Span :=
  if c.pciEnabled then [⟨allocOffset mem (c.madtAddr + madtLen c.numCpus + 8), 60⟩] else []

def initrdPatches (mem : GuestMem) (data : List UInt8) : List Span :=
  ⟨bootParamsAddr + 0x218, 8⟩ :: if initrdAddr mem data >>> 32 > 0 then [⟨bootParamsAddr + 0x0C0, 4⟩] else []

/-- Where an ELF kernel wants its segments, or the one place for a bzImage. -/
def kernelAreas (mem : GuestMem) : List Span :=
  if isBzimage c.kernel then [⟨kernelLoadAddr, c.kernel.length - setupSize c.kernel⟩]
  else (loadElf c.kernel).1.filterMap fun a => a.2.toOption.map (writeSpan mem)

def areas (mem : GuestMem) : Part → List Span
  | .cmdline => [⟨cmdlineAddr, c.cmdline.length + 1⟩]
  | .acpi => [⟨rsdpAddr, 36⟩, ⟨xsdtAddr, c.xsdtLen⟩, ⟨c.madtAddr, madtLen c.numCpus⟩] ++ c.mcfgAreas mem
  | .pageTables => [⟨pml4Addr, 8⟩, ⟨pdptAddr, numGb c.ramSize * 8⟩, ⟨pdBase, numGb c.ramSize * 0x1000⟩]
  | .gdt => [⟨gdtAddr, 32⟩]
  | .bootParams =>
    if isBzimage c.kernel then [⟨bootParamsAddr, 4096⟩] else (c.initrd.map (initrdPatches mem)).getD []
  | .kernel => c.kernelAreas mem
  | .initrd => (c.initrd.map fun data => ⟨allocOffset mem (initrdAddr mem data), data.length⟩).toList

structure Fits (mem : GuestMem) : Prop where
  ram : c.ramSize ≤ 16 <<< 30
  kernel : ∀ part, part ≠ .kernel → part ≠ .initrd → ∀ area ∈ c.areas mem part, ∀ piece ∈ c.areas mem .kernel,
    piece.Apart area
  initrd : ∀ part, part ≠ .initrd → ∀ area ∈ c.areas mem part, ∀ piece ∈ c.areas mem .initrd, piece.Apart area

end LoadConfig

theorem gpaToOffset_eq_allocOffset {gpa offset : Nat} (h : mem.gpaToOffset gpa = .ok offset) :
    offset = allocOffset mem gpa := by
  unfold allocOffset GuestMem.hasHole
  rcases (gpaToOffset_ok_iff mem gpa offset).mp h with ⟨hhole, -, rfl⟩ | ⟨-, hlow, rfl⟩ | ⟨hhole, hlow, -, -, rfl⟩
  · rw [if_neg (by simp [hhole])]
  · rw [if_neg (by omega)]
  · rw [if_pos ⟨by simpa using Nat.pos_of_ne_zero hhole, hlow⟩]

theorem allocOffset_low (ramSize : Nat) {gpa : Nat} (h : gpa < mmioHoleStart) :
    allocOffset (bootGuestMem ramSize) gpa = gpa := by
  unfold allocOffset
  rw [if_neg]
  rintro ⟨hhole, hle⟩
  unfold bootGuestMem at hhole hle
  split at hle
  · rw [if_pos ‹_›] at hhole
    cases hhole
  · exact absurd hle (Nat.not_le.mpr h)

theorem writeSpan_low {ramSize : Nat} {w : GuestWrite} (h : w.gpa < mmioHoleStart) :
    writeSpan (bootGuestMem ramSize) w = ⟨w.gpa, w.data.length⟩ := by
  rw [writeSpan, allocOffset_low ramSize h]

theorem performAll_value {front rest : List (Part × Action)} {v : UInt8}
    (hload : performAll mem store (front ++ rest) = .ok store')
    (hsome : ∃ part w, (part, .ok w) ∈ rest ∧ (writeSpan mem w).Covers p)
    (h : ∀ part w, (part, .ok w) ∈ rest → (writeSpan mem w).Covers p →
      w.data[p - (writeSpan mem w).base]? = some v) : store' p = v := by
  have hlands := performAll_ok hload
  rw [performAll_of_lands hlands, Except.ok.injEq, List.filterMap_append, applyAll_append] at hload
  rw [← hload]
  apply applyAll_value
  · rintro ⟨part, write⟩ hwrite hcovers m
    obtain ⟨a, ha, hresolve⟩ := List.mem_filterMap.mp hwrite
    obtain ⟨w, rfl, hoffset, hdata⟩ := resolve_eq_some.mp hresolve
    have hspan : write.span = writeSpan mem w := by
      rw [writeSpan, Write.span, ← gpaToOffset_eq_allocOffset hoffset, hdata]
    have hlow : write.offset ≤ p := hcovers.1
    have hbyte : write.data[p - write.offset]? = some v := by
      rw [hdata]
      have hw := h part w ha (hspan ▸ hcovers)
      rwa [← hspan] at hw
    change (if write.offset ≤ p then (write.data[p - write.offset]?).getD (m p) else m p) = v
    rw [if_pos hlow, hbyte]
    rfl
  · obtain ⟨part, w, hmem, hcovers⟩ := hsome
    obtain ⟨w', offset, heq, hoffset, -⟩ := hlands _ (List.mem_append_right _ hmem)
    obtain rfl := Except.ok.inj heq
    refine .inr ⟨part, footprint_iff_writes.mp ⟨w, offset, hmem, hoffset, ?_⟩⟩
    rw [gpaToOffset_eq_allocOffset hoffset]
    exact hcovers

def Covered (mem : GuestMem) (actions : List Action) (p : Nat) : Prop :=
  ∃ w, .ok w ∈ actions ∧ (writeSpan mem w).Covers p

theorem covered_nil : ¬ Covered mem [] p := by
  rintro ⟨w, hmem, -⟩
  cases hmem

theorem covered_cons {gpa : Nat} {data : List UInt8} {as : List Action} :
    Covered mem (put gpa data :: as) p ↔ Span.Covers ⟨allocOffset mem gpa, data.length⟩ p ∨ Covered mem as p := by
  constructor
  · rintro ⟨w, hmem, hp⟩
    rcases List.mem_cons.mp hmem with heq | hmem
    · obtain rfl := Except.ok.inj heq
      exact .inl hp
    · exact .inr ⟨w, hmem, hp⟩
  · rintro (hp | ⟨w, hmem, hp⟩)
    · exact ⟨⟨gpa, data⟩, List.mem_cons_self, hp⟩
    · exact ⟨w, List.mem_cons_of_mem _ hmem, hp⟩

theorem covered_append {as bs : List Action} : Covered mem (as ++ bs) p ↔ Covered mem as p ∨ Covered mem bs p := by
  simp only [Covered, List.mem_append, or_and_right, exists_or]

theorem covered_flatMap {ι : Type} {xs : List ι} {f : ι → List Action} :
    Covered mem (xs.flatMap f) p ↔ ∃ x ∈ xs, Covered mem (f x) p := by
  simp only [Covered, List.mem_flatMap]
  constructor
  · rintro ⟨w, ⟨x, hx, hw⟩, hp⟩
    exact ⟨x, hx, w, hw, hp⟩
  · rintro ⟨x, hx, w, hw, hp⟩
    exact ⟨w, ⟨x, hx, hw⟩, hp⟩

theorem covered_map_put {ι : Type} {xs : List ι} {gpa : ι → Nat} {data : ι → List UInt8} :
    Covered mem (xs.map fun x => put (gpa x) (data x)) p ↔
      ∃ x ∈ xs, Span.Covers ⟨allocOffset mem (gpa x), (data x).length⟩ p := by
  rw [← List.flatMap_singleton' (xs.map _), List.flatMap_map, covered_flatMap]
  simp only [covered_cons, or_iff_left covered_nil]

theorem covers_row {base size n : Nat} (hsize : 0 < size) :
    (∃ i < n, Span.Covers ⟨base + i * size, size⟩ p) ↔ Span.Covers ⟨base, n * size⟩ p := by
  constructor
  · rintro ⟨i, hi, hlo, hhi⟩
    have hrow : (i + 1) * size ≤ n * size := Nat.mul_le_mul_right size hi
    rw [Nat.add_mul] at hrow
    simp only [Span.Covers] at hlo hhi ⊢
    omega
  · rintro ⟨hlo, hhi⟩
    obtain ⟨i, hi, k, hk, rfl⟩ := exists_row_index hsize hlo hhi
    exact ⟨i, hi, Nat.le_add_right _ _, Nat.add_lt_add_left hk _⟩

@[simp] theorem summed_length (table : List UInt8) : (summed table).length = table.length := by
  simp [summed, withChecksum]

theorem tableHeader_length {signature : String} (h : (ascii signature).length = 4) (totalLen : Nat) (revision : UInt8) :
    (tableHeader signature totalLen revision).length = 36 := by
  have hoem : (ascii "CLONE ").length = 6 := by decide
  have htable : (ascii "CLONE   ").length = 8 := by decide
  have hcreator : (ascii "NVM ").length = 4 := by decide
  simp [tableHeader, h, hoem, htable, hcreator]

@[simp] theorem buildMcfg_length : buildMcfg.length = 60 := by
  simp [buildMcfg, tableHeader_length (show (ascii "MCFG").length = 4 by decide)]

@[simp] theorem buildRsdp_length (xsdtAddr : Nat) : (buildRsdp xsdtAddr).length = 36 := by
  have hsignature : (ascii "RSD PTR ").length = 8 := by decide
  have hoem : (ascii "CLONE ").length = 6 := by decide
  simp [buildRsdp, withChecksum, rsdpBody, hsignature, hoem]

theorem flatMap_length {ι : Type} {xs : List ι} {f : ι → List UInt8} {n : Nat} (h : ∀ x ∈ xs, (f x).length = n) :
    (xs.flatMap f).length = xs.length * n := by
  rw [List.length_flatMap, List.map_congr_left h, List.map_const', List.sum_replicate_nat]

@[simp] theorem buildXsdt_length (tableAddrs : List Nat) :
    (buildXsdt tableAddrs).length = 36 + tableAddrs.length * 8 := by
  simp only [buildXsdt, summed_length, List.length_append,
    tableHeader_length (show (ascii "XSDT").length = 4 by decide), flatMap_length fun addr _ => leBytes_length 8 addr]

@[simp] theorem buildMadt_length (numCpus : Nat) : (buildMadt numCpus).length = madtLen numCpus := by
  have hlapic : ((List.range numCpus).flatMap lapicEntry).length = numCpus * 8 := by
    rw [flatMap_length (n := 8) (fun i _ => by simp [lapicEntry]), List.length_range]
  have hrest : ioapicEntry.length + isoEntries.length + lapicNmiEntry.length = 12 + 5 * 10 + 6 := by decide
  simp only [buildMadt, summed_length, List.length_append, leBytes_length, hlapic, madtLen,
    tableHeader_length (show (ascii "APIC").length = 4 by decide)]
  omega

section Structures

variable (ramSize : Nat)

theorem covered_gdt : Covered (bootGuestMem ramSize) setupGdt p ↔ Span.Covers ⟨gdtAddr, 32⟩ p := by
  have hlow : ∀ k < 32, allocOffset (bootGuestMem ramSize) (gdtAddr + k) = gdtAddr + k := by
    intro k hk
    apply allocOffset_low
    simp only [gdtAddr, mmioHoleStart]
    omega
  have hoffset : ∀ i < 4, allocOffset (bootGuestMem ramSize) (gdtAddr + i * 8) = gdtAddr + i * 8 :=
    fun i hi => hlow _ (by omega)
  simp only [setupGdt, gdt, List.zipIdx_cons, List.zipIdx_nil, List.map_cons, List.map_nil, covered_cons,
    or_iff_left covered_nil, leBytes_length]
  rw [hoffset 0 (by decide), hoffset _ (by decide), hoffset _ (by decide), hoffset _ (by decide)]
  simp only [Span.Covers]
  omega

theorem covered_pd {gb : Nat} (hgb : gb < 64) :
    Covered (bootGuestMem ramSize) (pdWrites gb) p ↔ Span.Covers ⟨pdBase + gb * 0x1000, 0x1000⟩ p := by
  rw [show (0x1000 : Nat) = 512 * 8 from rfl, ← covers_row (by decide)]
  unfold pdWrites
  rw [covered_map_put]
  simp only [List.mem_range, leBytes_length]
  apply exists_congr
  intro i
  apply and_congr_right
  intro hi
  rw [allocOffset_low]
  simp only [pdBase, mmioHoleStart]
  omega

theorem numGb_le (ramSize : Nat) : numGb ramSize ≤ 64 := Nat.min_le_right _ _

theorem covered_pageTables :
    Covered (bootGuestMem ramSize) (setupPageTables ramSize) p ↔
      Span.Covers ⟨pml4Addr, 8⟩ p ∨ Span.Covers ⟨pdptAddr, numGb ramSize * 8⟩ p ∨
        Span.Covers ⟨pdBase, numGb ramSize * 0x1000⟩ p := by
  have hlow : ∀ gb < numGb ramSize, allocOffset (bootGuestMem ramSize) (pdptAddr + gb * 8) = pdptAddr + gb * 8 := by
    intro gb hgb
    have hle := numGb_le ramSize
    apply allocOffset_low
    simp only [pdptAddr, mmioHoleStart]
    omega
  unfold setupPageTables
  rw [covered_cons, covered_flatMap, leBytes_length, allocOffset_low _ (by decide), ← covers_row (by decide),
    ← covers_row (by decide), ← exists_or]
  apply or_congr_right
  apply exists_congr
  intro gb
  rw [← and_or_left, List.mem_range]
  apply and_congr_right
  intro hgb
  rw [covered_cons, leBytes_length, hlow gb hgb, covered_pd _ (hgb.trans_le (numGb_le ramSize))]

theorem covered_cmdline (cmdline : List UInt8) (h : cmdline.length < 4096) :
    Covered (bootGuestMem ramSize) [put cmdlineAddr cmdline, put (cmdlineAddr + cmdline.length) [0]] p ↔
      Span.Covers ⟨cmdlineAddr, cmdline.length + 1⟩ p := by
  rw [covered_cons, covered_cons, or_iff_left covered_nil, allocOffset_low _ (by decide), allocOffset_low]
  · simp only [Span.Covers, List.length_singleton]
    omega
  · simp only [cmdlineAddr, mmioHoleStart]
    omega

theorem covered_acpi (c : LoadConfig) (mem : GuestMem) (hmem : mem = bootGuestMem ramSize) :
    Covered mem (setupAcpiTablesWithPci c.numCpus c.pciEnabled) p ↔ ∃ area ∈ c.areas mem .acpi, area.Covers p := by
  have hlow : ∀ k < 0x100, allocOffset mem (rsdpAddr + k) = rsdpAddr + k := by
    intro k hk
    rw [hmem]
    apply allocOffset_low
    simp only [rsdpAddr, mmioHoleStart]
    omega
  have hxsdt : allocOffset mem xsdtAddr = xsdtAddr := hlow 36 (by decide)
  have hmadt : allocOffset mem (xsdtAddr + 52) = xsdtAddr + 52 := hlow 88 (by decide)
  have hmadt' : allocOffset mem (xsdtAddr + 56) = xsdtAddr + 56 := hlow 92 (by decide)
  have hrsdp : allocOffset mem rsdpAddr = rsdpAddr := hlow 0 (by decide)
  cases hpci : c.pciEnabled with
  | true =>
    simp [setupAcpiTablesWithPci, covered_cons, covered_nil, LoadConfig.areas, LoadConfig.mcfgAreas, LoadConfig.madtAddr,
      LoadConfig.xsdtLen, hpci, hrsdp, hxsdt, hmadt']
  | false =>
    simp [setupAcpiTablesWithPci, covered_cons, covered_nil, LoadConfig.areas, LoadConfig.mcfgAreas, LoadConfig.madtAddr,
      LoadConfig.xsdtLen, hpci, hrsdp, hxsdt, hmadt]

end Structures

def Inside (lo hi : Nat) (a : Action) : Prop := ∃ w, a = .ok w ∧ lo ≤ w.gpa ∧ w.gpa + w.data.length ≤ hi

theorem inside_put {lo hi gpa : Nat} {data : List UInt8} : Inside lo hi (put gpa data) ↔ lo ≤ gpa ∧ gpa + data.length ≤ hi := by
  constructor
  · rintro ⟨w, heq, hw⟩
    obtain rfl := Except.ok.inj heq
    exact hw
  · exact fun h => ⟨⟨gpa, data⟩, rfl, h⟩

theorem Inside.mono {lo hi hi' : Nat} {a : Action} (h : Inside lo hi a) (hhi : hi ≤ hi') : Inside 0 hi' a := by
  obtain ⟨w, rfl, -, hw⟩ := h
  exact ⟨w, rfl, Nat.zero_le _, hw.trans hhi⟩

theorem e820_length (ramSize : Nat) : (e820 ramSize).length = 7 := by
  unfold e820 e820Ram
  split <;> rfl

theorem e820Writes_inside (ramSize : Nat) :
    ∀ a ∈ e820Writes (e820 ramSize), Inside bootParamsAddr (bootParamsAddr + 4096) a := by
  intro a ha
  obtain ⟨⟨entry, i⟩, hentry, ha⟩ := List.mem_flatMap.mp ha
  have hi : i < 7 := by
    have := (List.mem_zipIdx hentry).2.1
    rw [e820_length] at this
    omega
  simp only [List.mem_cons, List.not_mem_nil, or_false] at ha
  rcases ha with rfl | rfl | rfl
  all_goals
    rw [inside_put]
    simp only [bpE820Table, leBytes_length]
    omega

theorem bzimageBootParams_inside (data : List UInt8) (ramSize : Nat) :
    ∀ a ∈ bzimageBootParams data ramSize, Inside bootParamsAddr (bootParamsAddr + 4096) a := by
  have hend : headerEnd data ≤ 4096 := Nat.min_le_right _ _
  unfold bzimageBootParams
  simp only [List.forall_mem_append]
  refine ⟨⟨⟨?_, ?_⟩, ?_⟩, e820Writes_inside ramSize⟩
  · rw [List.forall_mem_singleton, inside_put, List.length_replicate]
    exact ⟨Nat.le_refl _, Nat.le_refl _⟩
  · split
    · simp only [List.forall_mem_singleton, inside_put, List.length_drop, List.length_take]
      omega
    · exact List.forall_mem_nil _
  · simp only [List.forall_mem_cons, inside_put, leBytes_length, List.length_singleton, bpCmdLinePtr, bpHeapEndPtr,
      bpE820Entries]
    simp

theorem covered_of_inside {ramSize hi lo : Nat} {as : List Action} (h : ∀ a ∈ as, Inside lo hi a)
    (hhi : hi ≤ mmioHoleStart) (hp : Covered (bootGuestMem ramSize) as p) : lo ≤ p ∧ p < hi := by
  obtain ⟨w, hmem, hlo, hhigh⟩ := hp
  obtain ⟨w', heq, hlo', hhi'⟩ := h _ hmem
  obtain rfl := Except.ok.inj heq
  simp only [writeSpan] at hlo hhigh
  have hlow : allocOffset (bootGuestMem ramSize) w.gpa = w.gpa := by
    apply allocOffset_low
    omega
  rw [hlow] at hlo hhigh
  omega

theorem covered_bootParams (data : List UInt8) (ramSize : Nat) :
    Covered (bootGuestMem ramSize) (bzimageBootParams data ramSize) p ↔ Span.Covers ⟨bootParamsAddr, 4096⟩ p := by
  constructor
  · exact covered_of_inside (bzimageBootParams_inside data ramSize) (by decide)
  · intro hp
    refine ⟨⟨bootParamsAddr, List.replicate 4096 0⟩, ?_, ?_⟩
    · exact List.mem_append_left _ (List.mem_append_left _ (List.mem_append_left _ List.mem_cons_self))
    · rw [writeSpan, allocOffset_low _ (by decide), List.length_replicate]
      exact hp

def actionsOf (part : Part) (actions : List (Part × Action)) : List Action :=
  (actions.filter fun a => decide (a.1 = part)).map Prod.snd

theorem mem_actionsOf {a : Action} : a ∈ actionsOf part actions ↔ (part, a) ∈ actions := by
  simp [actionsOf]

theorem footprint_iff_covered (h : ∀ a ∈ actions, Lands mem a.2) :
    Footprint mem actions part p ↔ Covered mem (actionsOf part actions) p := by
  constructor
  · rintro ⟨w, offset, hmem, hoffset, hp⟩
    refine ⟨w, mem_actionsOf.mpr hmem, ?_⟩
    rw [writeSpan, ← gpaToOffset_eq_allocOffset hoffset]
    exact hp
  · rintro ⟨w, hmem, hp⟩
    have hmem := mem_actionsOf.mp hmem
    obtain ⟨w', offset, heq, hoffset, -⟩ := h _ hmem
    obtain rfl := Except.ok.inj heq
    refine ⟨w, offset, hmem, hoffset, ?_⟩
    rw [gpaToOffset_eq_allocOffset hoffset]
    exact hp

@[simp] theorem actionsOf_append (actions actions' : List (Part × Action)) :
    actionsOf part (actions ++ actions') = actionsOf part actions ++ actionsOf part actions' := by
  simp [actionsOf]

@[simp] theorem actionsOf_nil : actionsOf part [] = [] := rfl

@[simp] theorem actionsOf_cons (a : Part × Action) :
    actionsOf part (a :: actions) = if a.1 = part then a.2 :: actionsOf part actions else actionsOf part actions := by
  unfold actionsOf
  split
  · rw [List.filter_cons_of_pos (by simpa), List.map_cons]
  · rw [List.filter_cons_of_neg (by simpa)]

@[simp] theorem actionsOf_owned (part part' : Part) (as : List Action) :
    actionsOf part (owned part' as) = if part' = part then as else [] := by
  induction as with
  | nil => simp [owned]
  | cons a as ih =>
    rw [owned, List.map_cons, actionsOf_cons]
    rw [owned] at ih
    rw [ih]
    split <;> rfl

namespace LoadConfig

variable {c : LoadConfig}

theorem kernelActions_bzimage (hbz : isBzimage c.kernel = true) (h : ∀ a ∈ c.kernelActions.1, Lands mem a.2) :
    c.kernelActions.1 = owned .bootParams (bzimageBootParams c.kernel c.ramSize)
      ++ [(.kernel, put kernelLoadAddr (c.kernel.drop (setupSize c.kernel)))] := by
  unfold kernelActions at h ⊢
  rw [if_pos hbz] at h ⊢
  unfold loadBzimage at h ⊢
  split
  · rw [if_pos ‹_›] at h
    obtain ⟨w, offset, heq, -⟩ := h _ List.mem_cons_self
    cases heq
  · rfl

theorem actionsOf_loadElf (data : List UInt8) (hpart : part ≠ .kernel) : actionsOf part (loadElf data).1 = [] := by
  have hpart' : Part.kernel ≠ part := hpart.symm
  unfold loadElf
  split
  · simp [hpart']
  · simp [hpart']

theorem actionsOf_initrdActions (hpart : part ≠ .initrd) (hpart' : part ≠ .bootParams) :
    actionsOf part (c.initrdActions mem) = [] := by
  have h : Part.initrd ≠ part := hpart.symm
  have h' : Part.bootParams ≠ part := hpart'.symm
  unfold initrdActions
  cases c.initrd with
  | none => rfl
  | some data =>
    simp only [Option.map_some, Option.getD_some, loadInitrd]
    split
    · simp [h, h']
    · simp [h, h']

theorem actionsOf_kernelActions (hpart : part ≠ .kernel) (hpart' : part ≠ .bootParams) :
    actionsOf part c.kernelActions.1 = [] := by
  have h : Part.kernel ≠ part := hpart.symm
  have h' : Part.bootParams ≠ part := hpart'.symm
  unfold kernelActions
  split
  · unfold loadBzimage
    split
    · simp [h]
    · simp [h, h']
  · exact actionsOf_loadElf _ hpart

theorem actionsOf_fixed (hkernel : part ≠ .kernel) (hbootParams : part ≠ .bootParams) (hinitrd : part ≠ .initrd) :
    actionsOf part (c.actions mem) =
      actionsOf part (owned .cmdline c.cmdlineWrites ++ owned .acpi (setupAcpiTablesWithPci c.numCpus c.pciEnabled)
        ++ owned .pageTables (setupPageTables c.ramSize) ++ owned .gdt setupGdt) := by
  rw [actions, actionsOf_append, actionsOf_append, actionsOf_kernelActions hkernel hbootParams,
    actionsOf_initrdActions hinitrd hbootParams, List.append_nil, List.append_nil]

theorem actionsOf_loaded (hcmdline : part ≠ .cmdline) (hacpi : part ≠ .acpi) (hpageTables : part ≠ .pageTables)
    (hgdt : part ≠ .gdt) :
    actionsOf part (c.actions mem) = actionsOf part c.kernelActions.1 ++ actionsOf part (c.initrdActions mem) := by
  simp [actions, hcmdline.symm, hacpi.symm, hpageTables.symm, hgdt.symm]

theorem covered_kernel (hlands : ∀ a ∈ c.kernelActions.1, Lands (bootGuestMem c.ramSize) a.2) :
    Covered (bootGuestMem c.ramSize) (actionsOf .kernel c.kernelActions.1) p ↔
      ∃ area ∈ c.kernelAreas (bootGuestMem c.ramSize), area.Covers p := by
  unfold kernelAreas
  split
  · rw [kernelActions_bzimage ‹_› hlands]
    simp [covered_cons, covered_nil, allocOffset_low c.ramSize (show kernelLoadAddr < mmioHoleStart by decide)]
  · rw [kernelActions, if_neg ‹_›]
    constructor
    · rintro ⟨w, hmem, hp⟩
      exact ⟨_, List.mem_filterMap.mpr ⟨_, mem_actionsOf.mp hmem, rfl⟩, hp⟩
    · rintro ⟨area, hmem, hp⟩
      obtain ⟨⟨part, a⟩, ha, hsome⟩ := List.mem_filterMap.mp hmem
      cases a with
      | error e => cases hsome
      | ok w =>
        obtain rfl : writeSpan (bootGuestMem c.ramSize) w = area := by simpa [Except.toOption] using hsome
        have hpart : part = .kernel := by
          by_contra hne
          have hnil := actionsOf_loadElf c.kernel hne
          rw [← mem_actionsOf, hnil] at ha
          cases ha
        subst hpart
        exact ⟨w, mem_actionsOf.mpr ha, hp⟩

theorem covered_initrdPatches :
    Covered (bootGuestMem c.ramSize) (actionsOf .bootParams (c.initrdActions (bootGuestMem c.ramSize))) p ↔
      ∃ area ∈ (c.initrd.map (initrdPatches (bootGuestMem c.ramSize))).getD [], area.Covers p := by
  have hlow : ∀ k < 4096, allocOffset (bootGuestMem c.ramSize) (bootParamsAddr + k) = bootParamsAddr + k := by
    intro k hk
    apply allocOffset_low
    simp only [bootParamsAddr, mmioHoleStart]
    omega
  have htwo : ∀ q, Span.Covers ⟨bootParamsAddr + 0x218, 4⟩ q ∨ Span.Covers ⟨bootParamsAddr + 0x21C, 4⟩ q ↔
      Span.Covers ⟨bootParamsAddr + 0x218, 8⟩ q := by
    intro q
    simp only [Span.Covers]
    omega
  unfold initrdActions
  cases c.initrd with
  | none => simp [covered_nil]
  | some data =>
    simp only [Option.map_some, Option.getD_some, loadInitrd, initrdPatches]
    split
    · simp [covered_cons, covered_nil, hlow, ← htwo, or_assoc]
    · simp [covered_cons, covered_nil, hlow, ← htwo]

theorem initrdPatches_within (mem : GuestMem) (data : List UInt8) :
    ∀ area ∈ initrdPatches mem data, area.Within ⟨bootParamsAddr, 4096⟩ := by
  intro area harea
  unfold initrdPatches at harea
  split at harea
  · rcases List.mem_pair.mp harea with rfl | rfl
    · decide
    · decide
  · rw [List.mem_singleton.mp harea]
    decide

theorem covered_bootParamsPart (hlands : ∀ a ∈ c.kernelActions.1, Lands (bootGuestMem c.ramSize) a.2) :
    Covered (bootGuestMem c.ramSize)
        (actionsOf .bootParams c.kernelActions.1 ++ actionsOf .bootParams (c.initrdActions (bootGuestMem c.ramSize))) p ↔
      ∃ area ∈ c.areas (bootGuestMem c.ramSize) .bootParams, area.Covers p := by
  rw [covered_append, covered_initrdPatches]
  unfold areas
  dsimp only
  split
  · -- The patches for the initrd are in the page that the bzImage loader has cleared.
    rw [kernelActions_bzimage ‹_› hlands, actionsOf_append, actionsOf_owned, if_pos rfl, actionsOf_cons,
      if_neg (show Part.kernel ≠ .bootParams by decide), actionsOf_nil, List.append_nil, covered_bootParams]
    simp only [List.mem_singleton, exists_eq_left, or_iff_left_iff_imp]
    rintro ⟨area, harea, hp⟩
    cases hinitrd : c.initrd with
    | none =>
      rw [hinitrd] at harea
      cases harea
    | some data =>
      rw [hinitrd] at harea
      have hwithin := initrdPatches_within _ data area harea
      exact ⟨hwithin.1.trans hp.1, hp.2.trans_le hwithin.2⟩
  · rw [kernelActions, if_neg ‹_›, actionsOf_loadElf _ (by decide)]
    exact or_iff_right covered_nil

theorem covered_initrd :
    Covered mem (actionsOf .initrd c.kernelActions.1 ++ actionsOf .initrd (c.initrdActions mem)) p ↔
      ∃ area ∈ c.areas mem .initrd, area.Covers p := by
  rw [actionsOf_kernelActions (by decide) (by decide), List.nil_append]
  unfold initrdActions areas
  dsimp only
  cases c.initrd with
  | none => simp [covered_nil]
  | some data =>
    simp only [Option.map_some, Option.getD_some, loadInitrd]
    split
    · simp [covered_cons, covered_nil]
    · simp [covered_cons, covered_nil]

theorem footprint_iff_areas (hcmdline : c.cmdline.length < 4096)
    (hlands : ∀ a ∈ c.actions (bootGuestMem c.ramSize), Lands (bootGuestMem c.ramSize) a.2) :
    Footprint (bootGuestMem c.ramSize) (c.actions (bootGuestMem c.ramSize)) part p ↔
      ∃ area ∈ c.areas (bootGuestMem c.ramSize) part, area.Covers p := by
  have hkernel : ∀ a ∈ c.kernelActions.1, Lands (bootGuestMem c.ramSize) a.2 :=
    fun a ha => hlands a (List.mem_append_left _ (List.mem_append_right _ ha))
  rw [footprint_iff_covered hlands]
  cases part with
  | cmdline =>
    rw [actionsOf_fixed (by decide) (by decide) (by decide)]
    simp [areas, cmdlineWrites, covered_cmdline _ _ hcmdline]
  | acpi =>
    rw [actionsOf_fixed (by decide) (by decide) (by decide)]
    simp [covered_acpi c.ramSize c _ rfl]
  | pageTables =>
    rw [actionsOf_fixed (by decide) (by decide) (by decide)]
    simp [areas, covered_pageTables]
  | gdt =>
    rw [actionsOf_fixed (by decide) (by decide) (by decide)]
    simp [areas, covered_gdt]
  | bootParams =>
    rw [actionsOf_loaded (by decide) (by decide) (by decide) (by decide)]
    exact covered_bootParamsPart hkernel
  | kernel =>
    rw [actionsOf_loaded (by decide) (by decide) (by decide) (by decide),
      actionsOf_initrdActions (by decide) (by decide), List.append_nil]
    exact covered_kernel hkernel
  | initrd =>
    rw [actionsOf_loaded (by decide) (by decide) (by decide) (by decide)]
    exact covered_initrd

def InZone (p : Nat) : Part → Prop
  | .gdt => 0x500 ≤ p ∧ p < 0x520
  | .bootParams => 0x7000 ≤ p ∧ p < 0x8000
  | .pageTables => 0x9000 ≤ p ∧ p < 0x20000
  | .cmdline => 0x20000 ≤ p ∧ p < 0x21000
  | .acpi => 0xE0000 ≤ p
  | .kernel => True
  | .initrd => True

theorem numGb_le_iff {ramSize n : Nat} (hn : 0 < n) (hn' : n < 64) : numGb ramSize ≤ n ↔ ramSize ≤ n <<< 30 := by
  simp only [numGb, Nat.shiftRight_eq_div_pow, Nat.shiftLeft_eq]
  omega

theorem holeStart_of_hasHole {ramSize : Nat} (h : (bootGuestMem ramSize).hasHole = true) :
    (bootGuestMem ramSize).holeStart = mmioHoleStart := by
  unfold bootGuestMem at h ⊢
  split at h
  · cases h
  · rw [if_neg ‹_›]
    rfl

theorem le_allocOffset {ramSize gpa : Nat} (h : rsdpAddr ≤ gpa) : rsdpAddr ≤ allocOffset (bootGuestMem ramSize) gpa := by
  unfold allocOffset
  split
  · rename_i hhole
    rw [holeStart_of_hasHole hhole.1]
    exact Nat.le_add_right_of_le (by decide)
  · exact h

theorem inZone_of_areas (hcmdline : c.cmdline.length < 4096) (hram : c.ramSize ≤ 16 <<< 30) {area : Span}
    (harea : area ∈ c.areas (bootGuestMem c.ramSize) part) (hp : area.Covers p) : InZone p part := by
  have hgb : numGb c.ramSize ≤ 16 := (numGb_le_iff (by decide) (by decide)).mpr hram
  cases part with
  | cmdline =>
    rw [List.mem_singleton.mp harea] at hp
    simp only [Span.Covers, cmdlineAddr] at hp
    simp only [InZone]
    omega
  | acpi =>
    have hlow : rsdpAddr ≤ area.base := by
      simp only [areas, mcfgAreas, madtAddr, List.mem_append, List.mem_cons, List.not_mem_nil, or_false] at harea
      rcases harea with (rfl | rfl | rfl) | harea
      · exact Nat.le_refl _
      · exact Nat.le_add_right _ _
      · dsimp only
        split <;> exact Nat.le_add_right_of_le (Nat.le_add_right _ _)
      · split at harea
        · rw [List.mem_singleton.mp harea]
          apply le_allocOffset
          simp only [xsdtAddr]
          omega
        · cases harea
    exact hlow.trans hp.1
  | pageTables =>
    simp only [areas, List.mem_cons, List.not_mem_nil, or_false] at harea
    simp only [InZone]
    rcases harea with rfl | rfl | rfl
    all_goals
      simp only [Span.Covers, pml4Addr, pdptAddr, pdBase] at hp
      omega
  | gdt =>
    rw [List.mem_singleton.mp harea] at hp
    exact hp
  | bootParams =>
    have hwithin : area.Within ⟨bootParamsAddr, 4096⟩ := by
      simp only [areas] at harea
      split at harea
      · rw [List.mem_singleton.mp harea]
        exact ⟨Nat.le_refl _, Nat.le_refl _⟩
      · cases hinitrd : c.initrd with
        | none =>
          rw [hinitrd] at harea
          cases harea
        | some data =>
          rw [hinitrd] at harea
          exact initrdPatches_within _ data area harea
    exact ⟨hwithin.1.trans hp.1, hp.2.trans_le hwithin.2⟩
  | kernel => trivial
  | initrd => trivial

theorem not_inZone {part part' : Part} (hne : part ≠ part') (hkernel : part ≠ .kernel) (hkernel' : part' ≠ .kernel)
    (hinitrd : part ≠ .initrd) (hinitrd' : part' ≠ .initrd) (hp : InZone p part) : ¬ InZone p part' := by
  intro hp'
  cases part <;> cases part' <;> simp only [InZone, ne_eq, not_true_eq_false] at * <;> omega

theorem fits_of_apart
    (h : ∀ part part', part ≠ part' → ∀ area ∈ c.areas (bootGuestMem c.ramSize) part,
      ∀ area' ∈ c.areas (bootGuestMem c.ramSize) part', area.Apart area') : c.Fits (bootGuestMem c.ramSize) where
  ram := by
    by_contra hram
    have hgb : ¬ numGb c.ramSize ≤ 16 := fun hgb => hram ((numGb_le_iff (by decide) (by decide)).mp hgb)
    apply h .cmdline .pageTables (by decide) ⟨cmdlineAddr, c.cmdline.length + 1⟩ List.mem_cons_self
      ⟨pdBase, numGb c.ramSize * 0x1000⟩ (List.mem_cons_of_mem _ (List.mem_cons_of_mem _ List.mem_cons_self)) cmdlineAddr
    · exact ⟨Nat.le_refl _, Nat.lt_add_of_pos_right (Nat.succ_pos _)⟩
    · simp only [Span.Covers, cmdlineAddr, pdBase]
      omega
  kernel part hne _ area harea piece hpiece := h .kernel part hne.symm piece hpiece area harea
  initrd part hne area harea piece hpiece := h .initrd part hne.symm piece hpiece area harea

theorem Fits.apart (hcmdline : c.cmdline.length < 4096) (h : c.Fits (bootGuestMem c.ramSize)) {part part' : Part}
    (hne : part ≠ part') {area area' : Span} (harea : area ∈ c.areas (bootGuestMem c.ramSize) part)
    (harea' : area' ∈ c.areas (bootGuestMem c.ramSize) part') : area.Apart area' := by
  by_cases hinitrd : part = .initrd
  · subst hinitrd
    exact h.initrd part' hne.symm area' harea' area harea
  by_cases hinitrd' : part' = .initrd
  · subst hinitrd'
    exact (h.initrd part hne area harea area' harea').symm
  by_cases hkernel : part = .kernel
  · subst hkernel
    exact h.kernel part' hne.symm hinitrd' area' harea' area harea
  by_cases hkernel' : part' = .kernel
  · subst hkernel'
    exact (h.kernel part hne hinitrd area harea area' harea').symm
  intro p hp hp'
  exact not_inZone hne hkernel hkernel' hinitrd hinitrd' (inZone_of_areas hcmdline h.ram harea hp)
    (inZone_of_areas hcmdline h.ram harea' hp')

end LoadConfig

theorem loadKernelWithPci_ok {c : LoadConfig} {entry : Nat} (h : loadKernelWithPci mem store c = .ok (store', entry)) :
    performAll mem store (c.actions mem) = .ok store' := by
  obtain ⟨store₁, hperform, h⟩ := exceptBind_eq_ok.mp h
  obtain ⟨rfl, -⟩ := Prod.mk.inj (Except.ok.inj h)
  exact hperform

theorem load_undisturbed_iff (c : LoadConfig) (hcmdline : c.cmdline.length < 4096) (store store' : ByteStore) (entry : Nat)
    (h : loadKernelWithPci (bootGuestMem c.ramSize) store c = .ok (store', entry)) :
    Undisturbed (bootGuestMem c.ramSize) (c.actions (bootGuestMem c.ramSize)) store' ↔
      c.Fits (bootGuestMem c.ramSize) := by
  have hperform := loadKernelWithPci_ok h
  have hlands := performAll_ok hperform
  rw [undisturbed_iff hperform]
  simp only [LoadConfig.footprint_iff_areas hcmdline hlands]
  constructor
  · intro hdisjoint
    apply LoadConfig.fits_of_apart
    intro part part' hne area harea area' harea' p hp hp'
    exact hdisjoint part part' hne p ⟨area, harea, hp⟩ ⟨area', harea', hp'⟩
  · rintro hfits part part' hne p ⟨area, harea, hp⟩ ⟨area', harea', hp'⟩
    exact hfits.apart hcmdline hne harea harea' p hp hp'

theorem lands_of_inside {ramSize lo hi : Nat} {a : Action} (h : Inside lo hi a) (hhi : hi < guardSize) :
    Lands (bootGuestMem ramSize) a := by
  obtain ⟨w, rfl, -, hw⟩ := h
  have hguard : guardSize ≤ mmioHoleStart := by decide
  have hsize : guardSize ≤ allocSize ramSize := by
    rw [allocSize_eq]
    omega
  refine ⟨w, w.gpa, rfl, ?_⟩
  unfold bootGuestMem
  split
  · refine ⟨(gpaToOffset_fromRaw _ _ _).mpr ⟨by omega, rfl⟩, ?_⟩
    change _ ≤ allocSize ramSize
    omega
  · refine ⟨(gpaToOffset_fromRawWithHole _ _ _).mpr (.inl ⟨by omega, rfl⟩), ?_⟩
    change _ ≤ allocSize ramSize
    omega

namespace LoadConfig

structure Ordinary (c : LoadConfig) : Prop where
  bzimage : isBzimage c.kernel = true
  setup : setupSize c.kernel < c.kernel.length
  size : c.kernel.length < 0x4000000
  initrd : c.initrd = none
  cmdline : c.cmdline.length < 4096
  numCpus : c.numCpus < 0x100000

variable {c : LoadConfig}

theorem owned_inside {lo hi : Nat} {as : List Action} (h : ∀ a ∈ as, Inside lo hi a) :
    ∀ a ∈ owned part as, Inside lo hi a.2 := by
  intro a ha
  obtain ⟨a, hmem, rfl⟩ := List.mem_map.mp ha
  exact h a hmem

theorem acpi_inside (numCpus : Nat) (pciEnabled : Bool) :
    ∀ a ∈ setupAcpiTablesWithPci numCpus pciEnabled, Inside rsdpAddr (rsdpAddr + 272 + numCpus * 8) a := by
  have hxsdt : xsdtAddr = rsdpAddr + 36 := rfl
  cases pciEnabled with
  | true =>
    simp [setupAcpiTablesWithPci, inside_put, madtLen, hxsdt]
    omega
  | false =>
    simp [setupAcpiTablesWithPci, inside_put, madtLen, hxsdt]
    omega

theorem pageTables_inside (ramSize : Nat) : ∀ a ∈ setupPageTables ramSize, Inside pml4Addr 0x50000 a := by
  have hle := numGb_le ramSize
  unfold setupPageTables
  rw [List.forall_mem_cons, List.forall_mem_flatMap]
  refine ⟨inside_put.mpr ⟨Nat.le_refl _, by decide⟩, ?_⟩
  intro gb hgb
  rw [List.mem_range] at hgb
  rw [List.forall_mem_cons, inside_put, leBytes_length]
  refine ⟨?_, ?_⟩
  · simp only [pml4Addr, pdptAddr]
    omega
  · intro a ha
    obtain ⟨i, hi, rfl⟩ := List.mem_map.mp ha
    rw [List.mem_range] at hi
    rw [inside_put, leBytes_length]
    simp only [pml4Addr, pdBase]
    omega

theorem gdt_inside : ∀ a ∈ setupGdt, Inside gdtAddr (gdtAddr + 32) a := by
  simp [setupGdt, gdt, inside_put]

theorem Ordinary.kernelActions_eq (h : c.Ordinary) :
    c.kernelActions.1 = owned .bootParams (bzimageBootParams c.kernel c.ramSize)
      ++ [(.kernel, put kernelLoadAddr (c.kernel.drop (setupSize c.kernel)))] := by
  rw [kernelActions, if_pos h.bzimage, loadBzimage, if_neg (Nat.not_le.mpr h.setup)]

theorem Ordinary.initrdActions_eq (h : c.Ordinary) : c.initrdActions mem = [] := by
  rw [initrdActions, h.initrd, Option.map_none, Option.getD_none]

theorem Ordinary.inside (h : c.Ordinary) : ∀ a ∈ c.actions mem, Inside 0 0x5000000 a.2 := by
  have hcmdline := h.cmdline
  have hcpus := h.numCpus
  have hsize := h.size
  rw [actions, h.kernelActions_eq, h.initrdActions_eq, List.append_nil]
  simp only [List.forall_mem_append, List.forall_mem_singleton]
  refine ⟨⟨⟨⟨?_, ?_⟩, ?_⟩, ?_⟩, ?_, ?_⟩
  · apply owned_inside
    intro a ha
    rcases List.mem_pair.mp ha with rfl | rfl
    · rw [inside_put, cmdlineAddr]
      omega
    · rw [inside_put, cmdlineAddr, List.length_singleton]
      omega
  · refine owned_inside fun a ha => (acpi_inside _ _ a ha).mono ?_
    simp only [rsdpAddr]
    omega
  · exact owned_inside fun a ha => (pageTables_inside _ a ha).mono (by decide)
  · exact owned_inside fun a ha => (gdt_inside a ha).mono (by decide)
  · exact owned_inside fun a ha => (bzimageBootParams_inside _ _ a ha).mono (by decide)
  · rw [inside_put, List.length_drop, kernelLoadAddr]
    omega

theorem Ordinary.load (h : c.Ordinary) (store : ByteStore) :
    ∃ store' entry, loadKernelWithPci (bootGuestMem c.ramSize) store c = .ok (store', entry) := by
  have hlands : ∀ a ∈ c.actions (bootGuestMem c.ramSize), Lands (bootGuestMem c.ramSize) a.2 :=
    fun a ha => lands_of_inside (h.inside a ha) (by decide)
  unfold loadKernelWithPci
  rw [performAll_of_lands hlands]
  exact ⟨_, _, rfl⟩

theorem Ordinary.fits (h : c.Ordinary) (hram : c.ramSize ≤ 16 <<< 30)
    (hcpus : rsdpAddr + 272 + c.numCpus * 8 ≤ kernelLoadAddr) : c.Fits (bootGuestMem c.ramSize) where
  ram := hram
  kernel part hkernel hinitrd area harea piece hpiece := by
    have hpiece : piece = ⟨kernelLoadAddr, c.kernel.length - setupSize c.kernel⟩ := by
      simpa [areas, kernelAreas, h.bzimage] using hpiece
    subst hpiece
    intro p hp hp'
    have hlands : ∀ a ∈ c.actions (bootGuestMem c.ramSize), Lands (bootGuestMem c.ramSize) a.2 :=
      fun a ha => lands_of_inside (h.inside a ha) (by decide)
    have hfootprint := (footprint_iff_areas h.cmdline hlands).mpr ⟨area, harea, hp'⟩
    have hzone := inZone_of_areas h.cmdline hram harea hp'
    have hlow : p < kernelLoadAddr := by
      cases part with
      | acpi =>
        rw [footprint_iff_covered hlands, actionsOf_fixed (by decide) (by decide) (by decide)] at hfootprint
        simp at hfootprint
        exact (covered_of_inside (acpi_inside _ _) (hcpus.trans (by decide)) hfootprint).2.trans_le hcpus
      | kernel => exact absurd rfl hkernel
      | initrd => exact absurd rfl hinitrd
      | _ =>
        simp only [InZone] at hzone
        simp only [kernelLoadAddr]
        omega
    exact absurd hp.1 (Nat.not_le.mpr hlow)
  initrd part hne area harea piece hpiece := by
    rw [areas, h.initrd] at hpiece
    cases hpiece

theorem pageTables_at_cmdline {ramSize : Nat} {w : GuestWrite} (hw : .ok w ∈ setupPageTables ramSize)
    (hlo : w.gpa ≤ cmdlineAddr) (hhi : cmdlineAddr < w.gpa + w.data.length) :
    w = ⟨cmdlineAddr, leBytes 8 (pdEntry 16 0)⟩ := by
  have hle := numGb_le ramSize
  unfold setupPageTables at hw
  rcases List.mem_cons.mp hw with heq | hw
  · obtain rfl := Except.ok.inj heq
    simp only [pml4Addr, cmdlineAddr, leBytes_length] at hhi
    omega
  · obtain ⟨gb, hgb, hw⟩ := List.mem_flatMap.mp hw
    rw [List.mem_range] at hgb
    rcases List.mem_cons.mp hw with heq | hw
    · obtain rfl := Except.ok.inj heq
      simp only [pdptAddr, cmdlineAddr, leBytes_length] at hhi
      omega
    · obtain ⟨i, hi, heq⟩ := List.mem_map.mp hw
      obtain rfl := Except.ok.inj heq
      rw [List.mem_range] at hi
      simp only [pdBase, cmdlineAddr, leBytes_length] at hlo hhi
      obtain ⟨rfl, rfl⟩ : gb = 16 ∧ i = 0 := by omega
      rfl

theorem Ordinary.written_after_acpi (h : c.Ordinary) {w : GuestWrite}
    (hw : (part, .ok w) ∈
      owned .pageTables (setupPageTables c.ramSize) ++ owned .gdt setupGdt ++ c.kernelActions.1)
    (hlo : w.gpa ≤ cmdlineAddr) (hhi : cmdlineAddr < w.gpa + w.data.length) :
    w = ⟨cmdlineAddr, leBytes 8 (pdEntry 16 0)⟩ := by
  have hout : ∀ {lo hi}, Inside lo hi (.ok w) → hi ≤ cmdlineAddr ∨ cmdlineAddr < lo → False := by
    rintro lo hi ⟨w', heq, hlo', hhi'⟩ hor
    obtain rfl := Except.ok.inj heq
    omega
  rw [h.kernelActions_eq] at hw
  simp only [List.mem_append, owned, List.mem_map, Prod.mk.injEq, List.mem_singleton] at hw
  rcases hw with (⟨a, ha, -, rfl⟩ | ⟨a, ha, -, rfl⟩) | ⟨a, ha, -, rfl⟩ | ⟨-, heq⟩
  · exact pageTables_at_cmdline ha hlo hhi
  · exact (hout (gdt_inside _ ha) (.inl (by decide))).elim
  · exact (hout (bzimageBootParams_inside _ _ _ ha) (.inl (by decide))).elim
  · refine (hout (heq ▸ inside_put.mpr ⟨Nat.le_refl kernelLoadAddr, Nat.le_refl _⟩) (.inr (by decide))).elim

theorem Ordinary.cmdline_lost (h : c.Ordinary) (hram : 16 <<< 30 < c.ramSize) {entry : Nat}
    (hload : loadKernelWithPci (bootGuestMem c.ramSize) store c = .ok (store', entry)) : store' cmdlineAddr = 0x83 := by
  have hrun := loadKernelWithPci_ok hload
  have hsplit : c.actions (bootGuestMem c.ramSize) =
      (owned .cmdline c.cmdlineWrites ++ owned .acpi (setupAcpiTablesWithPci c.numCpus c.pciEnabled)) ++
        (owned .pageTables (setupPageTables c.ramSize) ++ owned .gdt setupGdt ++ c.kernelActions.1) := by
    rw [actions, h.initrdActions_eq]
    simp only [List.append_assoc, List.append_nil]
  have hinside : ∀ a ∈ c.actions (bootGuestMem c.ramSize), Inside 0 0x5000000 a.2 := h.inside
  rw [hsplit] at hrun hinside
  have hgb : ¬ numGb c.ramSize ≤ 16 :=
    fun hgb => absurd hram (Nat.not_lt.mpr ((numGb_le_iff (by decide) (by decide)).mp hgb))
  have hpd : .ok ⟨cmdlineAddr, leBytes 8 (pdEntry 16 0)⟩ ∈ setupPageTables c.ramSize := by
    apply List.mem_cons_of_mem
    refine List.mem_flatMap.mpr ⟨16, List.mem_range.mpr (by omega), List.mem_cons_of_mem _ ?_⟩
    exact List.mem_map.mpr ⟨0, List.mem_range.mpr (by decide), rfl⟩
  have hlow : cmdlineAddr < mmioHoleStart := by decide
  refine performAll_value hrun ⟨.pageTables, ⟨cmdlineAddr, leBytes 8 (pdEntry 16 0)⟩, ?_, ?_⟩ ?_
  · exact List.mem_append_left _ (List.mem_append_left _ (List.mem_map.mpr ⟨_, hpd, rfl⟩))
  · rw [writeSpan_low hlow]
    decide
  · intro part w hmem hcovers
    obtain ⟨w', heq, -, hend⟩ := hinside _ (List.mem_append_right _ hmem)
    obtain rfl := Except.ok.inj heq
    rw [writeSpan_low (by simp only [mmioHoleStart]; omega)] at hcovers
    obtain rfl := h.written_after_acpi hmem hcovers.1 hcovers.2
    rw [writeSpan_low hlow]
    decide

end LoadConfig

def tinyKernel : List UInt8 :=
  List.replicate 0x1F1 0 ++ [1] ++ List.replicate 16 0 ++ ascii "HdrS" ++ List.replicate 600 0x90

def tinyLoad (ramSize : Nat) : LoadConfig := ⟨tinyKernel, none, ascii "console=ttyS0", 2, ramSize, true⟩

theorem tinyLoad_ordinary (ramSize : Nat) : (tinyLoad ramSize).Ordinary where
  bzimage := by
    change isBzimage tinyKernel = true
    decide +kernel
  setup := by
    change setupSize tinyKernel < tinyKernel.length
    decide +kernel
  size := by
    change tinyKernel.length < _
    decide +kernel
  initrd := rfl
  cmdline := by
    change (ascii "console=ttyS0").length < _
    decide
  numCpus := by
    change 2 < _
    decide

theorem load_undisturbed_half_gb :
    ∃ store' entry, loadKernelWithPci (bootGuestMem 0x20000000) (fun _ => 0) (tinyLoad 0x20000000) = .ok (store', entry) ∧
      Undisturbed (bootGuestMem 0x20000000) ((tinyLoad 0x20000000).actions (bootGuestMem 0x20000000)) store' := by
  obtain ⟨store', entry, h⟩ := (tinyLoad_ordinary 0x20000000).load fun _ => 0
  refine ⟨store', entry, h, ?_⟩
  have hfits : (tinyLoad 0x20000000).Fits (bootGuestMem 0x20000000) :=
    (tinyLoad_ordinary 0x20000000).fits (show 0x20000000 ≤ 16 <<< 30 by decide) (by decide)
  exact (load_undisturbed_iff (tinyLoad 0x20000000) (tinyLoad_ordinary _).cmdline _ store' entry h).mpr hfits

theorem load_undisturbed_fails :
    ∃ store' entry, loadKernelWithPci (bootGuestMem (17 <<< 30)) (fun _ => 0) (tinyLoad (17 <<< 30)) = .ok (store', entry) ∧
      readBytes store' cmdlineAddr 14 ≠ ascii "console=ttyS0" ++ [0] ∧
      ¬ Undisturbed (bootGuestMem (17 <<< 30)) ((tinyLoad (17 <<< 30)).actions (bootGuestMem (17 <<< 30))) store' := by
  have hordinary := tinyLoad_ordinary (17 <<< 30)
  obtain ⟨store', entry, h⟩ := hordinary.load fun _ => 0
  have hlost : store' cmdlineAddr = 0x83 := hordinary.cmdline_lost (show 16 <<< 30 < 17 <<< 30 by decide) h
  refine ⟨store', entry, h, ?_, ?_⟩
  · intro heq
    have hbyte := readBytes_getElem? store' cmdlineAddr 14 0 (by decide)
    rw [heq, Nat.add_zero, hlost] at hbyte
    exact absurd hbyte (by decide)
  · intro hundisturbed
    have hperform := loadKernelWithPci_ok h
    have hlands := performAll_ok hperform
    have hfits := LoadConfig.fits_of_apart fun part part' hne area harea area' harea' p hp hp' =>
      hundisturbed.disjoint part part' hne p
        ((LoadConfig.footprint_iff_areas hordinary.cmdline hlands).mpr ⟨area, harea, hp⟩)
        ((LoadConfig.footprint_iff_areas hordinary.cmdline hlands).mpr ⟨area', harea', hp'⟩)
    exact absurd hfits.ram (show ¬ 17 <<< 30 ≤ 16 <<< 30 by decide)

end CloneVmm.Boot
