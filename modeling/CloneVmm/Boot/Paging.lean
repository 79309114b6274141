import CloneVmm.Boot.KernelLayout
import Mathlib.Data.Nat.Bitwise

namespace CloneVmm.Boot

open CloneVmm.Lib CloneVmm.Vmm

def readEntry (mem : GuestMem) (store : ByteStore) (gpa : Nat) : Option Nat :=
  (mem.gpaToOffset gpa).toOption.map fun offset => leNat (readBytes store offset 8)

def entryFor (mem : GuestMem) (store : ByteStore) (table index : Nat) : Option Nat :=
  (readEntry mem store (table + index % 512 * 8)).filter fun entry => entry.testBit 0 && entry.testBit 1

def tableBase (entry : Nat) : Nat := entry / 2 ^ 12 % 2 ^ 40 * 2 ^ 12

def frameBase (entry : Nat) : Nat := entry / 2 ^ 21 % 2 ^ 31 * 2 ^ 21

def Canonical (va : Nat) : Prop := va < 2 ^ 47 ∨ 2 ^ 64 - 2 ^ 47 ≤ va

instance (va : Nat) : Decidable (Canonical va) := inferInstanceAs (Decidable (_ ∨ _))

def walk (mem : GuestMem) (store : ByteStore) (va : Nat) : Option Nat :=
  if Canonical va then
    (entryFor mem store pml4Addr (va / 2 ^ 39)).bind fun pml4Entry =>
    (entryFor mem store (tableBase pml4Entry) (va / 2 ^ 30)).bind fun pdptEntry =>
    if pdptEntry.testBit 7 then none
    else (entryFor mem store (tableBase pdptEntry) (va / 2 ^ 21)).bind fun pdEntry =>
      if pdEntry.testBit 7 then some (frameBase pdEntry + va % 2 ^ 21) else none
  else none

def ReportedRam (ramSize gpa : Nat) : Prop :=
  gpa < 2 ^ 64 ∧ ∃ entry ∈ e820 ramSize, entry.type = .ram ∧ entry.addr ≤ gpa ∧ gpa < entry.addr + entry.size

namespace LoadConfig

/-- What `load_kernel_with_pci` has written when `setup_page_tables` returns. -/
def pagingActions (c : LoadConfig) : List (Part × Action) :=
  owned .cmdline c.cmdlineWrites ++ owned .acpi (setupAcpiTablesWithPci c.numCpus c.pciEnabled)
    ++ owned .pageTables (setupPageTables c.ramSize)

theorem actions_eq_pagingActions (c : LoadConfig) (mem : GuestMem) :
    c.actions mem = c.pagingActions ++ (owned .gdt setupGdt ++ c.kernelActions.1 ++ c.initrdActions mem) := by
  simp only [actions, pagingActions, List.append_assoc]

end LoadConfig

inductive TableEntry (ramSize : Nat) : Nat → Nat → Prop
  | pml4 : TableEntry ramSize pml4Addr (pdptAddr ||| 0x3)
  | pdpt (gb : Nat) (h : gb < numGb ramSize) :
      TableEntry ramSize (pdptAddr + gb * 8) (pdBase + gb * 0x1000 ||| 0x3)
  | pd (gb i : Nat) (h : gb < numGb ramSize) (hi : i < 512) :
      TableEntry ramSize (pdBase + gb * 0x1000 + i * 8) (pdEntry gb i)

theorem mem_setupPageTables {ramSize : Nat} {a : Action} :
    a ∈ setupPageTables ramSize ↔ ∃ gpa entry, TableEntry ramSize gpa entry ∧ a = put gpa (leBytes 8 entry) := by
  unfold setupPageTables
  rw [List.mem_cons, List.mem_flatMap]
  constructor
  · rintro (rfl | ⟨gb, hgb, ha⟩)
    · exact ⟨_, _, .pml4, rfl⟩
    · rw [List.mem_range] at hgb
      rcases List.mem_cons.mp ha with rfl | ha
      · exact ⟨_, _, .pdpt gb hgb, rfl⟩
      · obtain ⟨i, hi, rfl⟩ := List.mem_map.mp ha
        exact ⟨_, _, .pd gb i hgb (List.mem_range.mp hi), rfl⟩
  · rintro ⟨gpa, entry, hentry, rfl⟩
    cases hentry with
    | pml4 => exact .inl rfl
    | pdpt gb h => exact .inr ⟨gb, List.mem_range.mpr h, List.mem_cons_self⟩
    | pd gb i h hi =>
      refine .inr ⟨gb, List.mem_range.mpr h, List.mem_cons_of_mem _ ?_⟩
      exact List.mem_map.mpr ⟨i, List.mem_range.mpr hi, rfl⟩

theorem TableEntry.bounds {ramSize gpa entry : Nat} (h : TableEntry ramSize gpa entry) :
    gpa % 8 = 0 ∧ pml4Addr ≤ gpa ∧ gpa + 8 ≤ 0x50000 := by
  have hle := numGb_le ramSize
  cases h with
  | pml4 => decide
  | pdpt gb hgb =>
    simp only [pml4Addr, pdptAddr]
    omega
  | pd gb i hgb hi =>
    simp only [pml4Addr, pdBase]
    omega

theorem TableEntry.unique {ramSize gpa entry entry' : Nat} (h : TableEntry ramSize gpa entry)
    (h' : TableEntry ramSize gpa entry') : entry = entry' := by
  have hle := numGb_le ramSize
  generalize hgpa : gpa = gpa' at h'
  cases h with
  | pml4 =>
    cases h' with
    | pml4 => rfl
    | pdpt gb hgb =>
      simp only [pml4Addr, pdptAddr] at hgpa
      omega
    | pd gb i hgb hi =>
      simp only [pml4Addr, pdBase] at hgpa
      omega
  | pdpt gb hgb =>
    cases h' with
    | pml4 =>
      simp only [pml4Addr, pdptAddr] at hgpa
      omega
    | pdpt gb' hgb' =>
      obtain rfl : gb = gb' := by omega
      rfl
    | pd gb' i hgb' hi =>
      simp only [pdptAddr, pdBase] at hgpa
      omega
  | pd gb i hgb hi =>
    cases h' with
    | pml4 =>
      simp only [pml4Addr, pdBase] at hgpa
      omega
    | pdpt gb' hgb' =>
      simp only [pdptAddr, pdBase] at hgpa
      omega
    | pd gb' i' hgb' hi' =>
      obtain ⟨rfl, rfl⟩ : gb = gb' ∧ i = i' := by omega
      rfl

section Tables

variable {c : LoadConfig} {store : ByteStore}

theorem low_gpaToOffset (ramSize : Nat) {gpa : Nat} (h : gpa < 0x50000) :
    (bootGuestMem ramSize).gpaToOffset gpa = .ok gpa := by
  have hguard : 0x50000 < guardSize := by decide
  have hinside : Inside 0 0x50000 (put gpa []) := inside_put.mpr ⟨Nat.zero_le _, h.le⟩
  have hlands : Lands (bootGuestMem ramSize) (put gpa []) := lands_of_inside hinside hguard
  obtain ⟨w, offset, heq, hoffset, -⟩ := hlands
  obtain rfl := Except.ok.inj heq
  have hlow : gpa < mmioHoleStart := h.trans (by decide)
  rw [hoffset, gpaToOffset_eq_allocOffset hoffset, allocOffset_low _ hlow]

theorem readEntry_low (ramSize : Nat) {gpa : Nat} (h : gpa < 0x50000) :
    readEntry (bootGuestMem ramSize) store gpa = some (leNat (readBytes store gpa 8)) := by
  rw [readEntry, low_gpaToOffset _ h]
  rfl

theorem le_gpaToOffset {ramSize gpa offset lo : Nat} (h : (bootGuestMem ramSize).gpaToOffset gpa = .ok offset)
    (hlo : lo ≤ mmioHoleStart) (hgpa : lo ≤ gpa) : lo ≤ offset := by
  rw [gpaToOffset_eq_allocOffset h, allocOffset]
  split
  · rename_i hhole
    rw [LoadConfig.holeStart_of_hasHole hhole.1]
    exact Nat.le_add_right_of_le hlo
  · exact hgpa

theorem covers_entry {ramSize gpa entry : Nat} {part part' : Part} {write : Write} {i : Nat}
    (hentry : TableEntry ramSize gpa entry) (hi : i < 8)
    (hwrite : (part, write) ∈ (owned part' (setupPageTables ramSize)).filterMap (resolve (bootGuestMem ramSize)))
    (hcovers : write.Covers (gpa + i)) : write = ⟨gpa, leBytes 8 entry⟩ := by
  obtain ⟨a, ha, hresolve⟩ := List.mem_filterMap.mp hwrite
  obtain ⟨w, rfl, hoffset, hdata⟩ := resolve_eq_some.mp hresolve
  obtain ⟨a, ha, heq⟩ := List.mem_map.mp ha
  obtain ⟨-, rfl⟩ := Prod.mk.inj heq
  obtain ⟨gpa', entry', hentry', heq'⟩ := mem_setupPageTables.mp ha
  obtain rfl := Except.ok.inj heq'
  obtain ⟨haligned, -, hhi⟩ := hentry.bounds
  obtain ⟨haligned', -, hhi'⟩ := hentry'.bounds
  rw [low_gpaToOffset _ (show gpa' < 0x50000 by omega)] at hoffset
  obtain ⟨offset, data⟩ := write
  obtain rfl : gpa' = offset := Except.ok.inj hoffset
  obtain rfl : data = leBytes 8 entry' := hdata
  simp only [Write.Covers, Write.span, Span.Covers, leBytes_length] at hcovers
  obtain rfl : gpa' = gpa := by omega
  rw [hentry.unique hentry']

theorem paging_store (h : performAll (bootGuestMem c.ramSize) (fun _ => 0) c.pagingActions = .ok store) :
    store = applyAll (fun _ => 0) (c.pagingActions.filterMap (resolve (bootGuestMem c.ramSize))) := by
  rw [performAll_of_lands (performAll_ok h), Except.ok.injEq] at h
  exact h.symm

theorem readEntry_written (h : performAll (bootGuestMem c.ramSize) (fun _ => 0) c.pagingActions = .ok store)
    {gpa entry : Nat} (hentry : TableEntry c.ramSize gpa entry) :
    readEntry (bootGuestMem c.ramSize) store gpa = some (entry % 2 ^ 64) := by
  obtain ⟨-, -, hhi⟩ := hentry.bounds
  have hbytes : readBytes store gpa 8 = leBytes 8 entry := by
    apply List.ext_getElem?
    intro i
    by_cases hi : i < 8
    · rw [readBytes_getElem? _ _ _ _ hi, leBytes_getElem? _ _ _ hi, Option.some.injEq, paging_store h,
        LoadConfig.pagingActions, List.filterMap_append, applyAll_append]
      apply applyAll_value
      · rintro ⟨part, write⟩ hwrite hcovers m
        obtain rfl := covers_entry hentry hi hwrite hcovers
        have hlen : i < (leBytes 8 entry).length := by rwa [leBytes_length]
        rw [Write.apply, writeBytes_inside hlen]
        exact Option.some.inj ((List.getElem?_eq_getElem hlen).symm.trans (leBytes_getElem? 8 entry i hi))
      · refine .inr ⟨.pageTables, ⟨gpa, leBytes 8 entry⟩,
          List.mem_filterMap.mpr ⟨(.pageTables, put gpa (leBytes 8 entry)), ?_, ?_⟩, ?_⟩
        · exact List.mem_map.mpr ⟨_, mem_setupPageTables.mpr ⟨gpa, entry, hentry, rfl⟩, rfl⟩
        · exact resolve_eq_some.mpr ⟨_, rfl, low_gpaToOffset _ (show gpa < 0x50000 by omega), rfl⟩
        · simp only [Write.Covers, Write.span, Span.Covers, leBytes_length]
          omega
    · rw [List.getElem?_eq_none (by simpa using hi), List.getElem?_eq_none (by simpa using hi)]
  rw [readEntry_low _ (by omega), hbytes, leNat_leBytes]
  rfl

theorem paging_untouched {write : Write} {part : Part} {p : Nat}
    (hwrite : (part, write) ∈ c.pagingActions.filterMap (resolve (bootGuestMem c.ramSize)))
    (hlo : pdptAddr + numGb c.ramSize * 8 ≤ p) (hhi : p < pdBase) : ¬ write.Covers p := by
  intro hcovers
  obtain ⟨a, ha, hresolve⟩ := List.mem_filterMap.mp hwrite
  obtain ⟨w, rfl, hoffset, hdata⟩ := resolve_eq_some.mp hresolve
  have hlow : ∀ lo, lo ≤ mmioHoleStart → pdBase ≤ lo → lo ≤ w.gpa → False := by
    intro lo hhole hbase hle
    have hle' := le_gpaToOffset hoffset hhole hle
    have hstart : write.offset ≤ p := hcovers.1
    omega
  rw [LoadConfig.pagingActions, List.mem_append, List.mem_append] at ha
  rcases ha with (ha | ha) | ha
  · obtain ⟨a, ha, heq⟩ := List.mem_map.mp ha
    obtain ⟨-, rfl⟩ := Prod.mk.inj heq
    rcases List.mem_pair.mp ha with heq | heq
    · obtain rfl := Except.ok.inj heq
      exact hlow cmdlineAddr (by decide) (by decide) (Nat.le_refl _)
    · obtain rfl := Except.ok.inj heq
      exact hlow cmdlineAddr (by decide) (by decide) (Nat.le_add_right _ _)
  · obtain ⟨w', heq, hle, -⟩ := LoadConfig.owned_inside (LoadConfig.acpi_inside _ _) _ ha
    obtain rfl := Except.ok.inj heq
    exact hlow rsdpAddr (by decide) (by decide) hle
  · obtain ⟨a, ha, heq⟩ := List.mem_map.mp ha
    obtain ⟨-, rfl⟩ := Prod.mk.inj heq
    obtain ⟨gpa, entry, hentry, heq'⟩ := mem_setupPageTables.mp ha
    obtain rfl := Except.ok.inj heq'
    obtain ⟨-, -, hend⟩ := hentry.bounds
    rw [low_gpaToOffset _ (show gpa < 0x50000 by omega)] at hoffset
    obtain ⟨offset, data⟩ := write
    obtain rfl : gpa = offset := Except.ok.inj hoffset
    obtain rfl : data = leBytes 8 entry := hdata
    simp only [Write.Covers, Write.span, Span.Covers, leBytes_length] at hcovers
    cases hentry with
    | pml4 =>
      simp only [pml4Addr, pdptAddr] at hcovers hlo
      omega
    | pdpt gb hgb => omega
    | pd gb i hgb hi =>
      simp only [pdBase] at hcovers hhi
      omega

theorem readEntry_blank (h : performAll (bootGuestMem c.ramSize) (fun _ => 0) c.pagingActions = .ok store)
    {gb : Nat} (hgb : numGb c.ramSize ≤ gb) (hlt : gb < 512) :
    readEntry (bootGuestMem c.ramSize) store (pdptAddr + gb * 8) = some 0 := by
  have hbytes : readBytes store (pdptAddr + gb * 8) 8 = leBytes 8 0 := by
    have hzero : ∀ i, pdptAddr + gb * 8 ≤ i → i < pdptAddr + gb * 8 + 8 → store i = (fun _ => 0 : ByteStore) i := by
      intro i hlo hhi
      rw [paging_store h]
      apply applyAll_value _ _ (.inl rfl)
      rintro ⟨part, write⟩ hwrite hcovers
      refine absurd hcovers (paging_untouched hwrite (by omega) ?_)
      simp only [pdptAddr, pdBase] at hhi ⊢
      omega
    rw [readBytes_congr hzero]
    rfl
  have hlow : pdptAddr + gb * 8 < 0x50000 := by
    simp only [pdptAddr]
    omega
  rw [readEntry_low _ hlow, hbytes, leNat_leBytes]
  rfl

theorem pdptEntry_eq (gb : Nat) : pdBase + gb * 0x1000 ||| 0x3 = (16 + gb) * 2 ^ 12 + 3 := by
  have hbase : pdBase + gb * 0x1000 = 2 ^ 12 * (16 + gb) := by
    simp only [pdBase]
    omega
  rw [hbase, ← Nat.two_pow_add_eq_or_of_lt (by decide), Nat.mul_comm]

theorem pdEntry_eq {i : Nat} (gb : Nat) (hi : i < 512) : pdEntry gb i = (gb * 512 + i) * 2 ^ 21 + 0x83 := by
  have hlow : i <<< 21 < 2 ^ 30 := by
    rw [Nat.shiftLeft_eq]
    omega
  have hpage : gb <<< 30 ||| i <<< 21 = 2 ^ 21 * (gb * 512 + i) := by
    rw [Nat.shiftLeft_eq gb, Nat.mul_comm gb, ← Nat.two_pow_add_eq_or_of_lt hlow, Nat.shiftLeft_eq]
    omega
  rw [pdEntry, hpage, ← Nat.two_pow_add_eq_or_of_lt (by decide), Nat.mul_comm]

theorem entryFor_of_readEntry {mem : GuestMem} {table index entry : Nat}
    (h : readEntry mem store (table + index % 512 * 8) = some entry) :
    entryFor mem store table index = if entry % 4 = 3 then some entry else none := by
  have hbits : (entry.testBit 0 && entry.testBit 1) = decide (entry % 4 = 3) := by
    rw [Nat.testBit_eq_decide_div_mod_eq, Nat.testBit_eq_decide_div_mod_eq, ← Bool.decide_and]
    apply decide_eq_decide.mpr
    omega
  rw [entryFor, h, Option.filter_some, hbits]
  simp

theorem entryFor_pml4 (h : performAll (bootGuestMem c.ramSize) (fun _ => 0) c.pagingActions = .ok store)
    {va : Nat} (hva : va < 2 ^ 39) :
    entryFor (bootGuestMem c.ramSize) store pml4Addr (va / 2 ^ 39) = some (pdptAddr ||| 0x3) := by
  have hread : readEntry (bootGuestMem c.ramSize) store (pml4Addr + 0 % 512 * 8) = _ := readEntry_written h .pml4
  rw [Nat.div_eq_of_lt hva, entryFor_of_readEntry hread]
  rfl

theorem entryFor_pdpt (h : performAll (bootGuestMem c.ramSize) (fun _ => 0) c.pagingActions = .ok store)
    {gb : Nat} (hgb : gb < 512) :
    entryFor (bootGuestMem c.ramSize) store (tableBase (pdptAddr ||| 0x3)) gb =
      if gb < numGb c.ramSize then some ((16 + gb) * 2 ^ 12 + 3) else none := by
  have hle := numGb_le c.ramSize
  have htable : tableBase (pdptAddr ||| 0x3) = pdptAddr := rfl
  rw [htable]
  split
  · rename_i hlt
    have hread := readEntry_written h (.pdpt gb hlt)
    rw [pdptEntry_eq, Nat.mod_eq_of_lt (by omega)] at hread
    rw [entryFor_of_readEntry (by rwa [Nat.mod_eq_of_lt hgb]), if_pos (by omega)]
  · rename_i hge
    have hread := readEntry_blank h (Nat.not_lt.mp hge) hgb
    rw [entryFor_of_readEntry (by rwa [Nat.mod_eq_of_lt hgb])]
    rfl

theorem entryFor_pd (h : performAll (bootGuestMem c.ramSize) (fun _ => 0) c.pagingActions = .ok store)
    {gb : Nat} (hgb : gb < numGb c.ramSize) (page : Nat) :
    entryFor (bootGuestMem c.ramSize) store (tableBase ((16 + gb) * 2 ^ 12 + 3)) page =
      some ((gb * 512 + page % 512) * 2 ^ 21 + 0x83) := by
  have hle := numGb_le c.ramSize
  have htable : tableBase ((16 + gb) * 2 ^ 12 + 3) = pdBase + gb * 0x1000 := by
    simp only [tableBase, pdBase]
    omega
  have hpage := Nat.mod_lt page (show 0 < 512 by decide)
  have hread := readEntry_written h (.pd gb (page % 512) hgb hpage)
  have hlt : (gb * 512 + page % 512) * 2 ^ 21 + 0x83 < 2 ^ 64 := by omega
  rw [pdEntry_eq _ hpage, Nat.mod_eq_of_lt hlt] at hread
  rw [htable, entryFor_of_readEntry hread, if_pos (by omega)]

theorem walk_eq (h : performAll (bootGuestMem c.ramSize) (fun _ => 0) c.pagingActions = .ok store)
    {va : Nat} (hva : va < 2 ^ 39) :
    walk (bootGuestMem c.ramSize) store va = if va / 2 ^ 30 < numGb c.ramSize then some va else none := by
  have hle := numGb_le c.ramSize
  have hcanonical : Canonical va := .inl (by omega)
  rw [walk, if_pos hcanonical, entryFor_pml4 h hva, Option.bind_some, entryFor_pdpt h (by omega)]
  by_cases hgb : va / 2 ^ 30 < numGb c.ramSize
  · have htable : ((16 + va / 2 ^ 30) * 2 ^ 12 + 3).testBit 7 = false := by
      rw [Nat.testBit_eq_decide_div_mod_eq]
      simp
      omega
    have hlarge : ((va / 2 ^ 30 * 512 + va / 2 ^ 21 % 512) * 2 ^ 21 + 0x83).testBit 7 = true := by
      rw [Nat.testBit_eq_decide_div_mod_eq]
      simp
      omega
    have hframe : frameBase ((va / 2 ^ 30 * 512 + va / 2 ^ 21 % 512) * 2 ^ 21 + 0x83) + va % 2 ^ 21 = va := by
      rw [frameBase]
      omega
    rw [if_pos hgb, if_pos hgb, Option.bind_some, htable, entryFor_pd h hgb, Option.bind_some, hlarge, hframe]
    rfl
  · rw [if_neg hgb, if_neg hgb]
    rfl

end Tables

theorem reportedRam_iff {ramSize gpa : Nat} : ReportedRam ramSize gpa ↔
    gpa < 2 ^ 64 ∧ (gpa < 0x9FC00 ∨ ∃ entry ∈ e820Ram ramSize, entry.type = .ram ∧ entry.addr ≤ gpa ∧
      gpa < entry.addr + entry.size) := by
  simp [ReportedRam, e820, or_and_right, exists_or]

theorem numGb_of_le {ramSize : Nat} (h : ramSize ≤ 64 <<< 30) (hpos : 0 < ramSize) :
    numGb ramSize = (ramSize + 2 ^ 30 - 1) / 2 ^ 30 := by
  simp only [numGb, Nat.shiftRight_eq_div_pow, Nat.shiftLeft_eq] at h ⊢
  omega

theorem reported_of_small {ramSize gpa : Nat} (hlo : 0x120000 ≤ ramSize) (hhi : ramSize ≤ mmioHoleStart)
    (h : ReportedRam ramSize gpa) : gpa < ramSize := by
  obtain ⟨-, hlow | ⟨entry, hentry, htype, hstart, hend⟩⟩ := reportedRam_iff.mp h
  · omega
  · simp only [e820Ram, if_pos hhi, List.mem_pair] at hentry
    simp only [mmioHoleStart] at hhi
    rcases hentry with rfl | rfl
    · simp only [u64Sub, reservedTop] at hend
      omega
    · cases htype

theorem reported_of_tiny {ramSize : Nat} (h : ramSize < 0x120000) : ReportedRam ramSize (2 ^ 30) := by
  have hle : ramSize ≤ mmioHoleStart := h.le.trans (by decide)
  refine reportedRam_iff.mpr ⟨by decide, .inr ⟨⟨0x100000, u64Sub (u64Sub ramSize reservedTop) 0x100000, .ram⟩, ?_, rfl, ?_⟩⟩
  · rw [e820Ram, if_pos hle]
    exact List.mem_cons_self
  · simp only [u64Sub, reservedTop]
    omega

theorem reported_above_hole {ramSize gpa : Nat} (h : mmioHoleStart < ramSize) (hlo : mmioHoleEnd ≤ gpa)
    (hhi : gpa < ramSize + 2 ^ 30) (hgpa : gpa < 2 ^ 64) : ReportedRam ramSize gpa := by
  refine reportedRam_iff.mpr ⟨hgpa, .inr ⟨⟨mmioHoleEnd, ramSize - mmioHoleStart, .ram⟩, ?_, rfl, hlo, ?_⟩⟩
  · rw [e820Ram, if_neg (Nat.not_le.mpr h)]
    exact List.mem_cons_of_mem _ List.mem_cons_self
  · simp only [mmioHoleStart, mmioHoleEnd] at h ⊢
    omega

/-- Every reported address is mapped to itself, where the memory ends below the hole. -/
theorem identityMapped_iff (c : LoadConfig) (hram : c.ramSize ≤ 64 <<< 30) (store : ByteStore)
    (h : performAll (bootGuestMem c.ramSize) (fun _ => 0) c.pagingActions = .ok store) :
    (∀ gpa, ReportedRam c.ramSize gpa → walk (bootGuestMem c.ramSize) store gpa = some gpa) ↔
      0x120000 ≤ c.ramSize ∧ c.ramSize ≤ mmioHoleStart := by
  have hmapped : ∀ gpa, gpa < 2 ^ 39 → walk (bootGuestMem c.ramSize) store gpa = some gpa →
      gpa / 2 ^ 30 < numGb c.ramSize := by
    intro gpa hgpa hwalk
    rw [walk_eq h hgpa] at hwalk
    by_contra hge
    rw [if_neg hge] at hwalk
    cases hwalk
  constructor
  · intro hall
    constructor
    · by_contra hlt
      have hgb := hmapped (2 ^ 30) (by decide) (hall _ (reported_of_tiny (Nat.not_le.mp hlt)))
      have hone : numGb c.ramSize ≤ 1 := (LoadConfig.numGb_le_iff (by decide) (by decide)).mpr (by
        rw [Nat.shiftLeft_eq]
        omega)
      omega
    · -- the gigabyte after the last one that is mapped begins above the hole and still holds RAM
      by_contra hgt
      rw [Nat.not_le] at hgt
      have hnum := numGb_of_le hram (by omega)
      simp only [mmioHoleStart, Nat.shiftLeft_eq] at hgt hram
      have hreported : ReportedRam c.ramSize (numGb c.ramSize * 2 ^ 30) := by
        apply reported_above_hole hgt
        · simp only [mmioHoleEnd]
          omega
        · omega
        · omega
      have hgb := hmapped _ (by omega) (hall _ hreported)
      omega
  · rintro ⟨hlo, hhi⟩ gpa hgpa
    have hlt := reported_of_small hlo hhi hgpa
    have hnum := numGb_of_le hram (by omega)
    simp only [mmioHoleStart] at hhi
    rw [walk_eq h (by omega), if_pos (by omega)]

namespace LoadConfig.Ordinary

theorem paging {c : LoadConfig} (h : c.Ordinary) :
    ∃ store, performAll (bootGuestMem c.ramSize) (fun _ => 0) c.pagingActions = .ok store := by
  refine ⟨_, performAll_of_lands ?_ _⟩
  intro a ha
  have hmem : a ∈ c.actions (bootGuestMem c.ramSize) := by
    rw [actions_eq_pagingActions]
    exact List.mem_append_left _ ha
  exact lands_of_inside (h.inside a hmem) (by decide)

end LoadConfig.Ordinary

theorem identityMapped_half_gb :
    ∃ store, performAll (bootGuestMem 0x20000000) (fun _ => 0) (tinyLoad 0x20000000).pagingActions = .ok store ∧
      ∀ gpa, ReportedRam 0x20000000 gpa → walk (bootGuestMem 0x20000000) store gpa = some gpa := by
  obtain ⟨store, h⟩ := (tinyLoad_ordinary 0x20000000).paging
  refine ⟨store, h, (identityMapped_iff (tinyLoad 0x20000000) ?_ store h).mpr ?_⟩
  · change 0x20000000 ≤ 64 <<< 30
    decide
  · change 0x120000 ≤ 0x20000000 ∧ 0x20000000 ≤ mmioHoleStart
    decide

theorem identityMapped_fails :
    ∃ store, performAll (bootGuestMem (4 <<< 30)) (fun _ => 0) (tinyLoad (4 <<< 30)).pagingActions = .ok store ∧
      ReportedRam (4 <<< 30) (4 <<< 30) ∧ walk (bootGuestMem (4 <<< 30)) store (4 <<< 30) = none := by
  obtain ⟨store, h⟩ := (tinyLoad_ordinary (4 <<< 30)).paging
  refine ⟨store, h, reported_above_hole (by decide) (by decide) (by decide) (by decide), ?_⟩
  have hwalk := walk_eq h (show 4 <<< 30 < 2 ^ 39 by decide)
  exact hwalk.trans (if_neg (show ¬ 4 <<< 30 / 2 ^ 30 < numGb (4 <<< 30) by decide))

end CloneVmm.Boot
