import CloneVmm.Boot.KernelLayout

/-!
The tables of `boot/acpi.rs` as the guest finds them: from the RSDP to the XSDT, to each table that it
lists, and from entry to entry through the MADT.
-/

namespace CloneVmm.Boot.Acpi

open CloneVmm.Lib CloneVmm.Vmm

def checksum (bytes : List UInt8) : UInt8 := bytes.foldl (· + ·) 0

structure IsRsdp (bytes : List UInt8) : Prop where
  signature : bytes.take 8 = ascii "RSD PTR "
  length : leNat (slice bytes 20 4) = bytes.length
  checksum : checksum (bytes.take 20) = 0
  extended : Acpi.checksum bytes = 0

def tableAt (m : ByteStore) (addr : Nat) : List UInt8 := readBytes m addr (leNat (readBytes m (addr + 4) 4))

structure IsTable (signature : String) (length : Nat) (bytes : List UInt8) : Prop where
  signature : bytes.take 4 = ascii signature
  length : bytes.length = length
  checksum : checksum bytes = 0

def rsdp (m : ByteStore) : List UInt8 := readBytes m rsdpAddr 36

def xsdtPointer (m : ByteStore) : Nat := leNat (slice (rsdp m) 24 8)

def pointers (bytes : List UInt8) : List Nat :=
  if bytes.length < 8 then [] else leNat (bytes.take 8) :: pointers (bytes.drop 8)
termination_by bytes.length
decreasing_by
  rw [List.length_drop]
  omega

def listed (m : ByteStore) : List Nat := pointers ((tableAt m (xsdtPointer m)).drop 36)

def spans (m : ByteStore) : List Span :=
  ⟨rsdpAddr, (rsdp m).length⟩ :: (xsdtPointer m :: listed m).map fun addr => ⟨addr, (tableAt m addr).length⟩

def madtEntries (bytes : List UInt8) : Option (List (List UInt8)) :=
  match bytes with
  | [] => some []
  | [_] => none
  | type :: len :: rest =>
    if 2 ≤ len.toNat ∧ len.toNat ≤ rest.length + 2 then
      (madtEntries ((type :: len :: rest).drop len.toNat)).map ((type :: len :: rest).take len.toNat :: ·)
    else none
termination_by bytes.length
decreasing_by
  simp only [List.length_drop, List.length_cons]
  omega

def localApics (entries : List (List UInt8)) : List (Nat × Bool) :=
  (entries.filter fun e => e.headD 255 == 0).map fun e => ((e.getD 3 0).toNat, (e.getD 4 0).toNat.testBit 0)

def expected (numCpus : Nat) (pciEnabled : Bool) : List (String × Nat) :=
  ("APIC", madtLen numCpus) :: if pciEnabled then [("MCFG", 60)] else []

structure Describes (m : ByteStore) (numCpus : Nat) (pciEnabled : Bool) : Prop where
  rsdp : IsRsdp (rsdp m)
  xsdt : IsTable "XSDT" (36 + (listed m).length * 8) (tableAt m (xsdtPointer m))
  tables : List.Forall₂ (fun addr e => IsTable e.1 e.2 (tableAt m addr)) (listed m) (expected numCpus pciEnabled)
  apart : (spans m).Pairwise Span.Apart
  processors : ∃ entries, madtEntries ((tableAt m ((listed m).headD 0)).drop 44) = some entries ∧
    localApics entries = (List.range numCpus).map fun id => (id, true)

def tablesEnd (numCpus : Nat) (pciEnabled : Bool) : Nat :=
  if pciEnabled then xsdtAddr + 56 + madtLen numCpus + 8 + 60 else xsdtAddr + 52 + madtLen numCpus

theorem foldl_add (bytes : List UInt8) (a : UInt8) : bytes.foldl (· + ·) a = a + checksum bytes := by
  induction bytes generalizing a with
  | nil => exact (UInt8.add_zero a).symm
  | cons b bytes ih =>
    rw [checksum, List.foldl_cons, List.foldl_cons, ih, ih (0 + b), UInt8.zero_add, UInt8.add_assoc]

theorem checksum_append (xs ys : List UInt8) : checksum (xs ++ ys) = checksum xs + checksum ys := by
  rw [checksum, List.foldl_append, foldl_add]
  rfl

theorem checksum_cons (b : UInt8) (bytes : List UInt8) : checksum (b :: bytes) = b + checksum bytes := by
  rw [checksum, List.foldl_cons, foldl_add, UInt8.zero_add]

theorem summed_eq {front : List UInt8} (hfront : front.length = 9) (back : List UInt8) :
    summed (front ++ 0 :: back) = front ++ (0 - checksum (front ++ 0 :: back)) :: back := by
  have hset : ∀ v, (front ++ 0 :: back).set 9 v = front ++ v :: back := by
    intro v
    rw [List.set_append_right _ _ (by omega), hfront]
    rfl
  exact hset _

theorem checksum_summed {front : List UInt8} (hfront : front.length = 9) (back : List UInt8) :
    checksum (summed (front ++ 0 :: back)) = 0 := by
  rw [summed_eq hfront, checksum_append, checksum_append, checksum_cons, checksum_cons]
  grind

theorem summed_table {signature : String} (hsignature : (ascii signature).length = 4) (totalLen : Nat)
    (revision : UInt8) (body : List UInt8) :
    (summed (tableHeader signature totalLen revision ++ body)).take 4 = ascii signature ∧
      slice (summed (tableHeader signature totalLen revision ++ body)) 4 4 = leBytes 4 totalLen ∧
      (summed (tableHeader signature totalLen revision ++ body)).drop 36 = body ∧
      checksum (summed (tableHeader signature totalLen revision ++ body)) = 0 := by
  have hfront : (ascii signature ++ leBytes 4 totalLen ++ [revision]).length = 9 := by
    simp only [List.length_append, hsignature, leBytes_length, List.length_singleton]
  have htable : tableHeader signature totalLen revision ++ body = (ascii signature ++ leBytes 4 totalLen ++ [revision])
      ++ 0 :: (ascii "CLONE " ++ ascii "CLONE   " ++ leBytes 4 1 ++ ascii "NVM " ++ leBytes 4 1 ++ body) := by
    simp only [tableHeader, List.append_assoc, List.cons_append, List.nil_append]
  have hback : (ascii "CLONE " ++ ascii "CLONE   " ++ leBytes 4 1 ++ ascii "NVM " ++ leBytes 4 1).length = 26 := by
    decide
  rw [htable]
  refine ⟨?_, ?_, ?_, checksum_summed hfront _⟩
  · rw [summed_eq hfront, List.append_assoc, List.append_assoc, List.take_left' hsignature]
  · rw [summed_eq hfront, slice, List.append_assoc, List.append_assoc, List.drop_left' hsignature,
      List.take_left' (leBytes_length 4 totalLen)]
  · have hdrop : ∀ c : UInt8, ((ascii signature ++ leBytes 4 totalLen ++ [revision]) ++ c :: (ascii "CLONE "
        ++ ascii "CLONE   " ++ leBytes 4 1 ++ ascii "NVM " ++ leBytes 4 1 ++ body)).drop 36 = body := by
      intro c
      have h36 : (36 : Nat) = 9 + (1 + 26) := rfl
      rw [h36, ← List.drop_drop, List.drop_left' hfront, ← List.drop_drop, List.drop_succ_cons, List.drop_zero,
        List.drop_left' hback]
    rw [summed_eq hfront, hdrop]

theorem tableAt_eq {m : ByteStore} {addr : Nat} {table : List UInt8} (hread : readBytes m addr table.length = table)
    (hlen : slice table 4 4 = leBytes 4 table.length) (hsize : table.length < 256 ^ 4) (hlong : 8 ≤ table.length) :
    tableAt m addr = table := by
  have hfield : readBytes m (addr + 4) 4 = slice table 4 4 := by
    obtain ⟨rest, hrest⟩ := Nat.exists_eq_add_of_le hlong
    have hsplit := readBytes_append m addr 4 (4 + rest)
    rw [← Nat.add_assoc, ← hrest, hread, readBytes_append] at hsplit
    rw [slice, hsplit, List.drop_left' (readBytes_length _ _ _), List.take_left' (readBytes_length _ _ _)]
  rw [tableAt, hfield, hlen, leNat_leBytes, Nat.mod_eq_of_lt hsize, hread]

theorem perform_low (ramSize : Nat) (store : ByteStore) {w : GuestWrite} (h : w.gpa + w.data.length ≤ 0x100000) :
    perform (bootGuestMem ramSize) store (.ok w) = .ok (writeBytes store w.gpa w.data) := by
  have hinside : Inside 0 0x100000 (.ok w) := ⟨w, rfl, Nat.zero_le _, h⟩
  have hlands : Lands (bootGuestMem ramSize) ((.acpi, .ok w) : Part × Action).2 := lands_of_inside hinside (by decide)
  obtain ⟨write, hresolve, hperform⟩ := perform_of_lands hlands store
  obtain ⟨w', heq, hoffset, hdata⟩ := resolve_eq_some.mp hresolve
  have hw' : w' = w := (Except.ok.inj (congrArg Prod.snd heq)).symm
  have hhole : 0x100000 < mmioHoleStart := by decide
  rw [hw'] at hoffset hdata
  have haddr := (gpaToOffset_eq_allocOffset hoffset).trans (allocOffset_low ramSize (by omega))
  rw [hperform, Write.apply, haddr, hdata]

theorem performAll_ascending (ramSize : Nat) (ws : List GuestWrite)
    (hpair : ws.Pairwise fun w w' => w.gpa + w.data.length ≤ w'.gpa)
    (hlow : ∀ w ∈ ws, w.gpa + w.data.length ≤ 0x100000) (store : ByteStore) :
    ∃ m, performAll (bootGuestMem ramSize) store (owned .acpi (ws.map .ok)) = .ok m ∧
      (∀ w ∈ ws, readBytes m w.gpa w.data.length = w.data) ∧ ∀ p, (∀ w ∈ ws, p < w.gpa) → m p = store p := by
  induction ws generalizing store with
  | nil => exact ⟨store, rfl, fun w hw => absurd hw List.not_mem_nil, fun p _ => rfl⟩
  | cons w ws ih =>
    obtain ⟨hafter, hpair⟩ := List.pairwise_cons.mp hpair
    obtain ⟨hw, hlow⟩ := List.forall_mem_cons.mp hlow
    obtain ⟨m, hload, hreads, hbelow⟩ := ih hpair hlow (writeBytes store w.gpa w.data)
    refine ⟨m, ?_, List.forall_mem_cons.mpr ⟨?_, hreads⟩, ?_⟩
    · rw [← hload]
      simp only [performAll, owned, List.map_cons, List.foldlM_cons, perform_low ramSize store hw]
      rfl
    · rw [readBytes_congr fun i _ hi => hbelow i fun w' hw' => ?_, readBytes_writeBytes]
      have hnext := hafter w' hw'
      omega
    · intro p hp
      obtain ⟨hpw, hp⟩ := List.forall_mem_cons.mp hp
      rw [hbelow p hp, writeBytes_below _ hpw]

theorem pointers_flatMap (addrs : List Nat) (h : ∀ addr ∈ addrs, addr < 256 ^ 8) :
    pointers (addrs.flatMap (leBytes 8)) = addrs := by
  induction addrs with
  | nil =>
    rw [pointers]
    rfl
  | cons addr addrs ih =>
    obtain ⟨haddr, haddrs⟩ := List.forall_mem_cons.mp h
    rw [List.flatMap_cons, pointers, if_neg (by simp), List.take_left' (leBytes_length 8 addr),
      List.drop_left' (leBytes_length 8 addr), ih haddrs, leNat_leBytes, Nat.mod_eq_of_lt haddr]

def Measured (entry : List UInt8) : Prop := ∃ type len rest, entry = type :: len :: rest ∧ len.toNat = entry.length

theorem madtEntries_flatten (entries : List (List UInt8)) (h : ∀ e ∈ entries, Measured e) :
    madtEntries entries.flatten = some entries := by
  induction entries with
  | nil =>
    rw [List.flatten_nil, madtEntries]
  | cons entry entries ih =>
    obtain ⟨⟨type, len, rest, hentry, hlen⟩, hentries⟩ := List.forall_mem_cons.mp h
    have hbytes : entry ++ entries.flatten = type :: len :: (rest ++ entries.flatten) := by
      rw [hentry]
      rfl
    have hsize : len.toNat = rest.length + 2 := by
      rw [hlen, hentry]
      rfl
    rw [List.flatten_cons, hbytes, madtEntries, ← hbytes, if_pos ⟨by omega, by rw [List.length_append]; omega⟩, hlen,
      List.drop_left, List.take_left, ih hentries, Option.map_some]

def fixedEntries : List (List UInt8) :=
  [ioapicEntry, writeIso 0 0 2 0, writeIso 0 5 5 0x000d, writeIso 0 9 9 0x000d, writeIso 0 10 10 0x000d,
    writeIso 0 11 11 0x000d, lapicNmiEntry]

def entriesOf (numCpus : Nat) : List (List UInt8) := (List.range numCpus).map lapicEntry ++ fixedEntries

theorem entriesOf_measured (numCpus : Nat) : ∀ e ∈ entriesOf numCpus, Measured e := by
  intro e he
  rcases List.mem_append.mp he with he | he
  · obtain ⟨i, -, rfl⟩ := List.mem_map.mp he
    exact ⟨_, _, _, rfl, rfl⟩
  · simp only [fixedEntries, List.mem_cons, List.not_mem_nil, or_false] at he
    rcases he with rfl | rfl | rfl | rfl | rfl | rfl | rfl <;> exact ⟨_, _, _, rfl, rfl⟩

theorem localApics_entriesOf (numCpus : Nat) :
    localApics (entriesOf numCpus) = (List.range numCpus).map fun id => (id % 256, true) := by
  have hfixed : fixedEntries.filter (fun e => e.headD 255 == 0) = [] := by decide
  have hall : ((List.range numCpus).map lapicEntry).filter (fun e => e.headD 255 == 0) =
      (List.range numCpus).map lapicEntry := by
    rw [List.filter_eq_self]
    intro e he
    obtain ⟨i, -, rfl⟩ := List.mem_map.mp he
    rfl
  rw [localApics, entriesOf, List.filter_append, hfixed, hall, List.append_nil, List.map_map]
  apply List.map_congr_left
  intro i _
  have hflags : (lapicEntry i).getD 4 0 = 1 := rfl
  refine Prod.ext UInt8.toNat_ofNat' ?_
  change ((lapicEntry i).getD 4 0).toNat.testBit 0 = true
  rw [hflags]
  rfl

theorem range_ids_iff (numCpus : Nat) :
    ((List.range numCpus).map fun id => (id % 256, true)) = ((List.range numCpus).map fun id => (id, true)) ↔
      numCpus ≤ 256 := by
  rw [List.map_inj_left]
  constructor
  · intro h
    by_contra hlarge
    have hid := congrArg Prod.fst (h 256 (List.mem_range.mpr (by omega)))
    exact absurd hid (by decide)
  · intro h id hid
    rw [List.mem_range] at hid
    rw [Nat.mod_eq_of_lt (by omega)]

theorem buildMadt_table (numCpus : Nat) :
    (buildMadt numCpus).take 4 = ascii "APIC" ∧ slice (buildMadt numCpus) 4 4 = leBytes 4 (madtLen numCpus) ∧
      (buildMadt numCpus).drop 44 = (entriesOf numCpus).flatten ∧ checksum (buildMadt numCpus) = 0 := by
  have hbody : buildMadt numCpus = summed (tableHeader "APIC" (madtLen numCpus) 4
      ++ (leBytes 4 lapicDefaultAddr ++ leBytes 4 1 ++ (entriesOf numCpus).flatten)) := by
    simp only [buildMadt, entriesOf, fixedEntries, isoEntries, List.flatten_append, List.flatMap_def, List.flatten_cons,
      List.flatten_nil, List.append_nil, List.append_assoc]
  obtain ⟨hsignature, hlen, hdrop, hsum⟩ := summed_table (show (ascii "APIC").length = 4 by decide) (madtLen numCpus) 4
    (leBytes 4 lapicDefaultAddr ++ leBytes 4 1 ++ (entriesOf numCpus).flatten)
  rw [hbody]
  refine ⟨hsignature, hlen, ?_, hsum⟩
  have h44 : (44 : Nat) = 36 + 8 := rfl
  rw [h44, ← List.drop_drop, hdrop, List.drop_left' (by simp)]

theorem buildXsdt_table (addrs : List Nat) :
    (buildXsdt addrs).take 4 = ascii "XSDT" ∧ slice (buildXsdt addrs) 4 4 = leBytes 4 (36 + addrs.length * 8) ∧
      (buildXsdt addrs).drop 36 = addrs.flatMap (leBytes 8) ∧ checksum (buildXsdt addrs) = 0 :=
  summed_table (by decide) _ _ _

theorem buildMcfg_table :
    buildMcfg.take 4 = ascii "MCFG" ∧ slice buildMcfg 4 4 = leBytes 4 60 ∧ checksum buildMcfg = 0 := by
  decide +kernel

theorem buildRsdp_isRsdp : IsRsdp (buildRsdp xsdtAddr) :=
  ⟨by decide, by decide, by decide, by decide⟩

theorem buildRsdp_pointer : leNat (slice (buildRsdp xsdtAddr) 24 8) = xsdtAddr := by decide

def madtAt (pciEnabled : Bool) : Nat := if pciEnabled then xsdtAddr + 56 else xsdtAddr + 52

def tableAddrs (numCpus : Nat) (pciEnabled : Bool) : List Nat :=
  madtAt pciEnabled :: if pciEnabled then [madtAt pciEnabled + madtLen numCpus + 8] else []

structure Written (m : ByteStore) (numCpus : Nat) (pciEnabled : Bool) : Prop where
  rsdp : readBytes m rsdpAddr 36 = buildRsdp xsdtAddr
  xsdt : readBytes m xsdtAddr (36 + (tableAddrs numCpus pciEnabled).length * 8) =
    buildXsdt (tableAddrs numCpus pciEnabled)
  madt : readBytes m (madtAt pciEnabled) (madtLen numCpus) = buildMadt numCpus
  mcfg : pciEnabled = true → readBytes m (madtAt pciEnabled + madtLen numCpus + 8) 60 = buildMcfg

theorem setup_written (ramSize numCpus : Nat) (pciEnabled : Bool) (store : ByteStore)
    (hfit : tablesEnd numCpus pciEnabled ≤ 0x100000) :
    ∃ m, performAll (bootGuestMem ramSize) store (owned .acpi (setupAcpiTablesWithPci numCpus pciEnabled)) = .ok m ∧
      Written m numCpus pciEnabled := by
  have hxsdt : xsdtAddr = rsdpAddr + 36 := rfl
  have hrsdp : rsdpAddr = 0xE0000 := rfl
  cases pciEnabled with
  | true =>
    have hend : xsdtAddr + 56 + madtLen numCpus + 8 + 60 ≤ 0x100000 := hfit
    obtain ⟨m, hload, hreads, -⟩ := performAll_ascending ramSize
      [⟨rsdpAddr, buildRsdp xsdtAddr⟩, ⟨xsdtAddr, buildXsdt (tableAddrs numCpus true)⟩,
        ⟨madtAt true, buildMadt numCpus⟩, ⟨madtAt true + madtLen numCpus + 8, buildMcfg⟩]
      (by simp [tableAddrs, madtAt]; omega) (by simp [tableAddrs, madtAt]; omega) store
    simp only [List.forall_mem_cons, buildRsdp_length, buildXsdt_length, buildMadt_length, buildMcfg_length] at hreads
    refine ⟨m, ?_, hreads.1, hreads.2.1, hreads.2.2.1, fun _ => hreads.2.2.2.1⟩
    rw [← hload]
    simp only [setupAcpiTablesWithPci, if_true, tableAddrs, madtAt, buildMadt_length]
    rfl
  | false =>
    have hend : xsdtAddr + 52 + madtLen numCpus ≤ 0x100000 := hfit
    obtain ⟨m, hload, hreads, -⟩ := performAll_ascending ramSize
      [⟨rsdpAddr, buildRsdp xsdtAddr⟩, ⟨xsdtAddr, buildXsdt (tableAddrs numCpus false)⟩,
        ⟨madtAt false, buildMadt numCpus⟩]
      (by simp [tableAddrs, madtAt]; omega) (by simp [tableAddrs, madtAt]; omega) store
    simp only [List.forall_mem_cons, buildRsdp_length, buildXsdt_length, buildMadt_length] at hreads
    refine ⟨m, ?_, hreads.1, hreads.2.1, hreads.2.2.1, fun h => absurd h Bool.false_ne_true⟩
    rw [← hload]
    rfl

theorem madtLen_lt {numCpus : Nat} {pciEnabled : Bool} (hfit : tablesEnd numCpus pciEnabled ≤ 0x100000) :
    madtLen numCpus < 256 ^ 4 := by
  unfold tablesEnd at hfit
  split at hfit <;> omega

section Found

variable {m : ByteStore} {numCpus : Nat} {pciEnabled : Bool} (h : Written m numCpus pciEnabled)
  (hfit : tablesEnd numCpus pciEnabled ≤ 0x100000)
include h

theorem Written.pointer : xsdtPointer m = xsdtAddr := by
  rw [xsdtPointer, Acpi.rsdp, h.rsdp, buildRsdp_pointer]

theorem Written.xsdtAt : tableAt m (xsdtPointer m) = buildXsdt (tableAddrs numCpus pciEnabled) := by
  have hcount : (tableAddrs numCpus pciEnabled).length ≤ 2 := by
    cases pciEnabled <;> exact Nat.le_of_ble_eq_true rfl
  rw [h.pointer]
  apply tableAt_eq
  · rw [buildXsdt_length]
    exact h.xsdt
  · rw [buildXsdt_length]
    exact (buildXsdt_table _).2.1
  · rw [buildXsdt_length]
    omega
  · rw [buildXsdt_length]
    omega

include hfit

theorem Written.madtFound : tableAt m (madtAt pciEnabled) = buildMadt numCpus := by
  have hlen := madtLen_lt hfit
  apply tableAt_eq
  · rw [buildMadt_length]
    exact h.madt
  · rw [buildMadt_length]
    exact (buildMadt_table numCpus).2.1
  · rwa [buildMadt_length]
  · rw [buildMadt_length, madtLen]
    omega

theorem Written.listed : listed m = tableAddrs numCpus pciEnabled := by
  rw [Acpi.listed, h.xsdtAt, (buildXsdt_table _).2.2.1]
  apply pointers_flatMap
  have hxsdt : xsdtAddr = 0xE0024 := rfl
  unfold tablesEnd at hfit
  cases pciEnabled with
  | true =>
    simp only [if_true] at hfit
    simp [tableAddrs, madtAt]
    omega
  | false => simp [tableAddrs, madtAt, hxsdt]

omit hfit in
theorem Written.mcfgFound (hpci : pciEnabled = true) :
    tableAt m (madtAt pciEnabled + madtLen numCpus + 8) = buildMcfg := by
  apply tableAt_eq
  · rw [buildMcfg_length]
    exact h.mcfg hpci
  · rw [buildMcfg_length]
    exact buildMcfg_table.2.1
  · rw [buildMcfg_length]
    decide
  · rw [buildMcfg_length]
    decide

theorem Written.tables :
    List.Forall₂ (fun addr e => IsTable e.1 e.2 (tableAt m addr)) (Acpi.listed m) (expected numCpus pciEnabled) := by
  have hmadt : IsTable "APIC" (madtLen numCpus) (tableAt m (madtAt pciEnabled)) := by
    rw [h.madtFound hfit]
    exact ⟨(buildMadt_table numCpus).1, buildMadt_length numCpus, (buildMadt_table numCpus).2.2.2⟩
  rw [h.listed hfit]
  cases hpci : pciEnabled with
  | true =>
    have hmcfg : IsTable "MCFG" 60 (tableAt m (madtAt true + madtLen numCpus + 8)) := by
      subst hpci
      rw [h.mcfgFound rfl]
      exact ⟨buildMcfg_table.1, buildMcfg_length, buildMcfg_table.2.2⟩
    subst hpci
    exact .cons hmadt (.cons hmcfg .nil)
  | false =>
    subst hpci
    exact .cons hmadt .nil

theorem Written.apart : (spans m).Pairwise Span.Apart := by
  have hxsdt : xsdtAddr = rsdpAddr + 36 := rfl
  have hlen : (tableAt m (madtAt pciEnabled)).length = madtLen numCpus := by rw [h.madtFound hfit, buildMadt_length]
  have hhead : (Acpi.rsdp m).length = 36 := readBytes_length _ _ _
  have hlong : (tableAt m xsdtAddr).length = 36 + (tableAddrs numCpus pciEnabled).length * 8 := by
    rw [← h.pointer, h.xsdtAt, buildXsdt_length]
  simp only [spans, List.map_cons, h.pointer, h.listed hfit, hhead, hlong, tableAddrs, hlen]
  cases hpci : pciEnabled with
  | true =>
    have hmcfg := h.mcfgFound hpci
    rw [hpci] at hmcfg
    simp only [if_true, List.map_cons, List.map_nil, hmcfg, buildMcfg_length, List.length_cons, List.length_nil]
    refine .cons ?_ (.cons ?_ (.cons ?_ (.cons ?_ .nil)))
    all_goals
      simp only [List.forall_mem_cons, List.not_mem_nil, false_imp_iff, implies_true, and_true]
    · exact ⟨Span.apart_of_le (by rw [hxsdt]), Span.apart_of_le (by simp [madtAt, hxsdt]),
        Span.apart_of_le (by simp [madtAt, hxsdt]; omega)⟩
    · exact ⟨Span.apart_of_le (by simp [madtAt]), Span.apart_of_le (by simp [madtAt]; omega)⟩
    · exact Span.apart_of_le (by simp)
  | false =>
    simp only [Bool.false_eq_true, if_false, List.map_nil, List.length_cons, List.length_nil]
    refine .cons ?_ (.cons ?_ (.cons ?_ .nil))
    all_goals
      simp only [List.forall_mem_cons, List.not_mem_nil, false_imp_iff, implies_true, and_true]
    · exact ⟨Span.apart_of_le (by rw [hxsdt]), Span.apart_of_le (by simp [madtAt, hxsdt])⟩
    · exact Span.apart_of_le (by simp [madtAt])

theorem Written.processors (entries : List (List UInt8))
    (hentries : madtEntries ((tableAt m ((Acpi.listed m).headD 0)).drop 44) = some entries) :
    localApics entries = (List.range numCpus).map fun id => (id % 256, true) := by
  have hhead : (tableAddrs numCpus pciEnabled).headD 0 = madtAt pciEnabled := rfl
  rw [h.listed hfit, hhead, h.madtFound hfit, (buildMadt_table numCpus).2.2.1,
    madtEntries_flatten _ (entriesOf_measured numCpus), Option.some.injEq] at hentries
  rw [← hentries, localApics_entriesOf]

theorem Written.describes_iff : Describes m numCpus pciEnabled ↔ numCpus ≤ 256 := by
  rw [← range_ids_iff]
  constructor
  · intro hd
    obtain ⟨entries, hentries, hapics⟩ := hd.processors
    rw [← hapics, h.processors hfit entries hentries]
  · intro hids
    refine ⟨?_, ?_, h.tables hfit, h.apart hfit, entriesOf numCpus, ?_, ?_⟩
    · rw [Acpi.rsdp, h.rsdp]
      exact buildRsdp_isRsdp
    · rw [h.xsdtAt, h.listed hfit]
      exact ⟨(buildXsdt_table _).1, buildXsdt_length _, (buildXsdt_table _).2.2.2⟩
    · have hhead : (tableAddrs numCpus pciEnabled).headD 0 = madtAt pciEnabled := rfl
      rw [h.listed hfit, hhead, h.madtFound hfit, (buildMadt_table numCpus).2.2.1]
      exact madtEntries_flatten _ (entriesOf_measured numCpus)
    · rw [localApics_entriesOf, hids]

end Found

/-- While the tables fit below 1 MB, the guest finds its machine described if and only if it has at most 256
vCPUs. -/
theorem acpi_describes_iff (ramSize numCpus : Nat) (pciEnabled : Bool) (store : ByteStore)
    (hfit : tablesEnd numCpus pciEnabled ≤ 0x100000) :
    ∃ m, performAll (bootGuestMem ramSize) store (owned .acpi (setupAcpiTablesWithPci numCpus pciEnabled)) = .ok m ∧
      (Describes m numCpus pciEnabled ↔ numCpus ≤ 256) := by
  obtain ⟨m, hload, hwritten⟩ := setup_written ramSize numCpus pciEnabled store hfit
  exact ⟨m, hload, hwritten.describes_iff hfit⟩

theorem acpi_describes_four :
    ∃ m, performAll (bootGuestMem (512 <<< 20)) (fun _ => 0) (owned .acpi (setupAcpiTablesWithPci 4 true)) = .ok m ∧
      Describes m 4 true := by
  obtain ⟨m, hload, hiff⟩ := acpi_describes_iff (512 <<< 20) 4 true (fun _ => 0) (by decide)
  exact ⟨m, hload, hiff.mpr (by decide)⟩

theorem acpi_describes_fails :
    ¬ ∃ m, performAll (bootGuestMem (512 <<< 20)) (fun _ => 0)
        (owned .acpi (setupAcpiTablesWithPci 257 false)) = .ok m ∧
      Describes m 257 false := by
  rintro ⟨m, hload, hd⟩
  have hfit : tablesEnd 257 false ≤ 0x100000 := by decide
  obtain ⟨m', hload', hwritten⟩ := setup_written (512 <<< 20) 257 false (fun _ => 0) hfit
  obtain rfl : m = m' := Except.ok.inj (hload.symm.trans hload')
  exact absurd ((hwritten.describes_iff hfit).mp hd) (by decide)

end CloneVmm.Boot.Acpi
