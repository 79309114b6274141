import CloneVmm.Boot.IdentityAddress
import CloneVmm.Boot.KernelLayout

/-!
`boot/mod.rs`: the e820 map that `load_bzimage` gives to the guest, and the place and the fields of the initrd
when a cold boot has loaded one.
-/

namespace CloneVmm.Boot.Initrd

open CloneVmm.Lib CloneVmm.Vmm CloneVmm.Boot.Identity

def entrySpan (entry : E820Entry) : Span := ⟨entry.addr, entry.size⟩

def reservedTopEntry (ramSize : Nat) : E820Entry := ⟨u64Sub ramSize reservedTop, reservedTop, .reserved⟩

def IsRam (ramSize gpa : Nat) : Prop := ∃ offset < ramSize, (bootGuestMem ramSize).gpaToOffset gpa = .ok offset

structure E820Sound (ramSize : Nat) : Prop where
  sizes : ∀ entry ∈ e820 ramSize, entry.size < 2 ^ 63
  disjoint : ((e820 ramSize).map entrySpan).Pairwise Span.Apart
  covered : ∀ gpa, 0x100000 ≤ gpa → IsRam ramSize gpa → ∃ entry ∈ e820 ramSize,
    (entry.type = .ram ∨ entry = reservedTopEntry ramSize) ∧ (entrySpan entry).Covers gpa

variable {ramSize : Nat}

section Map

theorem e820_large (h : mmioHoleStart < ramSize) : e820 ramSize =
    [⟨0, 0x9FC00, .ram⟩, ⟨0x9FC00, 0x400, .reserved⟩, ⟨0xF0000, 0x10000, .reserved⟩,
      ⟨0x100000, 0xBFF00000, .ram⟩, ⟨0x100000000, ramSize - 0xC0000000, .ram⟩,
      ⟨0xFEFFC000, 0x4000, .reserved⟩, ⟨0xFFFC0000, 0x40000, .reserved⟩] := by
  rw [e820, e820Ram, if_neg (Nat.not_le.mpr h)]
  rfl

theorem isRam_small (h : ramSize ≤ mmioHoleStart) {gpa : Nat} : IsRam ramSize gpa → gpa < ramSize := by
  rintro ⟨offset, hoffset, hok⟩
  rw [bootGuestMem, if_pos h, gpaToOffset_fromRaw] at hok
  omega

theorem isRam_large (h : mmioHoleStart < ramSize) {gpa : Nat} :
    IsRam ramSize gpa → gpa < 0xC0000000 ∨ 0x100000000 ≤ gpa ∧ gpa < ramSize + 0x40000000 := by
  rintro ⟨offset, hoffset, hok⟩
  rw [bootGuestMem, if_neg (Nat.not_le.mpr h), gpaToOffset_fromRawWithHole] at hok
  unfold mmioHoleStart mmioHoleEnd at *
  omega

theorem e820Sound_small (hmin : 0x120000 ≤ ramSize) (hmax : ramSize ≤ mmioHoleStart) : E820Sound ramSize := by
  have hmap := e820_small hmin hmax
  have hsize := hmax
  unfold mmioHoleStart at hsize
  refine ⟨?_, ?_, ?_⟩
  · rw [hmap]
    simp only [List.forall_mem_cons, List.not_mem_nil, IsEmpty.forall_iff, implies_true, and_true]
    omega
  · rw [hmap]
    refine List.Pairwise.imp Span.apart_of_or ?_
    simp only [List.map_cons, List.map_nil, entrySpan, List.pairwise_cons, List.forall_mem_cons, List.not_mem_nil,
      IsEmpty.forall_iff, implies_true, and_true, List.Pairwise.nil]
    omega
  · intro gpa hlow hram
    have hhigh := isRam_small hmax hram
    rw [hmap]
    rcases Nat.lt_or_ge gpa (ramSize - 0x20000) with hlt | hge
    · refine ⟨⟨0x100000, ramSize - 0x120000, .ram⟩, by simp, .inl rfl, hlow, ?_⟩
      dsimp only [entrySpan]
      omega
    · refine ⟨⟨ramSize - 0x20000, 0x20000, .reserved⟩, by simp, .inr ?_, hge, ?_⟩
      · rw [reservedTopEntry, u64Sub_of_le (by unfold reservedTop; omega) (by omega)]
        rfl
      · dsimp only [entrySpan]
        omega

theorem e820Sound_large (h : mmioHoleStart < ramSize) (hmax : ramSize < 2 ^ 63) : E820Sound ramSize := by
  have hmap := e820_large h
  have hsize := h
  unfold mmioHoleStart at hsize
  refine ⟨?_, ?_, ?_⟩
  · rw [hmap]
    simp only [List.forall_mem_cons, List.not_mem_nil, IsEmpty.forall_iff, implies_true, and_true]
    omega
  · rw [hmap]
    refine List.Pairwise.imp Span.apart_of_or ?_
    simp only [List.map_cons, List.map_nil, entrySpan, List.pairwise_cons, List.forall_mem_cons, List.not_mem_nil,
      IsEmpty.forall_iff, implies_true, and_true, List.Pairwise.nil]
    omega
  · intro gpa hlow hram
    rw [hmap]
    rcases isRam_large h hram with hlt | ⟨hge, hlt⟩
    · exact ⟨⟨0x100000, 0xBFF00000, .ram⟩, by simp, .inl rfl, hlow, hlt⟩
    · refine ⟨⟨0x100000000, ramSize - 0xC0000000, .ram⟩, by simp, .inl rfl, hge, ?_⟩
      dsimp only [entrySpan]
      omega

theorem not_e820Sound_tiny (hmin : 0x100000 ≤ ramSize) (h : ramSize < 0x120000) : ¬ E820Sound ramSize := by
  intro hsound
  have hentry : ⟨0x100000, u64Sub (u64Sub ramSize reservedTop) 0x100000, .ram⟩ ∈ e820 ramSize := by
    rw [e820, e820Ram, if_pos (by unfold mmioHoleStart; omega)]
    simp
  have hsize := hsound.sizes _ hentry
  unfold u64Sub reservedTop at hsize
  dsimp only at hsize
  omega

theorem e820Sound_iff (hmin : 0x100000 ≤ ramSize) (hmax : ramSize < 2 ^ 63) :
    E820Sound ramSize ↔ 0x120000 ≤ ramSize := by
  constructor
  · intro h
    by_contra hlt
    exact not_e820Sound_tiny hmin (Nat.not_le.mp hlt) h
  · intro h
    rcases Nat.lt_or_ge mmioHoleStart ramSize with hlarge | hsmall
    · exact e820Sound_large hlarge hmax
    · exact e820Sound_small h hsmall

end Map

def initrdSpan (c : LoadConfig) (initrd : List UInt8) : Span :=
  ⟨initrdAddr (bootGuestMem c.ramSize) initrd, initrd.length⟩

def kernelSpan (c : LoadConfig) : Span := ⟨kernelLoadAddr, c.kernel.length - setupSize c.kernel⟩

def identitySpan (c : LoadConfig) : Span := ⟨identityPageAddr c.ramSize, 4096⟩

def entryBytes (entry : E820Entry) : List UInt8 :=
  leBytes 8 entry.addr ++ leBytes 8 entry.size ++ leBytes 4 entry.type.code

def bootParam (store : ByteStore) (low high : Nat) : Nat :=
  leNat (readBytes store (bootParamsAddr + low) 4) + leNat (readBytes store (bootParamsAddr + high) 4) * 2 ^ 32

structure TableWritten (c : LoadConfig) (store : ByteStore) : Prop where
  count : store (bootParamsAddr + bpE820Entries) = UInt8.ofNat (e820 c.ramSize).length
  entries : ∀ i entry, (e820 c.ramSize)[i]? = some entry →
    readBytes store (bootParamsAddr + bpE820Table + i * 20) 20 = entryBytes entry

structure InitrdDescribed (c : LoadConfig) (initrd : List UInt8) (store : ByteStore) : Prop where
  address : bootParam store 0x218 0x0C0 = (initrdSpan c initrd).base
  size : bootParam store 0x21C 0x0C4 = initrd.length
  bytes : ∀ k < initrd.length, ∃ offset,
    (bootGuestMem c.ramSize).gpaToOffset ((initrdSpan c initrd).base + k) = .ok offset ∧
      initrd[k]? = some (store offset)

structure Placed (c : LoadConfig) (initrd : List UInt8) (store : ByteStore) : Prop where
  map : E820Sound c.ramSize
  table : TableWritten c store
  inRam : ∃ entry ∈ e820 c.ramSize, entry.type = .ram ∧ (initrdSpan c initrd).Within (entrySpan entry)
  kernel : (initrdSpan c initrd).Apart (kernelSpan c)
  identity : (initrdSpan c initrd).Apart (identitySpan c)
  described : InitrdDescribed c initrd store

def pageUp (n : Nat) : Nat := (n + 4095) / 4096 * 4096

/-- There is a hole, and below it room for the kernel, the identity page and the pages of the initrd. -/
structure Room (c : LoadConfig) (initrd : List UInt8) : Prop where
  hole : mmioHoleStart < c.ramSize
  kernel : kernelLoadAddr + (c.kernel.length - setupSize c.kernel) + pageUp initrd.length ≤ mmioHoleStart
  identity : identityPageAddr c.ramSize + 4096 + pageUp initrd.length ≤ mmioHoleStart ∨
    mmioHoleStart + initrd.length ≤ identityPageAddr c.ramSize + pageUp initrd.length

variable {c : LoadConfig} {initrd : List UInt8} {store store' : ByteStore} {p : Nat}

theorem initrdTop_small (h : ramSize ≤ mmioHoleStart) : initrdTop (bootGuestMem ramSize) = ramSize + guardSize := by
  rw [bootGuestMem, if_pos h, ← allocSize_eq]
  rfl

theorem initrdTop_large (h : mmioHoleStart < ramSize) : initrdTop (bootGuestMem ramSize) = mmioHoleStart := by
  rw [bootGuestMem, if_neg (Nat.not_le.mpr h)]
  rfl

theorem initrdAddr_small (h : ramSize ≤ mmioHoleStart) (hfits : initrd.length ≤ initrdTop (bootGuestMem ramSize)) :
    initrdAddr (bootGuestMem ramSize) initrd = (ramSize + guardSize - initrd.length) / 4096 * 4096 := by
  rw [initrdTop_small h] at hfits
  rw [initrdAddr, initrdTop_small h, u64Sub_of_le hfits]
  unfold mmioHoleStart at h
  unfold guardSize
  omega

theorem initrdAddr_large (h : mmioHoleStart < ramSize) (hfits : initrd.length ≤ initrdTop (bootGuestMem ramSize)) :
    initrdAddr (bootGuestMem ramSize) initrd = 0xC0000000 - pageUp initrd.length := by
  rw [initrdTop_large h] at hfits
  rw [initrdAddr, initrdTop_large h, u64Sub_of_le hfits (by decide)]
  unfold mmioHoleStart at hfits ⊢
  unfold pageUp
  omega

theorem not_inRam_small (hmin : 0x120000 ≤ c.ramSize) (h : c.ramSize ≤ mmioHoleStart)
    (hfits : initrd.length ≤ initrdTop (bootGuestMem c.ramSize)) :
    ¬ ∃ entry ∈ e820 c.ramSize, entry.type = .ram ∧ (initrdSpan c initrd).Within (entrySpan entry) := by
  have haddr := initrdAddr_small h hfits
  have hguard : guardSize = 0x8000000 := by decide
  have htop := hfits
  rw [initrdTop_small h] at htop
  rintro ⟨entry, hentry, htype, -, hend⟩
  rw [e820_small hmin h] at hentry
  simp only [initrdSpan, haddr, entrySpan] at hend
  simp only [List.mem_cons, List.not_mem_nil, or_false] at hentry
  rcases hentry with rfl | rfl | rfl | rfl | rfl | rfl | rfl
  · dsimp only at hend
    omega
  · cases htype
  · cases htype
  · dsimp only at hend
    omega
  · cases htype
  · cases htype
  · cases htype

section Memory

variable {mem : GuestMem} {front rest : List (Part × Action)}

theorem readBytes_held {part : Part} {w : GuestWrite} (hload : performAll mem store (front ++ rest) = .ok store')
    (hmem : (part, .ok w) ∈ rest)
    (hother : ∀ part' w', (part', .ok w') ∈ rest → w' = w ∨ (writeSpan mem w).Apart (writeSpan mem w')) :
    readBytes store' (writeSpan mem w).base w.data.length = w.data := by
  apply readBytes_eq_of_getElem?
  intro k hk
  have hcovers : (writeSpan mem w).Covers ((writeSpan mem w).base + k) :=
    ⟨Nat.le_add_right _ _, Nat.add_lt_add_left hk _⟩
  rw [List.getElem?_eq_getElem hk, Option.some.injEq]
  refine (performAll_value hload ⟨part, w, hmem, hcovers⟩ ?_).symm
  intro part' w' hmem' hcovers'
  rcases hother part' w' hmem' with rfl | hapart
  · rw [Nat.add_sub_cancel_left]
    exact List.getElem?_eq_getElem hk
  · exact absurd hcovers' (hapart _ hcovers)

end Memory

section Table

variable {entries : List E820Entry} {entry : E820Entry} {w : GuestWrite} {i d : Nat}

theorem mem_e820Writes : .ok w ∈ e820Writes entries ↔ ∃ i entry, entries[i]? = some entry ∧
    (w = ⟨bootParamsAddr + (bpE820Table + i * 20), leBytes 8 entry.addr⟩ ∨
      w = ⟨bootParamsAddr + (bpE820Table + i * 20) + 8, leBytes 8 entry.size⟩ ∨
      w = ⟨bootParamsAddr + (bpE820Table + i * 20) + 16, leBytes 4 entry.type.code⟩) := by
  simp only [e820Writes, List.mem_flatMap, Prod.exists, List.mem_zipIdx_iff_getElem?, List.mem_cons, put,
    Except.ok.injEq, List.not_mem_nil, or_false]
  exact exists_comm

theorem entryBytes_length (entry : E820Entry) : (entryBytes entry).length = 20 := by
  simp [entryBytes]

theorem entryBytes_getElem? (entry : E820Entry) (d : Nat) : (entryBytes entry)[d]? =
    if d < 8 then (leBytes 8 entry.addr)[d]? else if d < 16 then (leBytes 8 entry.size)[d - 8]?
    else (leBytes 4 entry.type.code)[d - 16]? := by
  rw [entryBytes, List.append_assoc, List.getElem?_append, leBytes_length]
  apply if_congr Iff.rfl rfl
  rw [List.getElem?_append, leBytes_length, Nat.sub_sub]
  exact if_congr (by omega) rfl rfl

theorem e820Writes_value (hentry : entries[i]? = some entry) (hw : .ok w ∈ e820Writes entries)
    (hlo : w.gpa ≤ bootParamsAddr + bpE820Table + i * 20 + d)
    (hhi : bootParamsAddr + bpE820Table + i * 20 + d < w.gpa + w.data.length) (hd : d < 20) :
    w.data[bootParamsAddr + bpE820Table + i * 20 + d - w.gpa]? = (entryBytes entry)[d]? := by
  obtain ⟨j, entry', hentry', hw⟩ := mem_e820Writes.mp hw
  have hij : j = i := by
    rcases hw with rfl | rfl | rfl
    all_goals
      simp only [leBytes_length] at hlo hhi
      omega
  subst hij
  obtain rfl : entry' = entry := Option.some.inj (hentry'.symm.trans hentry)
  rw [entryBytes_getElem?]
  rcases hw with rfl | rfl | rfl
  · simp only [leBytes_length] at hlo hhi
    rw [if_pos (by omega)]
    exact congrArg (fun k => (leBytes 8 entry'.addr)[k]?) (by dsimp only; omega)
  · simp only [leBytes_length] at hlo hhi
    rw [if_neg (by omega), if_pos (by omega)]
    exact congrArg (fun k => (leBytes 8 entry'.size)[k]?) (by dsimp only; omega)
  · simp only [leBytes_length] at hlo hhi
    rw [if_neg (by omega), if_neg (by omega)]
    exact congrArg (fun k => (leBytes 4 entry'.type.code)[k]?) (by dsimp only; omega)

theorem e820Writes_some (hentry : entries[i]? = some entry) (hd : d < 20) : ∃ w, .ok w ∈ e820Writes entries ∧
    w.gpa ≤ bootParamsAddr + bpE820Table + i * 20 + d ∧
      bootParamsAddr + bpE820Table + i * 20 + d < w.gpa + w.data.length := by
  rcases Nat.lt_or_ge d 8 with h8 | h8
  · refine ⟨_, mem_e820Writes.mpr ⟨i, entry, hentry, .inl rfl⟩, ?_⟩
    simp only [leBytes_length]
    omega
  · rcases Nat.lt_or_ge d 16 with h16 | h16
    · refine ⟨_, mem_e820Writes.mpr ⟨i, entry, hentry, .inr (.inl rfl)⟩, ?_⟩
      simp only [leBytes_length]
      omega
    · refine ⟨_, mem_e820Writes.mpr ⟨i, entry, hentry, .inr (.inr rfl)⟩, ?_⟩
      simp only [leBytes_length]
      omega

end Table

/-- The page is cleared and gets the header of the kernel and the pointers. -/
def early (data : List UInt8) : List Action :=
  [put bootParamsAddr (List.replicate 4096 0)]
    ++ (if headerEnd data > headerStart then
        [put (bootParamsAddr + headerStart) ((data.take (headerEnd data)).drop headerStart)]
      else [])
    ++ [put (bootParamsAddr + bpCmdLinePtr) (leBytes 4 cmdlineAddr), put (bootParamsAddr + 0x210) [0xFF],
      put (bootParamsAddr + 0x211) [0x81], put (bootParamsAddr + bpHeapEndPtr) (leBytes 2 0xFE00)]

def countAction (ramSize : Nat) : Action := put (bootParamsAddr + bpE820Entries) [UInt8.ofNat (e820 ramSize).length]

def late (ramSize : Nat) : List Action := countAction ramSize :: e820Writes (e820 ramSize)

theorem bzimageBootParams_eq (data : List UInt8) (ramSize : Nat) :
    bzimageBootParams data ramSize = early data ++ late ramSize := by
  simp only [bzimageBootParams, early, late, countAction, List.append_assoc, List.cons_append, List.nil_append]

theorem late_low {w : GuestWrite} (hw : .ok w ∈ late ramSize) :
    w = ⟨0x71E8, [UInt8.ofNat (e820 ramSize).length]⟩ ∨
      .ok w ∈ e820Writes (e820 ramSize) ∧ 0x72D0 ≤ w.gpa ∧ w.gpa + w.data.length ≤ 0x8000 := by
  rcases List.mem_cons.mp hw with heq | hw
  · exact .inl (Except.ok.inj heq)
  · obtain ⟨w', heq, -, hend⟩ := e820Writes_inside ramSize _ hw
    obtain rfl := Except.ok.inj heq
    refine .inr ⟨hw, ?_, hend⟩
    obtain ⟨i, entry, -, rfl | rfl | rfl⟩ := mem_e820Writes.mp hw
    all_goals
      dsimp only [bootParamsAddr, bpE820Table]
      omega

theorem writeSpan_e820 {w : GuestWrite} (hw : .ok w ∈ e820Writes (e820 ramSize)) :
    writeSpan (bootGuestMem ramSize) w = ⟨w.gpa, w.data.length⟩ := by
  obtain ⟨w', heq, -, hend⟩ := e820Writes_inside ramSize _ hw
  obtain rfl := Except.ok.inj heq
  apply writeSpan_low
  unfold bootParamsAddr at hend
  unfold mmioHoleStart
  omega

theorem early_low {data : List UInt8} {w : GuestWrite} (hw : .ok w ∈ early data) :
    w = ⟨0x7000, List.replicate 4096 0⟩ ∨ 0x71F1 ≤ w.gpa ∧ w.gpa + w.data.length ≤ 0x8000 := by
  have hend : headerEnd data ≤ 4096 := Nat.min_le_right _ _
  simp only [early, List.mem_append, List.mem_cons, List.not_mem_nil, or_false, put, Except.ok.injEq] at hw
  rcases hw with (rfl | hw) | rfl | rfl | rfl | rfl
  · exact .inl rfl
  · right
    split at hw
    · obtain rfl := Except.ok.inj (List.mem_singleton.mp hw)
      simp only [List.length_drop, List.length_take, bootParamsAddr, headerStart]
      omega
    · cases hw
  all_goals
    right
    dsimp only [bootParamsAddr, bpCmdLinePtr, bpHeapEndPtr]
    simp

def front (c : LoadConfig) : List (Part × Action) :=
  owned .cmdline c.cmdlineWrites ++ owned .acpi (setupAcpiTablesWithPci c.numCpus c.pciEnabled)
    ++ owned .pageTables (setupPageTables c.ramSize) ++ owned .gdt setupGdt

def kernelAction (c : LoadConfig) : Part × Action := (.kernel, put kernelLoadAddr (c.kernel.drop (setupSize c.kernel)))

def tail (c : LoadConfig) (initrd : List UInt8) : List (Part × Action) :=
  kernelAction c :: loadInitrd (bootGuestMem c.ramSize) initrd

structure Loaded (c : LoadConfig) (initrd : List UInt8) (store store' : ByteStore) : Prop where
  bzimage : isBzimage c.kernel = true
  given : c.initrd = some initrd
  fits : initrd.length ≤ initrdTop (bootGuestMem c.ramSize)
  run : performAll (bootGuestMem c.ramSize) store (c.actions (bootGuestMem c.ramSize)) = .ok store'

namespace Loaded

variable (h : Loaded c initrd store store')

include h

theorem setup_lt : setupSize c.kernel < c.kernel.length := by
  by_contra hle
  have hlands := performAll_ok h.run (.kernel, .error
    s!"Invalid bzImage: setup_size ({setupSize c.kernel}) >= file size ({c.kernel.length})") ?_
  · obtain ⟨w, offset, heq, -⟩ := hlands
    cases heq
  · apply List.mem_append_left
    apply List.mem_append_right
    rw [LoadConfig.kernelActions, if_pos h.bzimage, loadBzimage, if_pos (Nat.not_lt.mp hle)]
    exact List.mem_singleton_self _

theorem actions_eq : c.actions (bootGuestMem c.ramSize) =
    front c ++ (owned .bootParams (bzimageBootParams c.kernel c.ramSize) ++ tail c initrd) := by
  have hkernel : c.kernelActions.1 =
      owned .bootParams (bzimageBootParams c.kernel c.ramSize) ++ [kernelAction c] := by
    rw [LoadConfig.kernelActions, if_pos h.bzimage, loadBzimage, if_neg (Nat.not_le.mpr h.setup_lt)]
    rfl
  have hinitrd : c.initrdActions (bootGuestMem c.ramSize) = loadInitrd (bootGuestMem c.ramSize) initrd := by
    rw [LoadConfig.initrdActions, h.given]
    rfl
  rw [LoadConfig.actions, hkernel, hinitrd]
  simp only [front, tail, List.append_assoc, List.singleton_append]

theorem initrd_lands : Lands (bootGuestMem c.ramSize) (put (initrdAddr (bootGuestMem c.ramSize) initrd) initrd) := by
  apply performAll_ok h.run (.initrd, _)
  rw [h.actions_eq]
  exact List.mem_append_right _ (List.mem_append_right _ (List.mem_cons_of_mem _ List.mem_cons_self))

theorem addr_large (hlarge : mmioHoleStart < c.ramSize) :
    initrdAddr (bootGuestMem c.ramSize) initrd = 0xC0000000 - pageUp initrd.length :=
  initrdAddr_large hlarge h.fits

theorem length_pos (hlarge : mmioHoleStart < c.ramSize) : 0 < initrd.length := by
  by_contra hempty
  have hzero : initrd.length = 0 := Nat.eq_zero_of_not_pos hempty
  obtain ⟨w, offset, heq, hoffset, -⟩ := h.initrd_lands
  obtain rfl := Except.ok.inj heq
  dsimp only at hoffset
  rw [h.addr_large hlarge, hzero, bootGuestMem, if_neg (Nat.not_le.mpr hlarge), gpaToOffset_fromRawWithHole] at hoffset
  unfold pageUp mmioHoleStart mmioHoleEnd at hoffset
  omega

theorem span_large (hlarge : mmioHoleStart < c.ramSize) :
    initrdSpan c initrd = ⟨0xC0000000 - pageUp initrd.length, initrd.length⟩ := by
  rw [initrdSpan, h.addr_large hlarge]

theorem pageUp_le (hlarge : mmioHoleStart < c.ramSize) : pageUp initrd.length ≤ 0xC0000000 := by
  have hfits := h.fits
  rw [initrdTop_large hlarge] at hfits
  unfold mmioHoleStart at hfits
  unfold pageUp
  omega

theorem kernel_apart_iff (hlarge : mmioHoleStart < c.ramSize) : (initrdSpan c initrd).Apart (kernelSpan c) ↔
    kernelLoadAddr + (c.kernel.length - setupSize c.kernel) + pageUp initrd.length ≤ mmioHoleStart := by
  have hpos := h.length_pos hlarge
  have hsetup := h.setup_lt
  have hle := h.pageUp_le hlarge
  rw [Span.apart_iff hpos (show 0 < c.kernel.length - setupSize c.kernel by omega), h.span_large hlarge]
  unfold kernelSpan kernelLoadAddr mmioHoleStart
  unfold pageUp at *
  dsimp only
  omega

theorem identity_apart_iff (hlarge : mmioHoleStart < c.ramSize) : (initrdSpan c initrd).Apart (identitySpan c) ↔
    identityPageAddr c.ramSize + 4096 + pageUp initrd.length ≤ mmioHoleStart ∨
      mmioHoleStart + initrd.length ≤ identityPageAddr c.ramSize + pageUp initrd.length := by
  have hpos := h.length_pos hlarge
  have hle := h.pageUp_le hlarge
  rw [Span.apart_iff hpos (show 0 < 4096 by decide), h.span_large hlarge]
  unfold identitySpan mmioHoleStart
  dsimp only
  omega

theorem loadInitrd_eq (hlarge : mmioHoleStart < c.ramSize) : loadInitrd (bootGuestMem c.ramSize) initrd =
    [(.initrd, put (initrdSpan c initrd).base initrd),
      (.bootParams, put 0x7218 (leBytes 4 (initrdSpan c initrd).base)),
      (.bootParams, put 0x721C (leBytes 4 initrd.length))] := by
  have haddr := h.addr_large hlarge
  have hhi : ¬ initrdAddr (bootGuestMem c.ramSize) initrd >>> 32 > 0 := by
    rw [haddr, Nat.shiftRight_eq_div_pow]
    omega
  unfold loadInitrd
  dsimp only
  rw [if_neg hhi, List.append_nil]
  rfl

theorem base_bounds (hroom : Room c initrd) :
    0x100000 ≤ (initrdSpan c initrd).base ∧ (initrdSpan c initrd).base + initrd.length ≤ 0xC0000000 ∧
      (initrdSpan c initrd).base < 0xC0000000 := by
  have hpos := h.length_pos hroom.hole
  have hkernel := hroom.kernel
  rw [h.span_large hroom.hole]
  unfold kernelLoadAddr mmioHoleStart at hkernel
  unfold pageUp at *
  dsimp only
  omega

theorem tail_outside (hroom : Room c initrd) {part : Part} {w : GuestWrite} (hmem : (part, .ok w) ∈ tail c initrd)
    (hcovers : (writeSpan (bootGuestMem c.ramSize) w).Covers p) : 0x100000 ≤ p ∨ 0x7218 ≤ p ∧ p < 0x7220 := by
  obtain ⟨hbase, -, hlow⟩ := h.base_bounds hroom
  rw [tail, kernelAction, h.loadInitrd_eq hroom.hole] at hmem
  simp only [List.mem_cons, Prod.mk.injEq, put, Except.ok.injEq, List.not_mem_nil, or_false] at hmem
  rcases hmem with ⟨-, rfl⟩ | ⟨-, rfl⟩ | ⟨-, rfl⟩ | ⟨-, rfl⟩
  · rw [writeSpan_low (show kernelLoadAddr < mmioHoleStart by decide)] at hcovers
    exact .inl hcovers.1
  · rw [writeSpan_low hlow] at hcovers
    exact .inl (hbase.trans hcovers.1)
  · rw [writeSpan_low (show 0x7218 < mmioHoleStart by decide)] at hcovers
    simp only [Span.Covers, leBytes_length] at hcovers
    omega
  · rw [writeSpan_low (show 0x721C < mmioHoleStart by decide)] at hcovers
    simp only [Span.Covers, leBytes_length] at hcovers
    omega

theorem run_late : performAll (bootGuestMem c.ramSize) store ((front c ++ owned .bootParams (early c.kernel)) ++
    (owned .bootParams (late c.ramSize) ++ tail c initrd)) = .ok store' := by
  have hrun := h.run
  rw [h.actions_eq, bzimageBootParams_eq] at hrun
  simpa only [owned, List.map_append, List.append_assoc] using hrun

theorem ext_zero (hroom : Room c initrd) (hlo : 0x70C0 ≤ p) (hhi : p < 0x70C8) : store' p = 0 := by
  have hrun := h.run
  rw [h.actions_eq, bzimageBootParams_eq] at hrun
  refine performAll_value hrun ⟨.bootParams, ⟨0x7000, List.replicate 4096 0⟩, ?_, ?_⟩ ?_
  · exact List.mem_append_left _ (List.mem_map_of_mem (List.mem_append_left _ List.mem_cons_self))
  · rw [writeSpan_low (show 0x7000 < mmioHoleStart by decide), Span.Covers, List.length_replicate]
    dsimp only
    omega
  · intro part w hmem hcovers
    rcases List.mem_append.mp hmem with hmem | hmem
    · obtain ⟨a, ha, heq⟩ := List.mem_map.mp hmem
      obtain ⟨-, rfl⟩ := Prod.mk.inj heq
      have hlow : w = ⟨0x7000, List.replicate 4096 0⟩ ∨ 0x71E8 ≤ w.gpa ∧ w.gpa + w.data.length ≤ 0x8000 := by
        rcases List.mem_append.mp ha with ha | ha
        · exact (early_low ha).imp_right fun hw => ⟨by omega, hw.2⟩
        · rcases late_low ha with rfl | ⟨-, hw⟩
          · exact .inr ⟨Nat.le_refl _, by simp⟩
          · exact .inr ⟨by omega, hw.2⟩
      rcases hlow with rfl | ⟨hgpa, hend⟩
      · rw [writeSpan_low (show 0x7000 < mmioHoleStart by decide)]
        dsimp only
        rw [List.getElem?_replicate, if_pos (by omega)]
      · rw [writeSpan_low (by unfold mmioHoleStart; omega)] at hcovers
        have hbase : w.gpa ≤ p := hcovers.1
        omega
    · rcases h.tail_outside hroom hmem hcovers with hhigh | ⟨hhigh, -⟩
      · omega
      · omega

theorem count_written (hroom : Room c initrd) :
    store' (bootParamsAddr + bpE820Entries) = UInt8.ofNat (e820 c.ramSize).length := by
  refine performAll_value h.run_late ⟨.bootParams, ⟨0x71E8, [UInt8.ofNat (e820 c.ramSize).length]⟩, ?_, ?_⟩ ?_
  · exact List.mem_append_left _ (List.mem_map_of_mem List.mem_cons_self)
  · rw [writeSpan_low (show 0x71E8 < mmioHoleStart by decide)]
    exact ⟨Nat.le_refl _, Nat.lt_succ_self _⟩
  · intro part w hmem hcovers
    rcases List.mem_append.mp hmem with hmem | hmem
    · obtain ⟨a, ha, heq⟩ := List.mem_map.mp hmem
      obtain ⟨-, rfl⟩ := Prod.mk.inj heq
      rcases late_low ha with rfl | ⟨-, hgpa, hend⟩
      · rw [writeSpan_low (show 0x71E8 < mmioHoleStart by decide)]
        rfl
      · rw [writeSpan_low (by unfold mmioHoleStart; omega)] at hcovers
        exact absurd (hgpa.trans hcovers.1) (by decide)
    · exact absurd (h.tail_outside hroom hmem hcovers) (by decide)

theorem entry_written (hroom : Room c initrd) {i d : Nat} {entry : E820Entry}
    (hentry : (e820 c.ramSize)[i]? = some entry) (hd : d < 20) :
    (entryBytes entry)[d]? = some (store' (bootParamsAddr + bpE820Table + i * 20 + d)) := by
  have hi : i < 7 := by
    have hlt := (List.getElem?_eq_some_iff.mp hentry).1
    rwa [e820_length] at hlt
  obtain ⟨v, hv⟩ : ∃ v, (entryBytes entry)[d]? = some v :=
    ⟨_, List.getElem?_eq_getElem (by rwa [entryBytes_length])⟩
  obtain ⟨w, hw, hlo, hhi⟩ := e820Writes_some hentry hd
  rw [hv, Option.some.injEq]
  refine (performAll_value h.run_late ⟨.bootParams, w, ?_, ?_⟩ ?_).symm
  · exact List.mem_append_left _ (List.mem_map_of_mem (List.mem_cons_of_mem _ hw))
  · rw [writeSpan_e820 hw]
    exact ⟨hlo, hhi⟩
  · intro part w hmem hcovers
    rcases List.mem_append.mp hmem with hmem | hmem
    · obtain ⟨a, ha, heq⟩ := List.mem_map.mp hmem
      obtain ⟨-, rfl⟩ := Prod.mk.inj heq
      rcases late_low ha with rfl | ⟨hw, -⟩
      · have hend := hcovers.2
        rw [writeSpan_low (show 0x71E8 < mmioHoleStart by decide)] at hend
        simp only [bootParamsAddr, bpE820Table, List.length_singleton] at hend
        omega
      · rw [writeSpan_e820 hw] at hcovers ⊢
        exact (e820Writes_value hentry hw hcovers.1 hcovers.2 hd).trans hv
    · have houtside := h.tail_outside hroom hmem hcovers
      unfold bootParamsAddr bpE820Table at houtside
      omega

theorem tableWritten (hroom : Room c initrd) : TableWritten c store' where
  count := h.count_written hroom
  entries := by
    intro i entry hentry
    have hread : readBytes store' (bootParamsAddr + bpE820Table + i * 20) (entryBytes entry).length =
        entryBytes entry := by
      apply readBytes_eq_of_getElem?
      intro d hd
      rw [entryBytes_length] at hd
      exact h.entry_written hroom hentry hd
    rwa [entryBytes_length] at hread

theorem run_initrd : performAll (bootGuestMem c.ramSize) store
    ((front c ++ owned .bootParams (bzimageBootParams c.kernel c.ramSize) ++ [kernelAction c]) ++
      loadInitrd (bootGuestMem c.ramSize) initrd) = .ok store' := by
  have hrun := h.run
  rw [h.actions_eq] at hrun
  simpa only [tail, List.append_assoc, List.cons_append, List.nil_append] using hrun

theorem initrd_writes_held (hroom : Room c initrd) {part : Part} {w : GuestWrite}
    (hmem : (part, .ok w) ∈ loadInitrd (bootGuestMem c.ramSize) initrd) :
    readBytes store' w.gpa w.data.length = w.data := by
  obtain ⟨hbase, -, hlow⟩ := h.base_bounds hroom
  have himage : 0x7218 < mmioHoleStart := by decide
  have hsize : 0x721C < mmioHoleStart := by decide
  have hplace : ∀ part w, (part, .ok w) ∈ loadInitrd (bootGuestMem c.ramSize) initrd →
      writeSpan (bootGuestMem c.ramSize) w = ⟨w.gpa, w.data.length⟩ ∧
        (w = ⟨(initrdSpan c initrd).base, initrd⟩ ∨ w = ⟨0x7218, leBytes 4 (initrdSpan c initrd).base⟩ ∨
          w = ⟨0x721C, leBytes 4 initrd.length⟩) := by
    intro part w hmem
    rw [h.loadInitrd_eq hroom.hole] at hmem
    simp only [List.mem_cons, Prod.mk.injEq, put, Except.ok.injEq, List.not_mem_nil, or_false] at hmem
    rcases hmem with ⟨-, rfl⟩ | ⟨-, rfl⟩ | ⟨-, rfl⟩
    · exact ⟨writeSpan_low hlow, .inl rfl⟩
    · exact ⟨writeSpan_low himage, .inr (.inl rfl)⟩
    · exact ⟨writeSpan_low hsize, .inr (.inr rfl)⟩
  obtain ⟨hspan, hw⟩ := hplace part w hmem
  have hheld := readBytes_held h.run_initrd hmem (fun part' w' hmem' => ?_)
  · rwa [hspan] at hheld
  · obtain ⟨hspan', hw'⟩ := hplace part' w' hmem'
    rw [hspan, hspan']
    rcases hw with rfl | rfl | rfl <;> rcases hw' with rfl | rfl | rfl
    · exact .inl rfl
    · exact .inr (Span.apart_of_or (.inr (by simp only [leBytes_length]; omega)))
    · exact .inr (Span.apart_of_or (.inr (by simp only [leBytes_length]; omega)))
    · exact .inr (Span.apart_of_or (.inl (by simp only [leBytes_length]; omega)))
    · exact .inl rfl
    · exact .inr (Span.apart_of_or (.inl (by simp only [leBytes_length]; omega)))
    · exact .inr (Span.apart_of_or (.inl (by simp only [leBytes_length]; omega)))
    · exact .inr (Span.apart_of_or (.inr (by simp only [leBytes_length]; omega)))
    · exact .inl rfl

theorem bootParam_eq (hroom : Room c initrd) {low high v : Nat} (hv : v < 2 ^ 32)
    (hlow : readBytes store' (bootParamsAddr + low) 4 = leBytes 4 v) (hlo : 0xC0 ≤ high) (hhi : high ≤ 0xC4) :
    bootParam store' low high = v := by
  have hzero : readBytes store' (bootParamsAddr + high) (leBytes 4 0).length = leBytes 4 0 := by
    refine readBytes_eq_of_getElem? fun k hk => ?_
    rw [leBytes_length] at hk
    rw [h.ext_zero hroom (by unfold bootParamsAddr; omega) (by unfold bootParamsAddr; omega),
      leBytes_getElem? _ _ _ hk, Nat.zero_div]
    rfl
  rw [leBytes_length] at hzero
  rw [bootParam, hlow, hzero, leNat_leBytes, leNat_leBytes]
  omega

theorem described (hroom : Room c initrd) : InitrdDescribed c initrd store' where
  address := by
    have hbounds := h.base_bounds hroom
    refine h.bootParam_eq hroom (by omega) ?_ (by omega) (by omega)
    have hmem : (.bootParams, put 0x7218 (leBytes 4 (initrdSpan c initrd).base)) ∈
        loadInitrd (bootGuestMem c.ramSize) initrd := by
      rw [h.loadInitrd_eq hroom.hole]
      exact List.mem_cons_of_mem _ List.mem_cons_self
    have hheld := h.initrd_writes_held hroom hmem
    rwa [leBytes_length] at hheld
  size := by
    have hbounds := h.base_bounds hroom
    refine h.bootParam_eq hroom (by omega) ?_ (by omega) (by omega)
    have hmem : (.bootParams, put 0x721C (leBytes 4 initrd.length)) ∈ loadInitrd (bootGuestMem c.ramSize) initrd := by
      rw [h.loadInitrd_eq hroom.hole]
      exact List.mem_cons_of_mem _ (List.mem_cons_of_mem _ List.mem_cons_self)
    have hheld := h.initrd_writes_held hroom hmem
    rwa [leBytes_length] at hheld
  bytes := by
    intro k hk
    have hbounds := h.base_bounds hroom
    have hmem : (.initrd, put (initrdSpan c initrd).base initrd) ∈ loadInitrd (bootGuestMem c.ramSize) initrd := by
      rw [h.loadInitrd_eq hroom.hole]
      exact List.mem_cons_self
    have hheld := h.initrd_writes_held hroom hmem
    refine ⟨(initrdSpan c initrd).base + k, ?_, ?_⟩
    · rw [bootGuestMem, if_neg (Nat.not_le.mpr hroom.hole), gpaToOffset_fromRawWithHole]
      exact .inl ⟨by unfold mmioHoleStart; omega, rfl⟩
    · dsimp only at hheld
      have hget := readBytes_getElem? store' (initrdSpan c initrd).base initrd.length k hk
      rwa [hheld] at hget

theorem placed_of_room (hmax : c.ramSize < 2 ^ 63) (hroom : Room c initrd) : Placed c initrd store' where
  map := e820Sound_large hroom.hole hmax
  table := h.tableWritten hroom
  inRam := by
    obtain ⟨hbase, hend, -⟩ := h.base_bounds hroom
    rw [e820_large hroom.hole]
    exact ⟨⟨0x100000, 0xBFF00000, .ram⟩, by simp, rfl, hbase, hend⟩
  kernel := (h.kernel_apart_iff hroom.hole).mpr hroom.kernel
  identity := (h.identity_apart_iff hroom.hole).mpr hroom.identity
  described := h.described hroom

theorem room_of_placed (hmin : 0x100000 ≤ c.ramSize) (hmax : c.ramSize < 2 ^ 63) (hplaced : Placed c initrd store') :
    Room c initrd := by
  have hlarge : mmioHoleStart < c.ramSize := by
    by_contra hle
    have hsound := (e820Sound_iff hmin hmax).mp hplaced.map
    exact not_inRam_small hsound (Nat.not_lt.mp hle) h.fits hplaced.inRam
  exact ⟨hlarge, (h.kernel_apart_iff hlarge).mp hplaced.kernel, (h.identity_apart_iff hlarge).mp hplaced.identity⟩

end Loaded

theorem placed_iff (c : LoadConfig) (initrd : List UInt8) (store store' : ByteStore) (entry : Nat)
    (hmin : 0x100000 ≤ c.ramSize) (hmax : c.ramSize < 2 ^ 63) (hbz : isBzimage c.kernel = true)
    (hgiven : c.initrd = some initrd) (hfits : initrd.length ≤ initrdTop (bootGuestMem c.ramSize))
    (hload : loadKernelWithPci (bootGuestMem c.ramSize) store c = .ok (store', entry)) :
    Placed c initrd store' ↔ Room c initrd := by
  have hloaded : Loaded c initrd store store' := ⟨hbz, hgiven, hfits, loadKernelWithPci_ok hload⟩
  exact ⟨hloaded.room_of_placed hmin hmax, hloaded.placed_of_room hmax⟩

theorem initrd_lands_of_fits (hpos : 0 < initrd.length) (hfits : initrd.length ≤ initrdTop (bootGuestMem ramSize)) :
    Lands (bootGuestMem ramSize) (put (initrdAddr (bootGuestMem ramSize) initrd) initrd) := by
  refine ⟨_, initrdAddr (bootGuestMem ramSize) initrd, rfl, ?_⟩
  rcases Nat.lt_or_ge mmioHoleStart ramSize with hlarge | hsmall
  · have haddr := initrdAddr_large hlarge hfits
    rw [initrdTop_large hlarge] at hfits
    have hsize : (bootGuestMem ramSize).size = ramSize + guardSize := by
      rw [bootGuestMem, if_neg (Nat.not_le.mpr hlarge), ← allocSize_eq]
      rfl
    have hgpa : (bootGuestMem ramSize).gpaToOffset (initrdAddr (bootGuestMem ramSize) initrd) =
        .ok (initrdAddr (bootGuestMem ramSize) initrd) := by
      rw [haddr, bootGuestMem, if_neg (Nat.not_le.mpr hlarge), gpaToOffset_fromRawWithHole]
      unfold mmioHoleStart pageUp
      omega
    refine ⟨hgpa, ?_⟩
    dsimp only
    rw [haddr, hsize]
    unfold mmioHoleStart at hlarge hfits
    unfold pageUp
    omega
  · have haddr := initrdAddr_small hsmall hfits
    rw [initrdTop_small hsmall] at hfits
    have hsize : (bootGuestMem ramSize).size = ramSize + guardSize := by
      rw [bootGuestMem, if_pos hsmall, ← allocSize_eq]
      rfl
    have hgpa : (bootGuestMem ramSize).gpaToOffset (initrdAddr (bootGuestMem ramSize) initrd) =
        .ok (initrdAddr (bootGuestMem ramSize) initrd) := by
      rw [haddr, bootGuestMem, if_pos hsmall, gpaToOffset_fromRaw, allocSize_eq]
      omega
    refine ⟨hgpa, ?_⟩
    dsimp only
    rw [haddr, hsize]
    omega

theorem loadInitrd_lands (hpos : 0 < initrd.length) (hfits : initrd.length ≤ initrdTop (bootGuestMem ramSize)) :
    ∀ a ∈ loadInitrd (bootGuestMem ramSize) initrd, Lands (bootGuestMem ramSize) a.2 := by
  have hpatch : ∀ gpa value, gpa ≤ 0x8000 → Lands (bootGuestMem ramSize) (put gpa (leBytes 4 value)) := by
    intro gpa value hgpa
    have hinside : Inside 0 0x8004 (put gpa (leBytes 4 value)) := by
      rw [inside_put, leBytes_length]
      omega
    exact lands_of_inside hinside (by decide)
  unfold loadInitrd
  dsimp only
  rw [List.forall_mem_append]
  constructor
  · simp only [List.forall_mem_cons, List.not_mem_nil, IsEmpty.forall_iff, implies_true, and_true]
    exact ⟨initrd_lands_of_fits hpos hfits, hpatch _ _ (by decide), hpatch _ _ (by decide)⟩
  · split
    · rw [List.forall_mem_singleton]
      exact hpatch _ _ (by decide)
    · exact List.forall_mem_nil _

theorem load_with_initrd (h : c.Ordinary) (hpos : 0 < initrd.length)
    (hfits : initrd.length ≤ initrdTop (bootGuestMem c.ramSize)) (store : ByteStore) :
    ∃ store' entry, loadKernelWithPci (bootGuestMem c.ramSize) store { c with initrd := some initrd } =
      .ok (store', entry) := by
  have hactions : ({ c with initrd := some initrd } : LoadConfig).actions (bootGuestMem c.ramSize) =
      c.actions (bootGuestMem c.ramSize) ++ loadInitrd (bootGuestMem c.ramSize) initrd := by
    rw [LoadConfig.actions, LoadConfig.actions, h.initrdActions_eq, List.append_nil]
    rfl
  have hlands : ∀ a ∈ ({ c with initrd := some initrd } : LoadConfig).actions (bootGuestMem c.ramSize),
      Lands (bootGuestMem c.ramSize) a.2 := by
    rw [hactions, List.forall_mem_append]
    exact ⟨fun a ha => lands_of_inside (h.inside a ha) (by decide), loadInitrd_lands hpos hfits⟩
  unfold loadKernelWithPci
  rw [performAll_of_lands hlands]
  exact ⟨_, _, rfl⟩

def threeBytes : List UInt8 := [1, 2, 3]

def tinyInitrd (ramSize : Nat) : LoadConfig := { tinyLoad ramSize with initrd := some threeBytes }

theorem placed_four_gb : ∃ store' entry,
    loadKernelWithPci (bootGuestMem 0x100000000) (fun _ => 0) (tinyInitrd 0x100000000) = .ok (store', entry) ∧
      Placed (tinyInitrd 0x100000000) threeBytes store' := by
  have hpos : 0 < threeBytes.length := by decide
  have hfits : threeBytes.length ≤ initrdTop (bootGuestMem 0x100000000) := by decide
  obtain ⟨store', entry, hload⟩ := load_with_initrd (tinyLoad_ordinary 0x100000000) hpos hfits fun _ => 0
  refine ⟨store', entry, hload, (placed_iff (tinyInitrd 0x100000000) threeBytes _ store' entry (by decide) (by decide)
    (tinyLoad_ordinary 0x100000000).bzimage rfl hfits hload).mpr ⟨by decide, by decide +kernel, .inl (by decide)⟩⟩

theorem placed_fails : ¬ E820Sound 0x100000 ∧ ∃ store' entry,
    loadKernelWithPci (bootGuestMem 0x20000000) (fun _ => 0) (tinyInitrd 0x20000000) = .ok (store', entry) ∧
      ¬ Placed (tinyInitrd 0x20000000) threeBytes store' := by
  refine ⟨not_e820Sound_tiny (by decide) (by decide), ?_⟩
  have hpos : 0 < threeBytes.length := by decide
  have hfits : threeBytes.length ≤ initrdTop (bootGuestMem 0x20000000) := by decide
  obtain ⟨store', entry, hload⟩ := load_with_initrd (tinyLoad_ordinary 0x20000000) hpos hfits fun _ => 0
  refine ⟨store', entry, hload, fun hplaced => ?_⟩
  exact not_inRam_small (by decide) (by decide) hfits hplaced.inRam

end CloneVmm.Boot.Initrd
