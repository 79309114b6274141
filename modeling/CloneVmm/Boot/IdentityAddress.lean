import CloneVmm.Boot.Identity
import CloneVmm.Lib.Text
import Mathlib.Data.List.DropRight

/-!
Where the identity page is: `identity_page_addr` and `inject_identity_at` of `boot/identity.rs`, the e820 map of
`boot/mod.rs`, and `read_identity_ip` of the agent, which looks at the ranges that `/proc/iomem` shows.
-/

namespace CloneVmm.Boot.Identity

open CloneVmm.Lib CloneVmm.Vmm

def identityPageAddrFallback : Nat := 0xF0000

def identityPageAddr (ramSize : Nat) : Nat :=
  if ramSize > 0x100000 then
    let addr := ramSize - 0x20000
    if addr ≥ mmioHoleStart then mmioHoleStart - 0x20000 else addr
  else identityPageAddrFallback

def injectIdentityAt (mem : GuestMem) (store : ByteStore) (identity : VmIdentity) (ramSize : Nat) :
    Except String ByteStore := perform mem store (put (identityPageAddr ramSize) identity.toPage)

def trim (text : List Char) : List Char := (text.dropWhile Text.isWhitespace).rdropWhile Text.isWhitespace

def hexDigit (c : Char) : Option Nat :=
  if '0' ≤ c ∧ c ≤ '9' then some (c.toNat - 48)
  else if 'a' ≤ c ∧ c ≤ 'f' then some (c.toNat - 87)
  else if 'A' ≤ c ∧ c ≤ 'F' then some (c.toNat - 55)
  else none

def pushDigit (n : Nat) (c : Char) : Option Nat :=
  (hexDigit c).bind fun d => if 16 * n + d < 2 ^ 64 then some (16 * n + d) else none

def fromStrRadix (text : List Char) : Option Nat :=
  let digits := if text.head? = some '+' then text.tail else text
  if digits = [] then none else digits.foldlM pushDigit 0

def systemRam : List Char := "System RAM".toList

def endStr (line : List Char) : Option (List Char) :=
  ((trim ((line.splitOn ':').headD [])).splitOn '-')[1]?.map trim

def scanIomem : Nat → List (List Char) → Option Nat
  | ramEnd, [] => some ramEnd
  | ramEnd, line :: lines =>
    if systemRam <:+: line then
      match endStr line with
      | none => none
      | some text =>
        match fromStrRadix text with
        | some rangeEnd => scanIomem (if rangeEnd > ramEnd then rangeEnd else ramEnd) lines
        | none => scanIomem ramEnd lines
    else scanIomem ramEnd lines

def identityAddrs (iomem : List (List Char)) : Option (List Nat) :=
  (scanIomem 0 iomem).map fun ramEnd =>
    let addr := u64Sub ((ramEnd + 1) % 2 ^ 64) 0x20000
    (if ramEnd > 0x20000 then [if addr ≥ mmioHoleStart then mmioHoleStart - 0x20000 else addr] else [])
      ++ [mmioHoleStart - 0x20000]

def hex8 (n : Nat) : List Char := List.replicate (8 - (Nat.toDigits 16 n).length) '0' ++ Nat.toDigits 16 n

def E820Entry.lastByte (entry : E820Entry) : Nat := entry.addr + entry.size - 1

def iomemLine (entry : E820Entry) : List Char :=
  hex8 entry.addr ++ '-' :: (hex8 (E820Entry.lastByte entry) ++ " : System RAM".toList)

def Shows (iomem : List (List Char)) (entries : List E820Entry) : Prop :=
  (iomem.filter fun line => decide (systemRam <:+: line)) = (entries.filter fun e => e.type = .ram).map iomemLine

structure PageFound (ramSize : Nat) : Prop where
  inRam : ∀ gpa, identityPageAddr ramSize ≤ gpa → gpa < identityPageAddr ramSize + 4096 →
    ∃ r ∈ (forkBoot ramSize).regions, r.Covers gpa
  written : ∀ store identity, ∃ offset store', (forkFromTemplate ramSize).gpaToOffset (identityPageAddr ramSize) = .ok offset ∧
    injectIdentityAt (forkFromTemplate ramSize) store identity ramSize = .ok store' ∧
    readBytes store' offset 4096 = identity.toPage
  reserved : ∃ entry ∈ e820 ramSize, entry.type = .reserved ∧ entry.addr ≤ identityPageAddr ramSize ∧
    identityPageAddr ramSize + 4096 ≤ entry.addr + entry.size
  tried : ∀ iomem, Shows iomem (e820 ramSize) → ∃ addrs, identityAddrs iomem = some addrs ∧ identityPageAddr ramSize ∈ addrs

section Hex

variable {c : Char} {n : Nat}

def IsHex (c : Char) : Prop := ∃ d < 16, c = Nat.digitChar d

theorem IsHex.plain (h : IsHex c) : Text.isWhitespace c = false ∧ c ≠ ':' ∧ c ≠ '-' ∧ c ≠ '+' := by
  obtain ⟨d, hd, rfl⟩ := h
  revert d
  decide

theorem hexDigit_digitChar : ∀ d < 16, hexDigit (Nat.digitChar d) = some d := by decide

theorem isHex_hex8 (n : Nat) : ∀ c ∈ hex8 n, IsHex c := Text.mem_padded (by decide) _

theorem hex8_ne_nil (n : Nat) : hex8 n ≠ [] := by
  apply List.append_ne_nil_of_right_ne_nil
  rw [Nat.toDigits_eq_if (by decide)]
  split
  · exact List.cons_ne_nil _ _
  · exact List.append_ne_nil_of_right_ne_nil _ (List.cons_ne_nil _ _)

theorem fromStrRadix_hex8 (h : n < 2 ^ 64) : fromStrRadix (hex8 n) = some n := by
  have hhead : (hex8 n).head? ≠ some '+' := by
    intro hplus
    exact (isHex_hex8 n '+' (List.mem_of_mem_head? hplus)).plain.2.2.2 rfl
  rw [fromStrRadix, if_neg hhead, if_neg (hex8_ne_nil n)]
  apply Text.foldlM_padded (by decide)
  intro m d hd hle
  rw [pushDigit, hexDigit_digitChar d hd, Option.bind_some, if_pos (by omega)]

end Hex

section Lines

variable {entries : List E820Entry} {iomem : List (List Char)}

theorem trim_space {w : List Char} (hw : ∀ c ∈ w, Text.isWhitespace c = false) : trim (w ++ [' ']) = w := by
  cases w with
  | nil => rfl
  | cons c w =>
    rw [trim, List.cons_append, List.dropWhile_cons_of_neg (by simp [hw c List.mem_cons_self]), ← List.cons_append,
      List.rdropWhile_concat_pos _ _ _ (by decide), List.rdropWhile_eq_self_iff]
    intro hne
    rw [hw _ (List.getLast_mem hne)]
    decide

theorem trim_word {w : List Char} (hw : ∀ c ∈ w, Text.isWhitespace c = false) : trim w = w := by
  cases w with
  | nil => rfl
  | cons c w =>
    rw [trim, List.dropWhile_cons_of_neg (by simp [hw c List.mem_cons_self]), List.rdropWhile_eq_self_iff]
    intro hne
    rw [hw _ (List.getLast_mem hne)]
    decide

theorem splitOn_word {w rest : List Char} {c : Char} (hw : c ∉ w) : (w ++ c :: rest).splitOn c = w :: rest.splitOn c := by
  have hsingle : w.splitOnP (· == c) = [w] := by
    apply List.splitOnP_eq_singleton
    intro d hd
    exact beq_false_of_ne fun h => hw (h ▸ hd)
  rw [List.splitOn, @List.splitOnP_append_cons _ (· == c) w rest c (beq_self_eq_true c), hsingle]
  rfl

theorem endStr_iomemLine (entry : E820Entry) : endStr (iomemLine entry) = some (hex8 (E820Entry.lastByte entry)) := by
  have hstart := fun c hc => (isHex_hex8 entry.addr c hc).plain
  have hend := fun c hc => (isHex_hex8 (E820Entry.lastByte entry) c hc).plain
  let range := hex8 entry.addr ++ '-' :: hex8 (E820Entry.lastByte entry)
  have hline : iomemLine entry = (range ++ [' ']) ++ ':' :: " System RAM".toList := by
    simp [iomemLine, range]
  have hrange : ∀ c ∈ range, Text.isWhitespace c = false ∧ c ≠ ':' := by
    intro c hc
    rcases List.mem_append.mp hc with hc | hc
    · exact ⟨(hstart c hc).1, (hstart c hc).2.1⟩
    · rcases List.mem_cons.mp hc with rfl | hc
      · decide
      · exact ⟨(hend c hc).1, (hend c hc).2.1⟩
  have hcolon : ':' ∉ range ++ [' '] := by
    rw [List.mem_append, not_or]
    exact ⟨fun h => (hrange _ h).2 rfl, by decide⟩
  have hdash : '-' ∉ hex8 entry.addr := fun h => (hstart _ h).2.2.1 rfl
  have hdash' : '-' ∉ hex8 (E820Entry.lastByte entry) := fun h => (hend _ h).2.2.1 rfl
  have hlast : (hex8 (E820Entry.lastByte entry)).splitOn '-' = [hex8 (E820Entry.lastByte entry)] :=
    List.splitOnP_eq_singleton fun d hd => beq_false_of_ne fun h => hdash' (h ▸ hd)
  rw [endStr, hline, splitOn_word hcolon, List.headD_cons, trim_space fun c hc => (hrange c hc).1, splitOn_word hdash,
    hlast]
  exact congrArg some (trim_word fun c hc => (hend c hc).1)

theorem systemRam_occurs (entry : E820Entry) : systemRam <:+: iomemLine entry := by
  have htext : " : System RAM".toList = " : ".toList ++ systemRam := by decide
  refine ⟨hex8 entry.addr ++ '-' :: (hex8 (E820Entry.lastByte entry) ++ " : ".toList), [], ?_⟩
  rw [iomemLine, htext]
  simp

theorem scanIomem_filter (ramEnd : Nat) (iomem : List (List Char)) :
    scanIomem ramEnd (iomem.filter fun line => decide (systemRam <:+: line)) = scanIomem ramEnd iomem := by
  induction iomem generalizing ramEnd with
  | nil => rfl
  | cons line lines ih =>
    by_cases hram : systemRam <:+: line
    · rw [List.filter_cons_of_pos (by simpa using hram), scanIomem, scanIomem, if_pos hram, if_pos hram]
      simp only [ih]
    · rw [List.filter_cons_of_neg (by simpa using hram), scanIomem, if_neg hram, ih]

theorem scanIomem_lines (ramEnd : Nat) (h : ∀ entry ∈ entries, E820Entry.lastByte entry < 2 ^ 64) :
    scanIomem ramEnd (entries.map iomemLine) =
      some (entries.foldl (fun ramEnd entry => max ramEnd (E820Entry.lastByte entry)) ramEnd) := by
  induction entries generalizing ramEnd with
  | nil => rfl
  | cons entry entries ih =>
    obtain ⟨hentry, hrest⟩ := List.forall_mem_cons.mp h
    have hmax : (if E820Entry.lastByte entry > ramEnd then E820Entry.lastByte entry else ramEnd) =
        max ramEnd (E820Entry.lastByte entry) := by
      split
      · omega
      · omega
    rw [List.map_cons, scanIomem, if_pos (systemRam_occurs entry), endStr_iomemLine]
    dsimp only
    rw [fromStrRadix_hex8 hentry]
    dsimp only
    rw [hmax, ih _ hrest, List.foldl_cons]

theorem scanIomem_shows (hshows : Shows iomem entries)
    (h : ∀ entry ∈ entries, E820Entry.lastByte entry < 2 ^ 64) :
    scanIomem 0 iomem = some ((entries.filter fun e => e.type = .ram).foldl
      (fun ramEnd entry => max ramEnd (E820Entry.lastByte entry)) 0) := by
  rw [← scanIomem_filter, hshows, scanIomem_lines]
  exact fun entry hentry => h entry (List.mem_of_mem_filter hentry)

theorem shows_lines (entries : List E820Entry) : Shows ((entries.filter fun e => e.type = .ram).map iomemLine) entries := by
  rw [Shows, List.filter_eq_self]
  intro line hline
  obtain ⟨entry, -, rfl⟩ := List.mem_map.mp hline
  exact decide_eq_true (systemRam_occurs entry)

end Lines

section Sizes

variable {ramSize : Nat}

theorem u64Sub_of_le {a b : Nat} (h : b ≤ a) (ha : a < 2 ^ 64) : u64Sub a b = a - b := by
  unfold u64Sub
  omega

theorem identityPageAddr_small (hmin : 0x200000 ≤ ramSize) (hmax : ramSize ≤ mmioHoleStart) :
    identityPageAddr ramSize = ramSize - 0x20000 := by
  unfold mmioHoleStart at hmax
  rw [identityPageAddr, if_pos (by omega)]
  exact if_neg (by unfold mmioHoleStart; omega)

theorem identityPageAddr_large (h : mmioHoleStart < ramSize) :
    0xBFFE0000 ≤ identityPageAddr ramSize ∧ identityPageAddr ramSize < mmioHoleStart := by
  unfold mmioHoleStart at h ⊢
  rw [identityPageAddr, if_pos (by omega)]
  dsimp only
  split
  · unfold mmioHoleStart
    omega
  · unfold mmioHoleStart at *
    omega

theorem e820_small (hmin : 0x120000 ≤ ramSize) (hmax : ramSize ≤ mmioHoleStart) : e820 ramSize =
    [⟨0, 0x9FC00, .ram⟩, ⟨0x9FC00, 0x400, .reserved⟩, ⟨0xF0000, 0x10000, .reserved⟩,
      ⟨0x100000, ramSize - 0x120000, .ram⟩, ⟨ramSize - 0x20000, 0x20000, .reserved⟩,
      ⟨0xFEFFC000, 0x4000, .reserved⟩, ⟨0xFFFC0000, 0x40000, .reserved⟩] := by
  have hsize := hmax
  unfold mmioHoleStart at hsize
  have hend : u64Sub ramSize reservedTop = ramSize - 0x20000 := u64Sub_of_le (by unfold reservedTop; omega) (by omega)
  have hram : u64Sub (ramSize - 0x20000) 0x100000 = ramSize - 0x120000 := by
    rw [u64Sub_of_le (by omega) (by omega), Nat.sub_sub]
  rw [e820, e820Ram, if_pos hmax]
  dsimp only
  rw [hend, hram]
  rfl

theorem scanIomem_small (hmin : 0x200000 ≤ ramSize) (hmax : ramSize ≤ mmioHoleStart) {iomem : List (List Char)}
    (hshows : Shows iomem (e820 ramSize)) : ∃ ramEnd, scanIomem 0 iomem = some ramEnd ∧ ramEnd + 0x20001 = ramSize := by
  have hsize := hmax
  unfold mmioHoleStart at hsize
  have hbounds : ∀ entry ∈ e820 ramSize, E820Entry.lastByte entry < 2 ^ 64 := by
    rw [e820_small (by omega) hmax]
    simp only [List.forall_mem_cons, E820Entry.lastByte]
    refine ⟨by omega, by omega, by omega, by omega, by omega, by omega, by omega, fun entry hentry => ?_⟩
    cases hentry
  refine ⟨_, scanIomem_shows hshows hbounds, ?_⟩
  obtain ⟨ram, hram⟩ : ∃ ram, ram = ramSize - 0x120000 := ⟨_, rfl⟩
  rw [e820_small (by omega) hmax, ← hram]
  have hlow : E820Entry.lastByte ⟨0, 0x9FC00, .ram⟩ = 0x9FBFF := rfl
  have hhigh : E820Entry.lastByte ⟨0x100000, ram, .ram⟩ = 0xFFFFF + ram := by
    change 0x100000 + ram - 1 = 0xFFFFF + ram
    omega
  change max (max 0 (E820Entry.lastByte ⟨0, 0x9FC00, .ram⟩)) (E820Entry.lastByte ⟨0x100000, ram, .ram⟩) + 0x20001 = ramSize
  rw [hlow, hhigh]
  omega

theorem identityAddrs_small (hmin : 0x200000 ≤ ramSize) (hmax : ramSize ≤ mmioHoleStart) {iomem : List (List Char)}
    (hshows : Shows iomem (e820 ramSize)) : identityAddrs iomem = some [ramSize - 0x40000, 0xBFFE0000] := by
  obtain ⟨ramEnd, hscan, hend⟩ := scanIomem_small hmin hmax hshows
  unfold mmioHoleStart at hmax
  have haddr : u64Sub ((ramEnd + 1) % 2 ^ 64) 0x20000 = ramSize - 0x40000 := by
    unfold u64Sub
    omega
  have hlow : ¬ ramSize - 0x40000 ≥ mmioHoleStart := by
    unfold mmioHoleStart
    omega
  have hlast : mmioHoleStart - 0x20000 = 0xBFFE0000 := by decide
  have hfound : ramEnd > 0x20000 := by omega
  rw [identityAddrs, hscan]
  simp only [Option.map_some, haddr, if_pos hfound, if_neg hlow, hlast, List.singleton_append]

theorem inRam_small (hmin : 0x200000 ≤ ramSize) (hmax : ramSize ≤ mmioHoleStart) (gpa : Nat)
    (hgpa : gpa < identityPageAddr ramSize + 4096) : ∃ r ∈ (forkBoot ramSize).regions, r.Covers gpa := by
  rw [identityPageAddr_small hmin hmax] at hgpa
  have hregions : (forkBoot ramSize).regions = [⟨0, 0, ramSize + 0, 0⟩] := by simp [forkBoot, regionsFor, hmax]
  rw [hregions]
  exact ⟨_, List.mem_singleton_self _, Nat.zero_le _, by dsimp only; omega⟩

theorem written_small (hmin : 0x200000 ≤ ramSize) (hmax : ramSize ≤ mmioHoleStart) (store : ByteStore)
    (identity : VmIdentity) : ∃ offset store',
      (forkFromTemplate ramSize).gpaToOffset (identityPageAddr ramSize) = .ok offset ∧
      injectIdentityAt (forkFromTemplate ramSize) store identity ramSize = .ok store' ∧
      readBytes store' offset 4096 = identity.toPage := by
  have hmem : forkFromTemplate ramSize = .fromRaw ramSize := if_neg (by omega)
  have hoffset : (GuestMem.fromRaw ramSize).gpaToOffset (identityPageAddr ramSize) = .ok (identityPageAddr ramSize) := by
    refine (gpaToOffset_fromRaw _ _ _).mpr ⟨?_, rfl⟩
    rw [identityPageAddr_small hmin hmax]
    omega
  have hlength := toPage_length identity
  refine ⟨_, writeBytes store (identityPageAddr ramSize) identity.toPage, hmem ▸ hoffset, ?_, ?_⟩
  · have hfits : ¬ identityPageAddr ramSize + identity.toPage.length > (GuestMem.fromRaw ramSize).size := by
      rw [hlength, identityPageAddr_small hmin hmax]
      simp only [GuestMem.fromRaw]
      omega
    rw [hmem, injectIdentityAt, put, perform, writeAt, hoffset]
    dsimp only [bind, Except.bind]
    rw [if_neg hfits]
    rfl
  · rw [← hlength]
    exact readBytes_writeBytes _ _ _

theorem reserved_small (hmin : 0x200000 ≤ ramSize) (hmax : ramSize ≤ mmioHoleStart) :
    ∃ entry ∈ e820 ramSize, entry.type = .reserved ∧ entry.addr ≤ identityPageAddr ramSize ∧
      identityPageAddr ramSize + 4096 ≤ entry.addr + entry.size := by
  rw [e820_small (by omega) hmax, identityPageAddr_small hmin hmax]
  exact ⟨⟨ramSize - 0x20000, 0x20000, .reserved⟩, by simp, rfl, Nat.le_refl _, by dsimp only; omega⟩

theorem not_reserved_large (h : mmioHoleStart < ramSize) : ¬ ∃ entry ∈ e820 ramSize, entry.type = .reserved ∧
    entry.addr ≤ identityPageAddr ramSize ∧ identityPageAddr ramSize + 4096 ≤ entry.addr + entry.size := by
  obtain ⟨hlow, hhigh⟩ := identityPageAddr_large h
  unfold mmioHoleStart at hhigh
  rintro ⟨entry, hentry, htype, haddr, hend⟩
  simp only [e820, e820Ram, if_neg (show ¬ ramSize ≤ mmioHoleStart by omega), List.mem_append, List.mem_cons,
    List.not_mem_nil, or_false] at hentry
  rcases hentry with ((rfl | rfl | rfl) | rfl | rfl) | rfl | rfl
  · cases htype
  · dsimp only at hend
    omega
  · dsimp only at hend
    omega
  · cases htype
  · cases htype
  · dsimp only at haddr
    omega
  · dsimp only at haddr
    omega

/-- The page is where it should be, and the agent looks for it there, for one size of RAM only. -/
theorem pageFound_iff (hmin : 0x200000 ≤ ramSize) : PageFound ramSize ↔ ramSize = mmioHoleStart := by
  constructor
  · intro h
    rcases Nat.lt_or_ge mmioHoleStart ramSize with hlarge | hmax
    · exact absurd h.reserved (not_reserved_large hlarge)
    · obtain ⟨addrs, haddrs, hmem⟩ := h.tried _ (shows_lines _)
      rw [identityAddrs_small hmin hmax (shows_lines _)] at haddrs
      cases haddrs
      rw [identityPageAddr_small hmin hmax, List.mem_cons, List.mem_singleton] at hmem
      unfold mmioHoleStart
      omega
  · rintro rfl
    refine ⟨fun gpa _ hgpa => inRam_small hmin (Nat.le_refl _) gpa hgpa, written_small hmin (Nat.le_refl _),
      reserved_small hmin (Nat.le_refl _), fun iomem hshows => ⟨_, identityAddrs_small hmin (Nat.le_refl _) hshows, ?_⟩⟩
    rw [identityPageAddr_small hmin (Nat.le_refl _)]
    exact List.mem_cons_of_mem _ List.mem_cons_self

end Sizes

theorem pageFound_threeGb : 0x200000 ≤ 0xC0000000 ∧ PageFound 0xC0000000 :=
  ⟨by omega, (pageFound_iff (by omega)).mpr rfl⟩

theorem pageFound_fails : ¬ PageFound 0x20000000 ∧ ¬ PageFound 0x100000000 ∧
    (∀ iomem, Shows iomem (e820 0x20000000) → identityAddrs iomem = some [0x1FFC0000, 0xBFFE0000]) ∧
    identityPageAddr 0x20000000 = 0x1FFE0000 := by
  have hmax : 0x20000000 ≤ mmioHoleStart := by decide
  refine ⟨fun h => ?_, fun h => not_reserved_large (by decide) h.reserved, fun iomem hshows => ?_, by decide⟩
  · obtain ⟨addrs, haddrs, hmem⟩ := h.tried _ (shows_lines _)
    rw [identityAddrs_small (by omega) hmax (shows_lines _)] at haddrs
    cases haddrs
    revert hmem
    decide
  · exact identityAddrs_small (by omega) hmax hshows

end CloneVmm.Boot.Identity
