import CloneVmm.Lib.JsonText
import CloneVmm.Lib.Text

namespace CloneVmm.Lib.Newc

open JsonText

def magic : List UInt8 := [48, 55, 48, 55, 48, 49]

def trailerName : List UInt8 := [84, 82, 65, 73, 76, 69, 82, 33, 33, 33]

def headerSize : Nat := 110

def align4 (n : Nat) : Nat := (n + 3) / 4 * 4

def hex8 (n : Nat) : List UInt8 :=
  let digits := Nat.toDigits 16 n
  (List.replicate (8 - digits.length) '0' ++ digits).map fun c => UInt8.ofNat c.toNat

structure Header where
  ino : Nat
  mode : Nat
  uid : Nat
  gid : Nat
  nlink : Nat
  mtime : Nat
  filesize : Nat
  devmajor : Nat
  devminor : Nat
  rdevmajor : Nat
  rdevminor : Nat
  namesize : Nat
  check : Nat
  deriving DecidableEq

def Header.toList (h : Header) : List Nat :=
  [h.ino, h.mode, h.uid, h.gid, h.nlink, h.mtime, h.filesize, h.devmajor, h.devminor, h.rdevmajor, h.rdevminor,
    h.namesize, h.check]

def Header.ofList : List Nat → Option Header
  | [ino, mode, uid, gid, nlink, mtime, filesize, devmajor, devminor, rdevmajor, rdevminor, namesize, check] =>
    some ⟨ino, mode, uid, gid, nlink, mtime, filesize, devmajor, devminor, rdevmajor, rdevminor, namesize, check⟩
  | _ => none

def Header.bytes (h : Header) : List UInt8 := magic ++ h.toList.flatMap hex8

structure Entry where
  name : List UInt8
  mode : Nat
  rdevmajor : Nat
  rdevminor : Nat
  data : List UInt8
  deriving DecidableEq

def readFields : Nat → List UInt8 → Option (List Nat)
  | 0, _ => some []
  | n + 1, bytes => do
    let v ← hexOf ((bytes.take 8).map fun b => Char.ofNat b.toNat)
    let vs ← readFields n (bytes.drop 8)
    return v :: vs

def readHeader (archive : List UInt8) (pos : Nat) : Option Header :=
  let header := (archive.drop pos).take headerSize
  if header.length < headerSize ∨ header.take 6 ≠ magic then none
  else (readFields 13 (header.drop 6)).bind Header.ofList

def readEntry (archive : List UInt8) (pos : Nat) : Option (Entry × Nat) :=
  (readHeader archive pos).bind fun h =>
    let name := (archive.drop (pos + headerSize)).take h.namesize
    let dataPos := align4 (pos + headerSize + h.namesize)
    let data := (archive.drop dataPos).take h.filesize
    if name.length < h.namesize ∨ name.getLastD 1 ≠ 0 ∨ data.length < h.filesize then none
    else some (⟨name.dropLast, h.mode, h.rdevmajor, h.rdevminor, data⟩, align4 (dataPos + h.filesize))

theorem le_align4 (n : Nat) : n ≤ align4 n := by
  rw [align4]
  omega

theorem readEntry_next {archive : List UInt8} {pos next : Nat} {entry : Entry}
    (h : readEntry archive pos = some (entry, next)) : pos < archive.length ∧ pos < next := by
  obtain ⟨header, hheader, h⟩ := Option.bind_eq_some_iff.mp h
  have hlong : pos < archive.length := by
    by_contra hge
    have hnil : archive.drop pos = [] := List.drop_eq_nil_of_le (Nat.not_lt.mp hge)
    rw [readHeader, hnil] at hheader
    cases hheader
  dsimp only at h
  split at h
  · cases h
  · cases h
    have hname := le_align4 (pos + headerSize + header.namesize)
    have hdata := le_align4 (align4 (pos + headerSize + header.namesize) + header.filesize)
    simp only [headerSize] at *
    exact ⟨hlong, by omega⟩

def readArchive (archive : List UInt8) (pos : Nat) : Option (List (Nat × Entry) × Nat) :=
  match _h : readEntry archive pos with
  | none => none
  | some (entry, next) =>
    if entry.name = trailerName then some ([], pos)
    else (readArchive archive next).map fun found => ((pos, entry) :: found.1, found.2)
termination_by archive.length - pos
decreasing_by
  have hnext := readEntry_next _h
  omega

theorem readArchive_trailer {archive : List UInt8} {pos next : Nat} {entry : Entry}
    (h : readEntry archive pos = some (entry, next)) (hname : entry.name = trailerName) :
    readArchive archive pos = some ([], pos) := by
  rw [readArchive]
  split
  · simp_all
  · simp_all

theorem readArchive_entry {archive : List UInt8} {pos next : Nat} {entry : Entry}
    (h : readEntry archive pos = some (entry, next)) (hname : entry.name ≠ trailerName) :
    readArchive archive pos = (readArchive archive next).map fun found => ((pos, entry) :: found.1, found.2) := by
  rw [readArchive]
  split
  · simp_all
  · simp_all

theorem hexValue_digitChar : ∀ d < 16, hexValue (Nat.digitChar d) = some d := by decide

theorem hexOf_padded (k n : Nat) : hexOf (List.replicate k '0' ++ Nat.toDigits 16 n) = some n := by
  apply Text.foldlM_padded (by decide)
  intro m d hd _
  rw [hexValue_digitChar d hd]
  rfl

theorem digitChar_byte : ∀ d < 16, Char.ofNat (UInt8.ofNat (Nat.digitChar d).toNat).toNat = Nat.digitChar d := by
  decide

theorem hexOf_hex8 (n : Nat) : hexOf ((hex8 n).map fun b => Char.ofNat b.toNat) = some n := by
  have hascii : ∀ c ∈ List.replicate (8 - (Nat.toDigits 16 n).length) '0' ++ Nat.toDigits 16 n,
      ((fun b : UInt8 => Char.ofNat b.toNat) ∘ fun c => UInt8.ofNat c.toNat) c = c := by
    intro c hc
    obtain ⟨d, hd, rfl⟩ := Text.mem_padded (by decide) _ c hc
    exact digitChar_byte d hd
  rw [hex8, List.map_map, List.map_congr_left hascii, List.map_id', hexOf_padded]

theorem hex8_length {n : Nat} (h : n < 2 ^ 32) : (hex8 n).length = 8 := by
  have hle : (Nat.toDigits 16 n).length ≤ 8 := (Nat.length_toDigits_le_iff (by decide) (by decide)).mpr h
  rw [hex8, List.length_map, List.length_append, List.length_replicate]
  omega

theorem readFields_hex8 (vs : List Nat) (rest : List UInt8) (h : ∀ v ∈ vs, v < 2 ^ 32) :
    readFields vs.length (vs.flatMap hex8 ++ rest) = some vs := by
  induction vs with
  | nil => rfl
  | cons v vs ih =>
    obtain ⟨hv, hvs⟩ := List.forall_mem_cons.mp h
    rw [List.flatMap_cons, List.append_assoc, List.length_cons, readFields, List.take_left' (hex8_length hv),
      List.drop_left' (hex8_length hv), hexOf_hex8, ih hvs]
    rfl

theorem fields_length (vs : List Nat) (h : ∀ v ∈ vs, v < 2 ^ 32) : (vs.flatMap hex8).length = 8 * vs.length := by
  induction vs with
  | nil => rfl
  | cons v vs ih =>
    obtain ⟨hv, hvs⟩ := List.forall_mem_cons.mp h
    rw [List.flatMap_cons, List.length_append, hex8_length hv, ih hvs, List.length_cons]
    omega

theorem Header.bytes_length {h : Header} (hsmall : ∀ v ∈ h.toList, v < 2 ^ 32) : h.bytes.length = headerSize := by
  rw [bytes, List.length_append, fields_length _ hsmall]
  rfl

theorem readHeader_bytes {h : Header} (hsmall : ∀ v ∈ h.toList, v < 2 ^ 32) (pre rest : List UInt8) :
    readHeader (pre ++ (h.bytes ++ rest)) pre.length = some h := by
  have hlen := Header.bytes_length hsmall
  have htake : ((pre ++ (h.bytes ++ rest)).drop pre.length).take headerSize = h.bytes := by
    rw [List.drop_left, List.take_left' hlen]
  have hfields := readFields_hex8 h.toList [] hsmall
  rw [List.append_nil] at hfields
  have hdrop : h.bytes.drop 6 = h.toList.flatMap hex8 := rfl
  have hmagic : h.bytes.take 6 = magic := rfl
  simp only [readHeader, htake, hlen, hdrop, hmagic]
  rw [if_neg (by simp), show (13 : Nat) = h.toList.length from rfl, hfields]
  rfl

theorem readEntry_bytes {h : Header} (hsmall : ∀ v ∈ h.toList, v < 2 ^ 32) (pre name gap data rest : List UInt8)
    (hname : h.namesize = name.length + 1) (hdata : h.filesize = data.length)
    (hgap : pre.length + headerSize + h.namesize + gap.length = align4 (pre.length + headerSize + h.namesize)) :
    readEntry (pre ++ (h.bytes ++ (name ++ [0] ++ (gap ++ (data ++ rest))))) pre.length =
      some (⟨name, h.mode, h.rdevmajor, h.rdevminor, data⟩,
        align4 (pre.length + headerSize + h.namesize + gap.length + data.length)) := by
  have hlen := Header.bytes_length hsmall
  have hat : (pre ++ (h.bytes ++ (name ++ [0] ++ (gap ++ (data ++ rest))))).drop (pre.length + headerSize) =
      name ++ [0] ++ (gap ++ (data ++ rest)) := by
    rw [← List.drop_drop, List.drop_left, List.drop_left' hlen]
  have hend : (name ++ [0]).length = h.namesize := by rw [hname, List.length_append, List.length_singleton]
  have hafter : (pre ++ (h.bytes ++ (name ++ [0] ++ (gap ++ (data ++ rest))))).drop
      (pre.length + headerSize + h.namesize + gap.length) = data ++ rest := by
    rw [← List.drop_drop, ← List.drop_drop, hat, List.drop_left' hend, List.drop_left]
  rw [readEntry, readHeader_bytes hsmall]
  simp only [Option.bind_some, hat, ← hgap, hafter, List.take_left' hend, hdata, List.take_left]
  rw [if_neg]
  · rw [List.dropLast_concat]
  · simp [hname]

end CloneVmm.Lib.Newc
