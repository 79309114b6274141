import CloneVmm.Lib.HostFile

/-!
`storage/qcow2.rs`: the header of an image.
-/

namespace CloneVmm.Storage

open CloneVmm.Lib

abbrev Bytes := List UInt8

def qcow2Magic : Nat := 0x514649fb

def qcow2V3HeaderSize : Nat := 104

def defaultRefcountOrder : Nat := 4

/-- The errors of the source, which it tells apart by their texts; `panicked` is an index out of
bounds, and `refused` is what the host says to a file that gets too long. -/
inductive Qcow2Error
  | unexpectedEof | refused | badMagic | unsupportedVersion | badClusterBits | encrypted
  | offsetOverflow | readPastEnd | writePastEnd | l1OutOfBounds | compressed | backingPathTooLong
  | backingPathNotUtf8 | noSuchFile | panicked
  deriving DecidableEq

structure Qcow2Header where
  magic : Nat
  version : Nat
  backingFileOffset : Nat
  backingFileSize : Nat
  clusterBits : Nat
  size : Nat
  cryptMethod : Nat
  l1Size : Nat
  l1TableOffset : Nat
  refcountTableOffset : Nat
  refcountTableClusters : Nat
  nbSnapshots : Nat
  snapshotsOffset : Nat
  incompatibleFeatures : Nat
  compatibleFeatures : Nat
  autoclearFeatures : Nat
  refcountOrder : Nat
  headerLength : Nat
  deriving DecidableEq

namespace Qcow2Header

def beAt (buf : Bytes) (off w : Nat) : Nat := beNat ((buf.drop off).take w)

def parse (buf : Bytes) (incompatible compatible autoclear order length : Nat) : Qcow2Header where
  magic := beAt buf 0 4
  version := beAt buf 4 4
  backingFileOffset := beAt buf 8 8
  backingFileSize := beAt buf 16 4
  clusterBits := beAt buf 20 4
  size := beAt buf 24 8
  cryptMethod := beAt buf 32 4
  l1Size := beAt buf 36 4
  l1TableOffset := beAt buf 40 8
  refcountTableOffset := beAt buf 48 8
  refcountTableClusters := beAt buf 56 4
  nbSnapshots := beAt buf 60 4
  snapshotsOffset := beAt buf 64 8
  incompatibleFeatures := incompatible
  compatibleFeatures := compatible
  autoclearFeatures := autoclear
  refcountOrder := order
  headerLength := length

def parseV3 (buf : Bytes) : Qcow2Header :=
  parse buf (beAt buf 68 8) (beAt buf 76 8) (beAt buf 84 8) (beAt buf 92 4) (beAt buf 96 4)

def readFrom (file : HostFile) : Except Qcow2Error Qcow2Header :=
  match file.readExact 0 72 with
  | none => .error .unexpectedEof
  | some buf =>
    if beAt buf 0 4 ≠ qcow2Magic then .error .badMagic
    else if beAt buf 4 4 ≠ 2 ∧ beAt buf 4 4 ≠ 3 then .error .unsupportedVersion
    else if ¬ (9 ≤ beAt buf 20 4 ∧ beAt buf 20 4 ≤ 21) then .error .badClusterBits
    else if beAt buf 32 4 ≠ 0 then .error .encrypted
    else if beAt buf 4 4 = 3 then
      match file.readExact 72 32 with
      | none => .error .unexpectedEof
      | some ext => .ok (parseV3 (buf ++ ext))
    else .ok (parse buf 0 0 0 defaultRefcountOrder 72)

def fixedBytes (h : Qcow2Header) : Bytes :=
  beBytes 4 h.magic ++ beBytes 4 h.version ++ beBytes 8 h.backingFileOffset
    ++ beBytes 4 h.backingFileSize ++ beBytes 4 h.clusterBits ++ beBytes 8 h.size
    ++ beBytes 4 h.cryptMethod ++ beBytes 4 h.l1Size ++ beBytes 8 h.l1TableOffset
    ++ beBytes 8 h.refcountTableOffset ++ beBytes 4 h.refcountTableClusters ++ beBytes 4 h.nbSnapshots

def bytes (h : Qcow2Header) : Bytes :=
  if h.version = 3 then
    h.fixedBytes ++ (beBytes 8 h.snapshotsOffset).take 4 ++ beBytes 8 h.incompatibleFeatures
      ++ beBytes 8 h.compatibleFeatures ++ beBytes 8 h.autoclearFeatures ++ beBytes 4 h.refcountOrder
      ++ beBytes 4 h.headerLength ++ [0, 0, 0, 0]
  else h.fixedBytes ++ beBytes 8 h.snapshotsOffset

def clusterSize (h : Qcow2Header) : Nat := 2 ^ h.clusterBits

def l2EntriesPerTable (h : Qcow2Header) : Nat := h.clusterSize / 8

structure Fits (h : Qcow2Header) : Prop where
  magic : h.magic = qcow2Magic
  version : h.version = 2 ∨ h.version = 3
  backingFileOffset : h.backingFileOffset < 2 ^ 64
  backingFileSize : h.backingFileSize < 2 ^ 32
  clusterBits : 9 ≤ h.clusterBits ∧ h.clusterBits ≤ 21
  size : h.size < 2 ^ 64
  cryptMethod : h.cryptMethod = 0
  l1Size : h.l1Size < 2 ^ 32
  l1TableOffset : h.l1TableOffset < 2 ^ 64
  refcountTableOffset : h.refcountTableOffset < 2 ^ 64
  refcountTableClusters : h.refcountTableClusters < 2 ^ 32
  nbSnapshots : h.nbSnapshots < 2 ^ 32
  snapshotsOffset : h.snapshotsOffset < 2 ^ 64
  incompatibleFeatures : h.incompatibleFeatures < 2 ^ 64
  compatibleFeatures : h.compatibleFeatures < 2 ^ 64
  autoclearFeatures : h.autoclearFeatures < 2 ^ 64
  refcountOrder : h.refcountOrder < 2 ^ 32
  headerLength : h.headerLength < 2 ^ 32
  overlap : h.version = 3 → h.snapshotsOffset % 2 ^ 32 = h.incompatibleFeatures / 2 ^ 32
  defaults : h.version = 2 → h.incompatibleFeatures = 0 ∧ h.compatibleFeatures = 0 ∧
    h.autoclearFeatures = 0 ∧ h.refcountOrder = defaultRefcountOrder ∧ h.headerLength = 72

def length (h : Qcow2Header) : Nat := if h.version = 3 then qcow2V3HeaderSize else 72

theorem bytes_length (h : Qcow2Header) : h.bytes.length = h.length := by
  unfold bytes length
  split
  · simp [fixedBytes, qcow2V3HeaderSize]
  · simp [fixedBytes]

theorem beAt_append_right (xs ys : Bytes) (off w : Nat) (h : xs.length ≤ off) :
    beAt (xs ++ ys) off w = beAt ys (off - xs.length) w := by
  rw [beAt, beAt, List.drop_append, List.drop_eq_nil_of_le h, List.nil_append]

theorem beAt_beBytes (w v : Nat) (rest : Bytes) : beAt (beBytes w v ++ rest) 0 w = v % 256 ^ w := by
  rw [beAt, List.drop_zero, List.take_append_of_le_length (by simp), List.take_of_length_le (by simp),
    beNat_beBytes]

theorem overlap_eq {snapshots features : Nat} (rest : Bytes) (h : snapshots % 2 ^ 32 = features / 2 ^ 32) :
    (beBytes 8 snapshots).take 4 ++ (beBytes 8 features ++ rest) =
      beBytes 8 snapshots ++ (beBytes 4 features ++ rest) := by
  have hhalf : beBytes 4 snapshots = beBytes 4 (features / 256 ^ 4) := by
    rw [← beBytes_mod 4 snapshots]
    exact congrArg (beBytes 4) h
  rw [beBytes_add 4 4 snapshots, beBytes_add 4 4 features, hhalf,
    List.take_append_of_le_length (by simp), List.take_of_length_le (by simp)]
  simp only [List.append_assoc]

theorem parse_bytes {h : Qcow2Header} (hh : h.Fits) (incompatible compatible autoclear order length : Nat) :
    parse h.bytes incompatible compatible autoclear order length =
      { h with incompatibleFeatures := incompatible, compatibleFeatures := compatible,
               autoclearFeatures := autoclear, refcountOrder := order, headerLength := length } := by
  obtain ⟨rest, hbytes⟩ : ∃ rest, h.bytes = h.fixedBytes ++ (beBytes 8 h.snapshotsOffset ++ rest) := by
    unfold bytes
    split
    · refine ⟨beBytes 4 h.incompatibleFeatures ++ (beBytes 8 h.compatibleFeatures
        ++ beBytes 8 h.autoclearFeatures ++ beBytes 4 h.refcountOrder ++ beBytes 4 h.headerLength
        ++ [0, 0, 0, 0]), ?_⟩
      rw [← overlap_eq _ (hh.overlap ‹_›)]
      simp only [List.append_assoc]
    · exact ⟨[], by rw [List.append_nil]⟩
  obtain ⟨h1, h2, h3, h4, h5, h6, h7, h8, h9, h10, h11, h12, h13, -, -, -, -, -, -, -⟩ := hh
  have hmagic : h.magic < 2 ^ 32 := by rw [h1]; decide
  have hversion : h.version < 2 ^ 32 := by omega
  have hbits : h.clusterBits < 2 ^ 32 := by omega
  have hcrypt : h.cryptMethod < 2 ^ 32 := by omega
  rw [hbytes]
  simp only [parse, fixedBytes, List.append_assoc]
  simp (disch := simp) only [beAt_append_right, beAt_beBytes, beBytes_length, Nat.reduceSub, Nat.reducePow]
  simp (disch := omega) only [Nat.mod_eq_of_lt]

theorem parseV3_bytes {h : Qcow2Header} (hh : h.Fits) (hversion : h.version = 3) : parseV3 h.bytes = h := by
  obtain ⟨-, -, -, -, -, -, -, -, -, -, -, -, -, h1, h2, h3, h4, h5, -, -⟩ := id hh
  have hmin : min 4 8 = 4 := rfl
  rw [parseV3, parse_bytes hh, bytes, if_pos hversion]
  simp only [fixedBytes, List.append_assoc]
  simp (disch := simp) only [beAt_append_right, beAt_beBytes, beBytes_length, List.length_take, hmin,
    Nat.reduceSub, Nat.reducePow]
  simp (disch := omega) only [Nat.mod_eq_of_lt]

theorem readFrom_of_bytes {h : Qcow2Header} (hh : h.Fits) {file : HostFile} (hlen : h.length ≤ file.len)
    (hbytes : readBytes file.data 0 h.length = h.bytes) : readFrom file = .ok h := by
  have hle : 72 ≤ h.length := by
    unfold length qcow2V3HeaderSize
    split <;> omega
  have hfirst : readBytes file.data 0 72 = h.bytes.take 72 := by
    rw [← hbytes, readBytes_take _ _ _ _ hle]
  have hfield : ∀ off w, off + w ≤ 72 → beAt (readBytes file.data 0 72) off w = beAt h.bytes off w := by
    intro off w hle
    rw [hfirst, beAt, beAt, List.drop_take, List.take_take, Nat.min_eq_left (by omega)]
  have hparse := parse_bytes hh 0 0 0 0 0
  have hmagic : beAt h.bytes 0 4 = h.magic := congrArg magic hparse
  have hversion : beAt h.bytes 4 4 = h.version := congrArg version hparse
  have hbits : beAt h.bytes 20 4 = h.clusterBits := congrArg clusterBits hparse
  have hcrypt : beAt h.bytes 32 4 = h.cryptMethod := congrArg cryptMethod hparse
  unfold readFrom
  rw [file.readExact_eq (by omega)]
  simp only [hfield, hmagic, hversion, hbits, hcrypt, Nat.reduceAdd, Nat.reduceLeDiff, hh.magic, hh.cryptMethod,
    ne_eq, not_true, if_false]
  rw [if_neg (by have := hh.version; omega), if_neg (not_not.mpr hh.clusterBits)]
  by_cases hv : h.version = 3
  · have hlen' : h.length = 104 := if_pos hv
    have hsplit : readBytes file.data 0 72 ++ readBytes file.data 72 32 = h.bytes := by
      rw [← hbytes, hlen']
      exact (readBytes_append file.data 0 72 32).symm
    rw [if_pos hv, file.readExact_eq (by omega)]
    dsimp only
    rw [hsplit, parseV3_bytes hh hv]
  · have hlen' : h.length = 72 := if_neg hv
    obtain ⟨h1, h2, h3, h4, h5⟩ := hh.defaults (by have := hh.version; omega)
    rw [hlen'] at hbytes
    rw [if_neg hv, hbytes, parse_bytes hh]
    cases h
    subst h1 h2 h3 h4 h5
    rfl

theorem readFrom_congr {h : Qcow2Header} {file file' : HostFile} (hlen : file.len ≤ file'.len)
    (hdata : ∀ i, i < 104 → file'.data i = file.data i) (hread : readFrom file = .ok h) :
    readFrom file' = .ok h := by
  unfold readFrom at hread ⊢
  cases hfirst : file.readExact 0 72 with
  | none =>
    rw [hfirst] at hread
    cases hread
  | some buf =>
    rw [HostFile.readExact_congr hlen (fun i _ hi => hdata i (by omega)) hfirst]
    rw [hfirst] at hread
    dsimp only at hread ⊢
    split at hread
    · cases hread
    · split at hread
      · cases hread
      · split at hread
        · cases hread
        · split at hread
          · cases hread
          · rw [if_neg ‹_›, if_neg ‹_›, if_neg ‹_›, if_neg ‹_›]
            split at hread
            · rw [if_pos ‹_›]
              cases hext : file.readExact 72 32 with
              | none =>
                rw [hext] at hread
                cases hread
              | some ext =>
                rw [HostFile.readExact_congr hlen (fun i _ hi => hdata i (by omega)) hext]
                rw [hext] at hread
                exact hread
            · rw [if_neg ‹_›]
              exact hread

end Qcow2Header

end CloneVmm.Storage
