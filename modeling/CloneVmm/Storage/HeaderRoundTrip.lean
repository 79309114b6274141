import CloneVmm.Storage.CreateLayout

namespace CloneVmm.Storage

open CloneVmm.Lib

theorem beAt_readBytes (m : ByteStore) {n off w : Nat} (h : off + w ≤ n) :
    Qcow2Header.beAt (readBytes m 0 n) off w = beNat (readBytes m off w) := by
  obtain ⟨k, rfl⟩ := Nat.exists_eq_add_of_le h
  have hsplit : readBytes m 0 (off + w + k) = readBytes m 0 off ++ (readBytes m off w ++ readBytes m (off + w) k) := by
    rw [readBytes_append, readBytes_append, Nat.zero_add, Nat.zero_add, List.append_assoc]
  rw [Qcow2Header.beAt, hsplit, List.drop_left' (readBytes_length m 0 off),
    List.take_left' (readBytes_length m off w)]

theorem beBytes_beAt (m : ByteStore) {n off w : Nat} (h : off + w ≤ n) :
    beBytes w (Qcow2Header.beAt (readBytes m 0 n) off w) = readBytes m off w := by
  have hbytes := beBytes_beNat (readBytes m off w)
  rw [readBytes_length] at hbytes
  rw [beAt_readBytes m h, hbytes]

theorem beNat_append (xs ys : Bytes) : beNat (xs ++ ys) = beNat xs * 256 ^ ys.length + beNat ys := by
  have hlen : ys.length = ys.reverse.length := List.length_reverse.symm
  simp only [beNat, List.reverse_append]
  rw [hlen]
  generalize ys.reverse = rs
  induction rs with
  | nil => simp [leNat]
  | cons r rs ih =>
    rw [List.cons_append, leNat, leNat, ih, List.length_cons, Nat.pow_succ']
    ring

namespace Qcow2Header

variable {file : HostFile} {h : Qcow2Header}

def writeTo (h : Qcow2Header) (file : HostFile) : HostFile := file.write 0 h.bytes

structure IsImage (file : HostFile) : Prop where
  whole : 72 ≤ file.len
  magic : beAt (readBytes file.data 0 72) 0 4 = qcow2Magic
  version : beAt (readBytes file.data 0 72) 4 4 = 2 ∨ beAt (readBytes file.data 0 72) 4 4 = 3
  clusterBits : 9 ≤ beAt (readBytes file.data 0 72) 20 4 ∧ beAt (readBytes file.data 0 72) 20 4 ≤ 21
  cryptMethod : beAt (readBytes file.data 0 72) 32 4 = 0
  extension : beAt (readBytes file.data 0 72) 4 4 = 3 → 104 ≤ file.len

def fileVersion (file : HostFile) : Nat := beAt (readBytes file.data 0 72) 4 4

def fileHeader (file : HostFile) : Qcow2Header :=
  if fileVersion file = 3 then parseV3 (readBytes file.data 0 104)
  else parse (readBytes file.data 0 72) 0 0 0 defaultRefcountOrder 72

theorem readFrom_of_isImage (hf : IsImage file) : readFrom file = .ok (fileHeader file) := by
  have hversion : ¬ (beAt (readBytes file.data 0 72) 4 4 ≠ 2 ∧ beAt (readBytes file.data 0 72) 4 4 ≠ 3) := by
    have := hf.version
    omega
  unfold readFrom
  rw [file.readExact_eq (show 0 + 72 ≤ file.len from hf.whole)]
  dsimp only
  rw [if_neg (not_not.mpr hf.magic), if_neg hversion, if_neg (not_not.mpr hf.clusterBits),
    if_neg (not_not.mpr hf.cryptMethod)]
  unfold fileHeader fileVersion
  by_cases h3 : beAt (readBytes file.data 0 72) 4 4 = 3
  · rw [if_pos h3, if_pos h3, file.readExact_eq (show 72 + 32 ≤ file.len from hf.extension h3)]
    dsimp only
    rw [← readBytes_append file.data 0 72 32]
  · rw [if_neg h3, if_neg h3]

theorem isImage_of_readFrom (hread : readFrom file = .ok h) : IsImage file := by
  unfold readFrom at hread
  by_cases hwhole : 0 + 72 ≤ file.len
  · rw [file.readExact_eq hwhole] at hread
    dsimp only at hread
    split at hread
    · cases hread
    · rename_i hmagic
      split at hread
      · cases hread
      · rename_i hversion
        split at hread
        · cases hread
        · rename_i hbits
          split at hread
          · cases hread
          · rename_i hcrypt
            refine ⟨by omega, not_not.mp hmagic, by omega, not_not.mp hbits, not_not.mp hcrypt, ?_⟩
            intro h3
            rw [if_pos h3] at hread
            by_contra hshort
            have hnone : file.readExact 72 32 = none := if_neg (by omega)
            rw [hnone] at hread
            cases hread
  · have hnone : file.readExact 0 72 = none := if_neg (by omega)
    rw [hnone] at hread
    cases hread

theorem readFrom_eq_ok : readFrom file = .ok h ↔ IsImage file ∧ fileHeader file = h := by
  constructor
  · intro hread
    have hf := isImage_of_readFrom hread
    rw [readFrom_of_isImage hf] at hread
    exact ⟨hf, Except.ok.inj hread⟩
  · rintro ⟨hf, rfl⟩
    exact readFrom_of_isImage hf

theorem beAt_lt (buf : Bytes) (off w : Nat) : beAt buf off w < 256 ^ w :=
  (beNat_lt _).trans_le (Nat.pow_le_pow_right (by decide) (List.length_take_le _ _))

theorem beAt_overlap (m : ByteStore) :
    beAt (readBytes m 0 104) 64 8 % 2 ^ 32 = beAt (readBytes m 0 104) 68 8 / 2 ^ 32 := by
  have hlast : beNat (readBytes m 68 4) < 2 ^ 32 := by simpa using beNat_lt (readBytes m 68 4)
  have hnext : beNat (readBytes m 72 4) < 2 ^ 32 := by simpa using beNat_lt (readBytes m 72 4)
  rw [beAt_readBytes m (by decide), beAt_readBytes m (by decide), readBytes_append m 64 4 4, readBytes_append m 68 4 4,
    beNat_append, beNat_append, readBytes_length, readBytes_length]
  simp only [Nat.reduceAdd, Nat.reducePow]
  omega

theorem parse_fits {buf : Bytes} {incompatible compatible autoclear order length : Nat}
    (hmagic : beAt buf 0 4 = qcow2Magic) (hversion : beAt buf 4 4 = 2 ∨ beAt buf 4 4 = 3)
    (hbits : 9 ≤ beAt buf 20 4 ∧ beAt buf 20 4 ≤ 21) (hcrypt : beAt buf 32 4 = 0)
    (h1 : incompatible < 2 ^ 64) (h2 : compatible < 2 ^ 64) (h3 : autoclear < 2 ^ 64) (h4 : order < 2 ^ 32)
    (h5 : length < 2 ^ 32) (hoverlap : beAt buf 4 4 = 3 → beAt buf 64 8 % 2 ^ 32 = incompatible / 2 ^ 32)
    (hdefaults : beAt buf 4 4 = 2 → incompatible = 0 ∧ compatible = 0 ∧ autoclear = 0 ∧
      order = defaultRefcountOrder ∧ length = 72) :
    (parse buf incompatible compatible autoclear order length).Fits where
  magic := hmagic
  version := hversion
  backingFileOffset := beAt_lt buf 8 8
  backingFileSize := beAt_lt buf 16 4
  clusterBits := hbits
  size := beAt_lt buf 24 8
  cryptMethod := hcrypt
  l1Size := beAt_lt buf 36 4
  l1TableOffset := beAt_lt buf 40 8
  refcountTableOffset := beAt_lt buf 48 8
  refcountTableClusters := beAt_lt buf 56 4
  nbSnapshots := beAt_lt buf 60 4
  snapshotsOffset := beAt_lt buf 64 8
  incompatibleFeatures := h1
  compatibleFeatures := h2
  autoclearFeatures := h3
  refcountOrder := h4
  headerLength := h5
  overlap := hoverlap
  defaults := hdefaults

theorem fits_fileHeader (hf : IsImage file) : (fileHeader file).Fits := by
  unfold fileHeader
  split
  · rename_i h3
    have hfirst : ∀ off w, off + w ≤ 72 →
        beAt (readBytes file.data 0 104) off w = beAt (readBytes file.data 0 72) off w :=
      fun off w hle => (beAt_readBytes _ (by omega)).trans (beAt_readBytes _ hle).symm
    have hversion : beAt (readBytes file.data 0 104) 4 4 = 3 := (hfirst 4 4 (by decide)).trans h3
    refine parse_fits ?_ (Or.inr hversion) ?_ ?_ (beAt_lt _ 68 8) (beAt_lt _ 76 8) (beAt_lt _ 84 8) (beAt_lt _ 92 4)
      (beAt_lt _ 96 4) (fun _ => beAt_overlap file.data) (fun h2 => ?_)
    · rw [hfirst 0 4 (by decide)]
      exact hf.magic
    · rw [hfirst 20 4 (by decide)]
      exact hf.clusterBits
    · rw [hfirst 32 4 (by decide)]
      exact hf.cryptMethod
    · omega
  · rename_i h3
    exact parse_fits hf.magic hf.version hf.clusterBits hf.cryptMethod (by decide) (by decide) (by decide) (by decide)
      (by decide) (fun h => absurd h h3) (fun _ => ⟨rfl, rfl, rfl, rfl, rfl⟩)

theorem fixedBytes_parse (m : ByteStore) {n : Nat} (hn : 72 ≤ n)
    (incompatible compatible autoclear order length : Nat) :
    (parse (readBytes m 0 n) incompatible compatible autoclear order length).fixedBytes = readBytes m 0 64 := by
  have hfields : readBytes m 0 (4 + 4 + 8 + 4 + 4 + 8 + 4 + 4 + 8 + 8 + 4 + 4) =
      readBytes m 0 4 ++ readBytes m 4 4 ++ readBytes m 8 8 ++ readBytes m 16 4 ++ readBytes m 20 4 ++ readBytes m 24 8
        ++ readBytes m 32 4 ++ readBytes m 36 4 ++ readBytes m 40 8 ++ readBytes m 48 8 ++ readBytes m 56 4
        ++ readBytes m 60 4 := by
    rw [readBytes_append, readBytes_append, readBytes_append, readBytes_append, readBytes_append, readBytes_append,
      readBytes_append, readBytes_append, readBytes_append, readBytes_append, readBytes_append]
  unfold fixedBytes parse
  rw [beBytes_beAt m (by omega), beBytes_beAt m (by omega), beBytes_beAt m (by omega), beBytes_beAt m (by omega),
    beBytes_beAt m (by omega), beBytes_beAt m (by omega), beBytes_beAt m (by omega), beBytes_beAt m (by omega),
    beBytes_beAt m (by omega), beBytes_beAt m (by omega), beBytes_beAt m (by omega), beBytes_beAt m (by omega)]
  exact hfields.symm

theorem bytes_parseV3 (m : ByteStore) (hversion : beAt (readBytes m 0 104) 4 4 = 3) :
    (parseV3 (readBytes m 0 104)).bytes = readBytes m 0 100 ++ [0, 0, 0, 0] := by
  have hfields : readBytes m 0 (64 + 4 + 8 + 8 + 8 + 4 + 4) =
      readBytes m 0 64 ++ readBytes m 64 4 ++ readBytes m 68 8 ++ readBytes m 76 8 ++ readBytes m 84 8
        ++ readBytes m 92 4 ++ readBytes m 96 4 := by
    rw [readBytes_append, readBytes_append, readBytes_append, readBytes_append, readBytes_append, readBytes_append]
  have hv : (parseV3 (readBytes m 0 104)).version = 3 := hversion
  rw [bytes, if_pos hv, parseV3, fixedBytes_parse m (by decide)]
  dsimp only [parse]
  rw [beBytes_beAt m (by decide), beBytes_beAt m (by decide), beBytes_beAt m (by decide), beBytes_beAt m (by decide),
    beBytes_beAt m (by decide), beBytes_beAt m (by decide), readBytes_take m 64 8 4 (by decide), ← hfields]

theorem bytes_parseV2 (m : ByteStore) (hversion : beAt (readBytes m 0 72) 4 4 ≠ 3) :
    (parse (readBytes m 0 72) 0 0 0 defaultRefcountOrder 72).bytes = readBytes m 0 72 := by
  have hv : (parse (readBytes m 0 72) 0 0 0 defaultRefcountOrder 72).version ≠ 3 := hversion
  rw [bytes, if_neg hv, fixedBytes_parse m (by decide)]
  dsimp only [parse]
  rw [beBytes_beAt m (by decide), ← readBytes_append m 0 64 8]

theorem length_le_writeTo (h : Qcow2Header) (file : HostFile) : h.length ≤ (h.writeTo file).len := by
  have hne : h.bytes ≠ [] := by
    intro hnil
    have hlen := h.bytes_length
    rw [hnil, length] at hlen
    split at hlen
    · cases hlen
    · cases hlen
  have hlen : (h.writeTo file).len = max file.len (0 + h.bytes.length) := if_neg hne
  rw [hlen, h.bytes_length, Nat.zero_add]
  exact Nat.le_max_right _ _

theorem readBytes_writeTo (h : Qcow2Header) (file : HostFile) :
    readBytes (h.writeTo file).data 0 h.length = h.bytes := by
  rw [← h.bytes_length]
  exact readBytes_writeBytes file.data 0 h.bytes

theorem readFrom_writeTo (hh : h.Fits) (file : HostFile) : readFrom (h.writeTo file) = .ok h :=
  readFrom_of_bytes hh (length_le_writeTo h file) (readBytes_writeTo h file)

def Unchanged (file : HostFile) (h : Qcow2Header) : Prop :=
  readBytes (h.writeTo file).data 0 h.length = readBytes file.data 0 h.length

theorem unchanged_iff (hread : readFrom file = .ok h) :
    Unchanged file h ↔ (fileVersion file = 3 → readBytes file.data 100 4 = [0, 0, 0, 0]) := by
  obtain ⟨hf, rfl⟩ := readFrom_eq_ok.mp hread
  unfold Unchanged
  rw [readBytes_writeTo]
  by_cases h3 : fileVersion file = 3
  · have hversion : beAt (readBytes file.data 0 104) 4 4 = 3 :=
      ((beAt_readBytes _ (by decide)).trans (beAt_readBytes _ (by decide)).symm).trans h3
    have hlen : (parseV3 (readBytes file.data 0 104)).length = 100 + 4 := if_pos hversion
    rw [fileHeader, if_pos h3, hlen, bytes_parseV3 _ hversion, readBytes_append file.data 0 100 4,
      List.append_cancel_left_eq]
    exact ⟨fun h _ => h.symm, fun h => (h h3).symm⟩
  · have hlen : (parse (readBytes file.data 0 72) 0 0 0 defaultRefcountOrder 72).length = 72 := if_neg h3
    rw [fileHeader, if_neg h3, hlen, bytes_parseV2 _ h3]
    exact ⟨fun _ h => absurd h h3, fun _ => rfl⟩

structure Creatable (v b : Nat) (name : Option String) : Prop where
  virtualSize : v < 2 ^ 64
  clusterBits : 9 ≤ b ∧ b ≤ 21
  name : qcow2V3HeaderSize + (name.map (·.utf8ByteSize)).getD 0 ≤ 2 ^ b

structure RoundTrips (file : HostFile) : Prop where
  parsed : ∀ source h, readFrom source = .ok h → readFrom (h.writeTo file) = .ok h
  created : ∀ v b name, Creatable v b name →
    readFrom ((createHeader v b name).writeTo file) = .ok (createHeader v b name)
  unchanged : ∀ h, readFrom file = .ok h → Unchanged file h

theorem roundTrips_iff (file : HostFile) :
    RoundTrips file ↔ (IsImage file → fileVersion file = 3 → readBytes file.data 100 4 = [0, 0, 0, 0]) := by
  constructor
  · intro hall hf
    have hread := readFrom_of_isImage hf
    exact (unchanged_iff hread).mp (hall.unchanged _ hread)
  · intro hzero
    constructor
    · intro source h hread
      obtain ⟨hf, rfl⟩ := readFrom_eq_ok.mp hread
      exact readFrom_writeTo (fits_fileHeader hf) file
    · intro v b name hc
      exact readFrom_writeTo (Qcow2File.fits_createHeader hc.virtualSize hc.clusterBits hc.name
        (createFileEnd_le hc.clusterBits)) file
    · intro h hread
      exact (unchanged_iff hread).mpr (hzero (isImage_of_readFrom hread))

def standardBytes : Bytes :=
  beBytes 4 qcow2Magic ++ beBytes 4 3 ++ beBytes 8 0 ++ beBytes 4 0 ++ beBytes 4 16 ++ beBytes 8 (2 ^ 20)
    ++ beBytes 4 0 ++ beBytes 4 1 ++ beBytes 8 (3 * 2 ^ 16) ++ beBytes 8 (2 ^ 16) ++ beBytes 4 1 ++ beBytes 4 0
    ++ beBytes 8 0 ++ beBytes 8 0 ++ beBytes 8 0 ++ beBytes 8 0 ++ beBytes 4 4 ++ beBytes 4 104

def standardImage : HostFile := HostFile.empty.write 0 standardBytes

theorem isImage_standardImage : IsImage standardImage where
  whole := by decide +kernel
  magic := by decide +kernel
  version := by decide +kernel
  clusterBits := by decide +kernel
  cryptMethod := by decide +kernel
  extension := by decide +kernel

theorem roundTrips_fails : ¬ RoundTrips standardImage := by
  intro hall
  have hread := readFrom_of_isImage isImage_standardImage
  have hzero := (unchanged_iff hread).mp (hall.unchanged _ hread) (by decide +kernel)
  revert hzero
  decide +kernel

end Qcow2Header

end CloneVmm.Storage
