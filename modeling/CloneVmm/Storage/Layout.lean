import CloneVmm.Lib.Placement
import CloneVmm.Storage.Qcow2

namespace CloneVmm.Storage

open CloneVmm.Lib

def GoodEntry (clusterSize entry : Nat) : Prop :=
  entry = 0 ∨ ∃ off, 0 < off ∧ off < 2 ^ 56 ∧ clusterSize ∣ off ∧ entry = off ||| l2FlagCopied

theorem testBit_l1OffsetMask (i : Nat) : l1OffsetMask.testBit i = decide (9 ≤ i ∧ i < 56) := by
  have hmask : l1OffsetMask = 2 ^ 9 * (2 ^ 47 - 1) := by decide
  rw [hmask, Nat.testBit_two_pow_mul, Nat.testBit_two_pow_sub_one]
  by_cases hi : 9 ≤ i
  · simp [hi]
    omega
  · simp [hi]

theorem testBit_l2OffsetMask (i : Nat) : l2OffsetMask.testBit i = decide (9 ≤ i ∧ i < 62) := by
  have hmask : l2OffsetMask = 2 ^ 9 * (2 ^ 53 - 1) := by decide
  rw [hmask, Nat.testBit_two_pow_mul, Nat.testBit_two_pow_sub_one]
  by_cases hi : 9 ≤ i
  · simp [hi]
    omega
  · simp [hi]

section Entry

variable {off : Nat}

theorem testBit_eq_false (hdvd : 2 ^ 9 ∣ off) (hlt : off < 2 ^ 56) {i : Nat} (hi : i < 9 ∨ 56 ≤ i) :
    off.testBit i = false := by
  rcases hi with hi | hi
  · obtain ⟨k, rfl⟩ := hdvd
    rw [Nat.testBit_two_pow_mul, decide_eq_false (by omega), Bool.false_and]
  · exact Nat.testBit_lt_two_pow (hlt.trans_le (Nat.pow_le_pow_right (by omega) hi))

theorem testBit_flagged (i : Nat) : (off ||| l2FlagCopied).testBit i = (off.testBit i || decide (63 = i)) := by
  rw [Nat.testBit_or, l2FlagCopied, Nat.one_shiftLeft, Nat.testBit_two_pow]

theorem and_l1OffsetMask (hdvd : 2 ^ 9 ∣ off) (hlt : off < 2 ^ 56) :
    (off ||| l2FlagCopied) &&& l1OffsetMask = off := by
  apply Nat.eq_of_testBit_eq
  intro i
  rw [Nat.testBit_and, testBit_flagged, testBit_l1OffsetMask]
  by_cases hi : 9 ≤ i ∧ i < 56
  · have hne : ¬ 63 = i := by omega
    simp [hi, hne]
  · simp [hi, testBit_eq_false hdvd hlt (i := i) (by omega)]

theorem and_l2OffsetMask (hdvd : 2 ^ 9 ∣ off) (hlt : off < 2 ^ 56) :
    (off ||| l2FlagCopied) &&& l2OffsetMask = off := by
  apply Nat.eq_of_testBit_eq
  intro i
  rw [Nat.testBit_and, testBit_flagged, testBit_l2OffsetMask]
  by_cases hi : 9 ≤ i ∧ i < 62
  · have hne : ¬ 63 = i := by omega
    simp [hi, hne]
  · simp [hi, testBit_eq_false hdvd hlt (i := i) (by omega)]

theorem and_l2FlagCompressed (hdvd : 2 ^ 9 ∣ off) (hlt : off < 2 ^ 56) :
    (off ||| l2FlagCopied) &&& l2FlagCompressed = 0 := by
  apply Nat.eq_of_testBit_eq
  intro i
  rw [Nat.testBit_and, testBit_flagged, l2FlagCompressed, Nat.one_shiftLeft, Nat.testBit_two_pow, Nat.zero_testBit]
  by_cases hi : 62 = i
  · subst hi
    simp [testBit_eq_false hdvd hlt (i := 62) (by omega)]
  · simp [hi]

end Entry

def tableAt (data : ByteStore) (offset count : Nat) : List Nat :=
  (List.range count).map fun i => beNat (readBytes data (offset + i * 8) 8)

@[simp] theorem tableAt_length (data : ByteStore) (offset count : Nat) : (tableAt data offset count).length = count := by
  simp [tableAt]

theorem tableAt_congr {data data' : ByteStore} {offset count : Nat}
    (h : ∀ i, offset ≤ i → i < offset + count * 8 → data' i = data i) :
    tableAt data' offset count = tableAt data offset count := by
  apply List.map_congr_left
  intro i hi
  rw [List.mem_range] at hi
  congr 1
  exact readBytes_congr fun k hlo hhi => h k (by omega) (by omega)

theorem tableAt_getD (data : ByteStore) (offset count i : Nat) :
    (tableAt data offset count).getD i 0 = if i < count then beNat (readBytes data (offset + i * 8) 8) else 0 := by
  rw [List.getD_eq_getElem?_getD]
  split
  · rw [tableAt, List.getElem?_map, List.getElem?_range ‹_›, Option.map_some, Option.getD_some]
  · rw [List.getElem?_eq_none (by rw [tableAt_length]; omega), Option.getD_none]

theorem tableAt_zero {data : ByteStore} {offset count : Nat}
    (h : ∀ p, offset ≤ p → p < offset + count * 8 → data p = 0) (i : Nat) : (tableAt data offset count).getD i 0 = 0 := by
  rw [tableAt_getD]
  split
  · have hzero : readBytes data (offset + i * 8) 8 = readBytes (fun _ => 0) (offset + i * 8) 8 :=
      readBytes_congr fun p hlo hhi => h p (by omega) (by omega)
    have hblank : readBytes (fun _ => 0) (offset + i * 8) 8 = List.replicate 8 0 := by
      rw [readBytes, List.map_const', List.length_range]
    rw [hzero, hblank]
    rfl
  · rfl

theorem readTable_eq {file : HostFile} {offset count : Nat} (h : offset + count * 8 ≤ file.len) :
    readTable file offset count = .ok (tableAt file.data offset count) := by
  unfold readTable
  split
  · subst count
    rfl
  · rw [file.readExact_eq h]
    apply congrArg Except.ok
    apply List.map_congr_left
    intro i hi
    rw [List.mem_range] at hi
    congr 1
    apply List.ext_getElem?
    intro k
    by_cases hk : k < 8
    · rw [List.getElem?_take_of_lt hk, List.getElem?_drop, readBytes_getElem? _ _ _ _ (by omega),
        readBytes_getElem? _ _ _ _ hk, Nat.add_assoc]
    · rw [List.getElem?_eq_none (by simp; omega), List.getElem?_eq_none (by simp; omega)]

theorem tableBytes_length (entries : List Nat) : (tableBytes entries).length = entries.length * 8 := by
  induction entries with
  | nil => rfl
  | cons e entries ih =>
    have := beBytes_length 8 e
    simp only [tableBytes, List.flatMap_cons, List.length_append, List.length_cons] at ih ⊢
    omega

theorem tableAt_writeBytes {data : ByteStore} {offset count : Nat} {entries : List Nat}
    (hfit : ∀ e ∈ entries, e < 2 ^ 64) (hcount : count ≤ entries.length) :
    tableAt (writeBytes data offset (tableBytes entries)) offset count = entries.take count := by
  apply List.ext_getElem (by simp [hcount])
  intro i hi hi'
  simp only [tableAt, List.getElem_map, List.getElem_range, List.getElem_take]
  rw [tableAt_length] at hi
  have hbytes : readBytes (writeBytes data offset (tableBytes entries)) (offset + i * 8) 8 = beBytes 8 entries[i] := by
    apply List.ext_getElem?
    intro k
    by_cases hk : k < 8
    · have hlen := tableBytes_length entries
      rw [readBytes_getElem? _ _ _ _ hk, Nat.add_assoc, writeBytes_inside (by omega), ← List.getElem?_eq_getElem,
        tableBytes, getElem?_flatMap_uniform (beBytes 8) 8 (by omega) (fun e => beBytes_length 8 e)]
      have hdiv : (i * 8 + k) / 8 = i := by omega
      have hmod : (i * 8 + k) % 8 = k := by omega
      rw [hdiv, hmod, List.getElem?_eq_getElem (by omega)]
      rfl
    · rw [List.getElem?_eq_none (by simp; omega), List.getElem?_eq_none (by simp; omega)]
  rw [hbytes, beNat_beBytes]
  exact Nat.mod_eq_of_lt (hfit _ (List.getElem_mem _))

theorem tableAt_writeBytes_getD {data : ByteStore} {offset count : Nat} {entries : List Nat}
    (hfit : ∀ e ∈ entries, e < 2 ^ 64) (i : Nat) :
    (tableAt (writeBytes data offset (tableBytes entries)) offset count).getD i 0 =
      if i < entries.length ∧ i < count then entries.getD i 0 else (tableAt data offset count).getD i 0 := by
  rw [tableAt_getD, tableAt_getD]
  by_cases hcount : i < count
  · rw [if_pos hcount, if_pos hcount]
    by_cases hlen : i < entries.length
    · have htable : tableAt (writeBytes data offset (tableBytes entries)) offset entries.length = entries := by
        rw [tableAt_writeBytes hfit (Nat.le_refl _), List.take_length]
      have hentry := tableAt_getD (writeBytes data offset (tableBytes entries)) offset entries.length i
      rw [htable, if_pos hlen] at hentry
      rw [if_pos ⟨hlen, hcount⟩, hentry]
    · rw [if_neg fun hboth => hlen hboth.1, readBytes_writeBytes_disjoint]
      right
      rw [tableBytes_length]
      omega
  · rw [if_neg hcount, if_neg fun hboth => hcount hboth.2, if_neg hcount]

inductive Owner
  | header
  | l1 (i : Nat)
  | refcountTable (i : Nat)
  | refcountBlock (i : Nat)
  | l2 (i : Nat)
  | data (guestCluster : Nat)
  | reserved (i : Nat)
  deriving DecidableEq

def Owner.isBlock : Owner → Bool
  | refcountBlock _ => true
  | _ => false

def Owner.isL2 : Owner → Bool
  | l2 _ => true
  | _ => false

namespace Qcow2File

variable {B : Type} {host : Host} {rs : List Nat} {q q' : Qcow2File B}

section View

variable (q : Qcow2File B)

def l2Offset (i : Nat) : Option Nat :=
  (q.l1Table[i]?).bind fun e => if e &&& l1OffsetMask = 0 then none else some (e &&& l1OffsetMask)

def l2View (i off : Nat) : List Nat :=
  match q.l2Cache.lookup i with
  | some entry => entry.entries
  | none => tableAt q.file.data off q.header.l2EntriesPerTable

def dataOffset (g : Nat) : Option Nat :=
  (q.l2Offset (g / q.header.l2EntriesPerTable)).bind fun off =>
    ((q.l2View (g / q.header.l2EntriesPerTable) off)[g % q.header.l2EntriesPerTable]?).bind fun e =>
      if e &&& l2OffsetMask = 0 then none else some (e &&& l2OffsetMask)

def l1Clusters : Nat := (q.header.l1Size * 8 + q.header.clusterSize - 1) / q.header.clusterSize

def block (i : Nat) : Nat := q.refcountTable.getD i 0

def place (rs : List Nat) : Owner → Option Nat
  | .header => some 0
  | .l1 i => if i < q.l1Clusters then some (q.header.l1TableOffset + i * q.header.clusterSize) else none
  | .refcountTable i =>
    if i < q.header.refcountTableClusters then some (q.header.refcountTableOffset + i * q.header.clusterSize)
    else none
  | .refcountBlock i => if q.block i = 0 then none else some (q.block i)
  | .l2 i => q.l2Offset i
  | .data g => q.dataOffset g
  | .reserved i => rs[i]?

def byteAt (base : ByteStore) (pos : Nat) : UInt8 :=
  match q.dataOffset (pos / q.header.clusterSize) with
  | some off => q.file.data (off + pos % q.header.clusterSize)
  | none => base pos

def storedTable : List Nat :=
  tableAt q.file.data q.header.refcountTableOffset (q.header.refcountTableClusters * q.header.clusterSize / 8)

end View

theorem byteAt_some {base : ByteStore} {pos off : Nat} (h : q.dataOffset (pos / q.header.clusterSize) = some off) :
    q.byteAt base pos = q.file.data (off + pos % q.header.clusterSize) := by
  rw [byteAt, h]

theorem byteAt_none {base : ByteStore} {pos : Nat} (h : q.dataOffset (pos / q.header.clusterSize) = none) :
    q.byteAt base pos = base pos := by
  rw [byteAt, h]

theorem place_append {rs' : List Nat} {o : Owner} (h : ∀ i, o = .reserved i → i < rs.length) :
    q.place (rs ++ rs') o = q.place rs o := by
  cases o with
  | reserved i => exact List.getElem?_append_left (h i rfl)
  | header | l1 i | refcountTable i | refcountBlock i | l2 i | data g => rfl

theorem place_snoc {off : Nat} {o : Owner} (h : o ≠ .reserved rs.length) : q.place (rs ++ [off]) o = q.place rs o := by
  cases o with
  | reserved i =>
    have hi : i ≠ rs.length := fun heq => h (by rw [heq])
    rcases Nat.lt_or_ge i rs.length with hlt | hge
    · exact List.getElem?_append_left hlt
    · have hlen : (rs ++ [off]).length ≤ i := by
        rw [List.length_append, List.length_singleton]
        omega
      simp only [place]
      rw [List.getElem?_eq_none hlen, List.getElem?_eq_none hge]
  | header | l1 i | refcountTable i | refcountBlock i | l2 i | data g => rfl

theorem place_snoc_last {off : Nat} : q.place (rs ++ [off]) (.reserved rs.length) = some off := by
  simp [place]

theorem place_reserved_none : q.place rs (.reserved rs.length) = none := List.getElem?_eq_none (Nat.le_refl _)

def Cached (q : Qcow2File B) (i : Nat) (entry : L2CacheEntry) : Prop :=
  q.l2Offset i = some entry.hostOffset ∧ entry.entries.length = q.header.l2EntriesPerTable ∧
    (entry.dirty = false → entry.entries = tableAt q.file.data entry.hostOffset q.header.l2EntriesPerTable)

structure Sound (host : Host) (rs : List Nat) (q : Qcow2File B) : Prop where
  fits : q.header.Fits
  onDisk : Qcow2Header.readFrom q.file = .ok q.header
  l1Length : q.l1Table.length = q.header.l1Size
  l1Good : ∀ e ∈ q.l1Table, GoodEntry q.header.clusterSize e
  l2Good : ∀ i off, q.l2Offset i = some off → ∀ e ∈ q.l2View i off, GoodEntry q.header.clusterSize e
  cached : ∀ i entry, q.l2Cache.lookup i = some entry → q.Cached i entry
  l1Inside : q.header.l1TableOffset + q.header.l1Size * 8 ≤ q.file.len
  tableInside : q.header.refcountTableOffset + q.header.refcountTableClusters * q.header.clusterSize ≤ q.file.len
  stored : ∀ i, q.storedTable.getD i 0 = 0 ∨ q.storedTable.getD i 0 = q.block i
  placed : Placed q.header.clusterSize q.file.len (q.place rs)
  lenLe : q.file.len ≤ q.nextAllocOffset
  nextAligned : q.header.clusterSize ∣ q.nextAllocOffset
  lenLimit : q.file.len ≤ host.limit

theorem clusterSize_bounds {h : Qcow2Header} (hh : h.Fits) : 512 ≤ h.clusterSize ∧ h.clusterSize ≤ 2 ^ 21 := by
  obtain ⟨hlo, hhi⟩ := hh.clusterBits
  constructor
  · exact Nat.pow_le_pow_right (n := 2) (by omega) hlo
  · exact Nat.pow_le_pow_right (by omega) hhi

theorem clusterSize_pos (h : Qcow2Header) : 0 < h.clusterSize := Nat.two_pow_pos _

theorem dvd_clusterSize {h : Qcow2Header} (hh : h.Fits) : 2 ^ 9 ∣ h.clusterSize := Nat.pow_dvd_pow 2 hh.clusterBits.1

theorem l2EntriesPerTable_mul {h : Qcow2Header} (hh : h.Fits) : h.l2EntriesPerTable * 8 = h.clusterSize := by
  obtain ⟨k, hk⟩ := dvd_clusterSize hh
  unfold Qcow2Header.l2EntriesPerTable
  omega

theorem l2EntriesPerTable_pos {h : Qcow2Header} (hh : h.Fits) : 0 < h.l2EntriesPerTable := by
  have := l2EntriesPerTable_mul hh
  have := clusterSize_pos h
  omega

/-- What an operation leaves: the tables as they are seen, and the bytes of the owners in `P`. -/
structure Frame (P : Owner → Prop) (rs : List Nat) (q q' : Qcow2File B) : Prop where
  header : q'.header = q.header
  l1Table : q'.l1Table = q.l1Table
  backing : q'.backing = q.backing
  view : ∀ i off, q.l2Offset i = some off → q'.l2View i off = q.l2View i off
  bytes : ∀ o off, q.place rs o = some off → P o →
    ∀ k, k < q.header.clusterSize → q'.file.data (off + k) = q.file.data (off + k)

structure Quiet (P : Owner → Prop) (rs : List Nat) (q q' : Qcow2File B) : Prop extends Frame P rs q q' where
  refcountTable : q'.refcountTable = q.refcountTable
  nextAllocOffset : q'.nextAllocOffset = q.nextAllocOffset
  len : q'.file.len = q.file.len

namespace Frame

variable {P P' : Owner → Prop} {q'' : Qcow2File B}

theorem of_data (hheader : q'.header = q.header) (hl1 : q'.l1Table = q.l1Table) (hbacking : q'.backing = q.backing)
    (hcache : q'.l2Cache = q.l2Cache) (hdata : q'.file.data = q.file.data) : Frame P rs q q' where
  header := hheader
  l1Table := hl1
  backing := hbacking
  view i off _ := by rw [l2View, l2View, hcache, hdata, hheader]
  bytes _ _ _ _ _ _ := by rw [hdata]

theorem weaken (h : Frame P rs q q') (hP : ∀ o, P' o → P o) : Frame P' rs q q' :=
  ⟨h.header, h.l1Table, h.backing, h.view, fun o off ho hPo => h.bytes o off ho (hP o hPo)⟩

theorem l2Offset (h : Frame P rs q q') : q'.l2Offset = q.l2Offset := by
  funext i
  rw [Qcow2File.l2Offset, Qcow2File.l2Offset, h.l1Table]

theorem dataOffset (h : Frame P rs q q') : q'.dataOffset = q.dataOffset := by
  funext g
  unfold Qcow2File.dataOffset
  rw [h.header, h.l2Offset]
  cases hoff : q.l2Offset (g / q.header.l2EntriesPerTable) with
  | none => rfl
  | some off => rw [Option.bind_some, Option.bind_some, h.view _ off hoff]

theorem place (h : Frame P rs q q') {o : Owner} (ho : o.isBlock = false) : q'.place rs o = q.place rs o := by
  cases o with
  | header | reserved i => rfl
  | l1 i | refcountTable i =>
    unfold Qcow2File.place Qcow2File.l1Clusters
    rw [h.header]
  | l2 i => simp only [Qcow2File.place, h.l2Offset]
  | data g => simp only [Qcow2File.place, h.dataOffset]
  | refcountBlock i => cases ho

theorem place_eq (h : Frame P rs q q') (htable : q'.refcountTable = q.refcountTable) : q'.place rs = q.place rs := by
  funext o
  cases ho : o.isBlock with
  | false => exact h.place ho
  | true =>
    cases o with
    | refcountBlock i =>
      unfold Qcow2File.place Qcow2File.block
      rw [htable]
    | header | l1 i | refcountTable i | l2 i | data g | reserved i => cases ho

theorem trans (h : Frame P rs q q') (h' : Frame P rs q' q'') (hP : ∀ o, P o → q'.place rs o = q.place rs o) :
    Frame P rs q q'' where
  header := h'.header.trans h.header
  l1Table := h'.l1Table.trans h.l1Table
  backing := h'.backing.trans h.backing
  view i off hoff := by
    rw [h'.view i off (by rw [h.l2Offset]; exact hoff), h.view i off hoff]
  bytes o off ho hPo k hk := by
    rw [h'.bytes o off (by rw [hP o hPo]; exact ho) hPo k (by rw [h.header]; exact hk),
      h.bytes o off ho hPo k hk]

theorem restrict {rs' : List Nat} (h : Frame P (rs ++ rs') q q') : Frame P rs q q' where
  header := h.header
  l1Table := h.l1Table
  backing := h.backing
  view := h.view
  bytes o off ho hPo := by
    apply h.bytes o off _ hPo
    rw [place_append, ho]
    rintro i rfl
    exact (List.getElem?_eq_some_iff.mp ho).1

end Frame

namespace Quiet

variable {P P' : Owner → Prop} {q'' : Qcow2File B}

theorem refl (P : Owner → Prop) (rs : List Nat) (q : Qcow2File B) : Quiet P rs q q :=
  ⟨⟨rfl, rfl, rfl, fun _ _ _ => rfl, fun _ _ _ _ _ _ => rfl⟩, rfl, rfl, rfl⟩

theorem weaken (h : Quiet P rs q q') (hP : ∀ o, P' o → P o) : Quiet P' rs q q' :=
  ⟨h.toFrame.weaken hP, h.refcountTable, h.nextAllocOffset, h.len⟩

theorem place (h : Quiet P rs q q') : q'.place rs = q.place rs := h.toFrame.place_eq h.refcountTable

theorem trans (h : Quiet P rs q q') (h' : Quiet P rs q' q'') : Quiet P rs q q'' :=
  ⟨h.toFrame.trans h'.toFrame fun o _ => congrFun h.place o, h'.refcountTable.trans h.refcountTable,
    h'.nextAllocOffset.trans h.nextAllocOffset, h'.len.trans h.len⟩

end Quiet

def wrote (q : Qcow2File B) (pos : Nat) (bs : Bytes) : Qcow2File B := { q with file := q.file.write pos bs }

theorem storedTable_congr (rs : List Nat) (hheader : q'.header = q.header)
    (hdata : ∀ i off, q.place rs (.refcountTable i) = some off →
      ∀ k, k < q.header.clusterSize → q'.file.data (off + k) = q.file.data (off + k)) :
    q'.storedTable = q.storedTable := by
  unfold storedTable
  rw [hheader]
  apply tableAt_congr
  intro p hlo hhi
  have hcs := clusterSize_pos q.header
  obtain ⟨d, rfl⟩ := Nat.exists_eq_add_of_le hlo
  have hi : d / q.header.clusterSize < q.header.refcountTableClusters := by
    apply Nat.div_lt_of_lt_mul
    rw [Nat.mul_comm]
    omega
  have hbyte := hdata (d / q.header.clusterSize) _ (if_pos hi) (d % q.header.clusterSize) (Nat.mod_lt _ hcs)
  rwa [Nat.add_assoc, Nat.mul_comm, Nat.div_add_mod] at hbyte

namespace Sound

theorem tableAt_eq (h : Sound host rs q) {data : ByteStore} {off : Nat}
    (hdata : ∀ k, k < q.header.clusterSize → data (off + k) = q.file.data (off + k)) :
    tableAt data off q.header.l2EntriesPerTable = tableAt q.file.data off q.header.l2EntriesPerTable := by
  apply tableAt_congr
  intro p hlo hhi
  have hmul := l2EntriesPerTable_mul h.fits
  obtain ⟨k, rfl⟩ := Nat.exists_eq_add_of_le hlo
  exact hdata k (by omega)

theorem readFrom_eq (h : Sound host rs q) {file : HostFile} (hlen : q.file.len ≤ file.len)
    (hdata : ∀ k, k < q.header.clusterSize → file.data (0 + k) = q.file.data (0 + k)) :
    Qcow2Header.readFrom file = .ok q.header := by
  apply Qcow2Header.readFrom_congr hlen _ h.onDisk
  intro i hi
  have hcs := clusterSize_bounds h.fits
  have := hdata i (by omega)
  rwa [Nat.zero_add] at this

theorem write_of_stored (h : Sound host rs q) {P : Owner → Prop} (pos : Nat) (bs : Bytes)
    (hregion : ∀ p, pos ≤ p → p < pos + bs.length →
      ∃ o off, P o ∧ q.place rs o = some off ∧ off ≤ p ∧ p < off + q.header.clusterSize)
    (hheader : ¬ P .header) (hl2 : ∀ i, P (.l2 i) → ∃ entry, q.l2Cache.lookup i = some entry ∧ entry.dirty = true)
    (hstored : ∀ i, (q.wrote pos bs).storedTable.getD i 0 = 0 ∨ (q.wrote pos bs).storedTable.getD i 0 = q.block i)
    (hlen : pos + bs.length ≤ q.file.len) :
    Sound host rs (q.wrote pos bs) ∧ Quiet (fun o => ¬ P o) rs q (q.wrote pos bs) := by
  have hbytes : ∀ o off, q.place rs o = some off → ¬ P o → ∀ k, k < q.header.clusterSize →
      writeBytes q.file.data pos bs (off + k) = q.file.data (off + k) :=
    fun o off ho hPo k hk => h.placed.writeBytes_frame hregion ho hPo hk
  have htables : ∀ i off, q.l2Offset i = some off → ¬ P (.l2 i) →
      tableAt (writeBytes q.file.data pos bs) off q.header.l2EntriesPerTable =
        tableAt q.file.data off q.header.l2EntriesPerTable :=
    fun i off hoff hPi => h.tableAt_eq (hbytes (.l2 i) off hoff hPi)
  have hwlen := q.file.write_len hlen
  have hquiet : Quiet (fun o => ¬ P o) rs q (q.wrote pos bs) := by
    refine ⟨⟨rfl, rfl, rfl, ?_, hbytes⟩, rfl, rfl, hwlen⟩
    intro i off hoff
    unfold l2View wrote
    dsimp only
    cases hlookup : q.l2Cache.lookup i with
    | some entry => rfl
    | none =>
      apply htables i off hoff
      intro hPi
      obtain ⟨entry, hentry, -⟩ := hl2 i hPi
      rw [hlookup] at hentry
      cases hentry
  refine ⟨⟨h.fits, ?_, h.l1Length, h.l1Good, ?_, ?_, hwlen ▸ h.l1Inside, hwlen ▸ h.tableInside, hstored, ?_, ?_,
    h.nextAligned, ?_⟩, hquiet⟩
  · exact h.readFrom_eq (q.file.len_le_write_len pos bs) (hbytes .header 0 rfl hheader)
  · intro i off hoff e he
    rw [hquiet.view i off hoff] at he
    exact h.l2Good i off hoff e he
  · intro i entry hentry
    obtain ⟨hoff, hentries, hclean⟩ := h.cached i entry hentry
    refine ⟨hoff, hentries, fun hdirty => ?_⟩
    refine (hclean hdirty).trans (htables i entry.hostOffset hoff fun hPi => ?_).symm
    obtain ⟨entry', hentry', hdirty'⟩ := hl2 i hPi
    cases hentry.symm.trans hentry'
    rw [hdirty] at hdirty'
    cases hdirty'
  · rw [hquiet.place]
    exact h.placed.mono hwlen.ge
  · exact hwlen.le.trans h.lenLe
  · exact hwlen.le.trans h.lenLimit

theorem write (h : Sound host rs q) {P : Owner → Prop} (pos : Nat) (bs : Bytes)
    (hregion : ∀ p, pos ≤ p → p < pos + bs.length →
      ∃ o off, P o ∧ q.place rs o = some off ∧ off ≤ p ∧ p < off + q.header.clusterSize)
    (hheader : ¬ P .header) (hl2 : ∀ i, P (.l2 i) → ∃ entry, q.l2Cache.lookup i = some entry ∧ entry.dirty = true)
    (htable : ∀ i, ¬ P (.refcountTable i)) (hlen : pos + bs.length ≤ q.file.len) :
    Sound host rs (q.wrote pos bs) ∧ Quiet (fun o => ¬ P o) rs q (q.wrote pos bs) := by
  have hstored : (q.wrote pos bs).storedTable = q.storedTable :=
    storedTable_congr rs rfl fun i off hoff k hk => h.placed.writeBytes_frame hregion hoff (htable i) hk
  apply h.write_of_stored pos bs hregion hheader hl2 _ hlen
  rw [hstored]
  exact h.stored

theorem writeData (h : Sound host rs q) {g off k : Nat} (hoff : q.dataOffset g = some off) (bs : Bytes)
    (hfits : k + bs.length ≤ q.header.clusterSize) :
    off + k + bs.length ≤ q.file.len ∧ Sound host rs (q.wrote (off + k) bs) ∧
      Quiet (fun o => ¬ o = .data g) rs q (q.wrote (off + k) bs) := by
  have hin := h.placed.inside (o := .data g) hoff
  have hlen : off + k + bs.length ≤ q.file.len := by omega
  refine ⟨hlen, h.write (P := (· = .data g)) (off + k) bs (fun p hlo hhi => ?_) (by simp) (by simp) (by simp) hlen⟩
  exact ⟨_, off, rfl, hoff, by omega, by omega⟩

theorem writeReserved {off : Nat} (h : Sound host (rs ++ [off]) q) (bs : Bytes)
    (hfits : bs.length ≤ q.header.clusterSize) :
    off + bs.length ≤ q.file.len ∧ Sound host (rs ++ [off]) (q.wrote off bs) ∧
      Quiet (fun o => ¬ o = .reserved rs.length) (rs ++ [off]) q (q.wrote off bs) := by
  have hplace : q.place (rs ++ [off]) (.reserved rs.length) = some off := place_snoc_last
  have hin := h.placed.inside hplace
  have hlen : off + bs.length ≤ q.file.len := by omega
  refine ⟨hlen, h.write (P := (· = .reserved rs.length)) off bs (fun p hlo hhi => ?_) (by simp) (by simp) (by simp) hlen⟩
  exact ⟨_, off, rfl, hplace, hlo, by omega⟩

theorem l2View_length (h : Sound host rs q) (i off : Nat) : (q.l2View i off).length = q.header.l2EntriesPerTable := by
  unfold l2View
  cases hlookup : q.l2Cache.lookup i with
  | some entry => exact (h.cached i entry hlookup).2.1
  | none => exact tableAt_length _ _ _

end Sound

end Qcow2File

end CloneVmm.Storage
