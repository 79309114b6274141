import CloneVmm.Storage.Reopen

namespace CloneVmm.Storage

open CloneVmm.Lib

section Layout

variable (v b : Nat) (name : Option String)

theorem createFirstRcBlock_le (clusterIdx : Nat) : createFirstRcBlock v b ≤ createRcEntry v b clusterIdx := by
  unfold createRcEntry
  omega

theorem clusterSize_le_createFirstRcBlock : 2 ^ b ≤ createFirstRcBlock v b := Nat.le_add_right _ _

theorem createFirstRcBlock_le_createFileEnd : createFirstRcBlock v b ≤ createFileEnd v b := by
  unfold createFileEnd createL1Offset
  omega

theorem setCreateRefcounts_data (file : HostFile) (clusterIdxs : List Nat) {i : Nat} (hi : i < createFirstRcBlock v b) :
    (setCreateRefcounts v b file clusterIdxs).data i = file.data i := by
  induction clusterIdxs generalizing file with
  | nil => rfl
  | cons idx idxs ih =>
    refine (ih _).trans ?_
    exact writeBytes_below _ (hi.trans_le (createFirstRcBlock_le v b idx))

theorem setCreateRefcounts_len (file : HostFile) (clusterIdxs : List Nat) :
    file.len ≤ (setCreateRefcounts v b file clusterIdxs).len := by
  induction clusterIdxs generalizing file with
  | nil => exact Nat.le_refl _
  | cons idx idxs ih => exact (file.len_le_write_len _ _).trans (ih _)

def createStart : HostFile :=
  (HostFile.empty.write 0 (createHeader v b name).bytes).write qcow2V3HeaderSize
    ((name.map (·.toUTF8.data.toList)).getD [])

theorem createStart_data : (createStart v b name).data =
    writeBytes (writeBytes HostFile.empty.data 0 (createHeader v b name).bytes) qcow2V3HeaderSize
      ((name.map (·.toUTF8.data.toList)).getD []) := by
  rw [createStart, HostFile.write_data, HostFile.write_data]

theorem createTables_eq : createTables v b name =
    ((createStart v b name).setLen (createFileEnd v b)).write (2 ^ b) (tableBytes (createRcTable v b)) := rfl

theorem createHeader_bytes_length : (createHeader v b name).bytes.length = qcow2V3HeaderSize := by
  rw [Qcow2Header.bytes_length]
  rfl

variable {v b name}

theorem nameBytes_length (name : Option String) :
    ((name.map (·.toUTF8.data.toList)).getD []).length = (name.map (·.utf8ByteSize)).getD 0 := by
  cases name with
  | none => rfl
  | some s => simp

theorem createStart_above (hname : qcow2V3HeaderSize + (name.map (·.utf8ByteSize)).getD 0 ≤ 2 ^ b) :
    (createStart v b name).len ≤ 2 ^ b ∧ ∀ i, 2 ^ b ≤ i → (createStart v b name).data i = 0 := by
  have hheader := createHeader_bytes_length v b name
  have hlen : (createStart v b name).len ≤ 2 ^ b := by
    have hname' := nameBytes_length name
    unfold createStart
    simp only [HostFile.write, HostFile.writtenLen, HostFile.empty]
    split
    · split
      · omega
      · omega
    · split
      · omega
      · omega
  exact ⟨hlen, fun i hi => (createStart v b name).zero_beyond i (hlen.trans hi)⟩

theorem createTables_data (hname : qcow2V3HeaderSize + (name.map (·.utf8ByteSize)).getD 0 ≤ 2 ^ b) :
    (createTables v b name).data = writeBytes (createStart v b name).data (2 ^ b) (tableBytes (createRcTable v b)) := by
  have hle : (createStart v b name).len ≤ createFileEnd v b :=
    (createStart_above hname).1.trans
      ((clusterSize_le_createFirstRcBlock v b).trans (createFirstRcBlock_le_createFileEnd v b))
  rw [createTables_eq, HostFile.write_data, HostFile.setLen_data _ hle]

theorem createFileEnd_le_len : createFileEnd v b ≤ (createFile v b name).len :=
  (HostFile.len_le_write_len _ _ _).trans (setCreateRefcounts_len v b (createTables v b name) _)

theorem createFile_data {i : Nat} (hi : i < createFirstRcBlock v b) :
    (createFile v b name).data i = (createTables v b name).data i :=
  setCreateRefcounts_data v b _ _ hi

theorem createFile_header (hb : 9 ≤ b) (hname : qcow2V3HeaderSize + (name.map (·.utf8ByteSize)).getD 0 ≤ 2 ^ b) :
    readBytes (createFile v b name).data 0 qcow2V3HeaderSize = (createHeader v b name).bytes := by
  have hpow : 2 ^ 9 ≤ 2 ^ b := Nat.pow_le_pow_right (by omega) hb
  have hfirst := clusterSize_le_createFirstRcBlock v b
  have hheader := createHeader_bytes_length v b name
  have hbytes : readBytes (createFile v b name).data 0 qcow2V3HeaderSize =
      readBytes (writeBytes HostFile.empty.data 0 (createHeader v b name).bytes) 0 qcow2V3HeaderSize := by
    apply readBytes_congr
    intro i _ hi
    rw [Nat.zero_add] at hi
    have hi' : i < 2 ^ b := by omega
    rw [createFile_data (hi'.trans_le hfirst), createTables_data hname, writeBytes_below _ hi',
      createStart_data, writeBytes_below _ hi]
  rw [hbytes, ← hheader]
  exact readBytes_writeBytes _ _ _

theorem createFileEnd_eq : createFileEnd v b =
    (1 + createRcTableClusters v b + createRcBlocks v b + createL1Clusters v b) * 2 ^ b := by
  unfold createFileEnd createL1Offset createFirstRcBlock
  ring

theorem createTable_getD_eq (hname : qcow2V3HeaderSize + (name.map (·.utf8ByteSize)).getD 0 ≤ 2 ^ b)
    (hend : createFileEnd v b ≤ 2 ^ 54) {n : Nat} (hn : n ≤ createRcTableClusters v b) (i : Nat) :
    (tableAt (createFile v b name).data (2 ^ b) (n * 2 ^ b / 8)).getD i 0 =
      if i < createRcBlocks v b ∧ i < n * 2 ^ b / 8 then createFirstRcBlock v b + i * 2 ^ b else 0 := by
  have hmul : n * 2 ^ b ≤ createRcTableClusters v b * 2 ^ b := Nat.mul_le_mul_right _ hn
  have hcount := Nat.div_mul_le_self (n * 2 ^ b) 8
  have htable : tableAt (createFile v b name).data (2 ^ b) (n * 2 ^ b / 8) =
      tableAt (writeBytes (createStart v b name).data (2 ^ b) (tableBytes (createRcTable v b))) (2 ^ b)
        (n * 2 ^ b / 8) := by
    apply tableAt_congr
    intro p _ hp
    have hlt : p < createFirstRcBlock v b := by
      unfold createFirstRcBlock
      omega
    rw [createFile_data hlt, createTables_data hname]
  have hlen : (createRcTable v b).length = createRcBlocks v b := by simp [createRcTable]
  have hfit : ∀ e ∈ createRcTable v b, e < 2 ^ 64 := by
    intro e he
    obtain ⟨j, hj, rfl⟩ := List.mem_map.mp he
    rw [List.mem_range] at hj
    have hblock : j * 2 ^ b ≤ createRcBlocks v b * 2 ^ b := Nat.mul_le_mul_right _ hj.le
    unfold createFileEnd createL1Offset at hend
    omega
  rw [htable, tableAt_writeBytes_getD hfit, hlen]
  split
  · rename_i hi
    rw [createRcTable, List.getD_eq_getElem?_getD, List.getElem?_map, List.getElem?_range hi.1, Option.map_some,
      Option.getD_some]
  · exact tableAt_zero (fun p hp _ => (createStart_above hname).2 p hp) i

theorem createTable_getD (hname : qcow2V3HeaderSize + (name.map (·.utf8ByteSize)).getD 0 ≤ 2 ^ b)
    (hend : createFileEnd v b ≤ 2 ^ 54) {n : Nat} (hn : n ≤ createRcTableClusters v b) (i : Nat) :
    (tableAt (createFile v b name).data (2 ^ b) (n * 2 ^ b / 8)).getD i 0 = 0 ∨
      i < createRcBlocks v b ∧
        (tableAt (createFile v b name).data (2 ^ b) (n * 2 ^ b / 8)).getD i 0 = createFirstRcBlock v b + i * 2 ^ b := by
  rw [createTable_getD_eq hname hend hn]
  split
  · exact Or.inr ⟨And.left ‹_›, rfl⟩
  · exact Or.inl rfl

variable (v b) in
def createSlot : Owner → Option Nat
  | .header => some 0
  | .refcountTable i => if i < createRcTableClusters v b then some (1 + i) else none
  | .refcountBlock i => if i < createRcBlocks v b then some (1 + createRcTableClusters v b + i) else none
  | .l1 i =>
    if i < createL1Clusters v b then some (1 + createRcTableClusters v b + createRcBlocks v b + i) else none
  | .l2 _ | .data _ | .reserved _ => none

theorem createSlot_eq_some {o : Owner} {k : Nat} (h : createSlot v b o = some k) :
    o = .header ∧ k = 0 ∨
      (∃ i, o = .refcountTable i ∧ i < createRcTableClusters v b ∧ k = 1 + i) ∨
      (∃ i, o = .refcountBlock i ∧ i < createRcBlocks v b ∧ k = 1 + createRcTableClusters v b + i) ∨
      ∃ i, o = .l1 i ∧ i < createL1Clusters v b ∧ k = 1 + createRcTableClusters v b + createRcBlocks v b + i := by
  cases o with
  | header =>
    cases h
    exact Or.inl ⟨rfl, rfl⟩
  | refcountTable i =>
    obtain ⟨hi, hk⟩ := Option.ite_none_right_eq_some.mp h
    exact Or.inr (Or.inl ⟨i, rfl, hi, (Option.some.inj hk).symm⟩)
  | refcountBlock i =>
    obtain ⟨hi, hk⟩ := Option.ite_none_right_eq_some.mp h
    exact Or.inr (Or.inr (Or.inl ⟨i, rfl, hi, (Option.some.inj hk).symm⟩))
  | l1 i =>
    obtain ⟨hi, hk⟩ := Option.ite_none_right_eq_some.mp h
    exact Or.inr (Or.inr (Or.inr ⟨i, rfl, hi, (Option.some.inj hk).symm⟩))
  | l2 _ | data _ | reserved _ => cases h

theorem createSlot_lt {o : Owner} {k : Nat} (h : createSlot v b o = some k) :
    k < 1 + createRcTableClusters v b + createRcBlocks v b + createL1Clusters v b := by
  rcases createSlot_eq_some h with ⟨-, rfl⟩ | ⟨i, -, hi, rfl⟩ | ⟨i, -, hi, rfl⟩ | ⟨i, -, hi, rfl⟩
  · omega
  · omega
  · omega
  · omega

theorem createSlot_inj {o o' : Owner} {k : Nat} (h : createSlot v b o = some k) (h' : createSlot v b o' = some k) :
    o = o' := by
  rcases createSlot_eq_some h with ⟨rfl, hk⟩ | ⟨i, rfl, hi, hk⟩ | ⟨i, rfl, hi, hk⟩ | ⟨i, rfl, hi, hk⟩ <;>
    rcases createSlot_eq_some h' with ⟨rfl, hk'⟩ | ⟨j, rfl, hj, hk'⟩ | ⟨j, rfl, hj, hk'⟩ | ⟨j, rfl, hj, hk'⟩ <;>
    first
      | rfl
      | congr 1
        omega

end Layout

namespace Qcow2File

variable {B : Type} {host : Host} {openBacking : PathBuf → Except Qcow2Error B} {path : PathBuf} {name : Option String}
  {v b : Nat} {q : Qcow2File B}

theorem create_eq_ok (h : create v b host openBacking path name = .ok q) :
    9 ≤ b ∧ b ≤ 21 ∧ qcow2V3HeaderSize + (name.map (·.utf8ByteSize)).getD 0 ≤ 2 ^ b ∧
      (createFile v b name).len ≤ host.limit ∧ openFile openBacking path (createFile v b name) = .ok q := by
  unfold create at h
  split at h
  · cases h
  · split at h
    · cases h
    · split at h
      · cases h
      · rename_i hbits hname hlen
        exact ⟨by omega, by omega, by omega, by omega, h⟩

theorem fits_createHeader (hv : v < 2 ^ 64) (hb : 9 ≤ b ∧ b ≤ 21)
    (hname : qcow2V3HeaderSize + (name.map (·.utf8ByteSize)).getD 0 ≤ 2 ^ b) (hend : createFileEnd v b ≤ 2 ^ 54) :
    (createHeader v b name).Fits := by
  have hpow : 2 ^ b ≤ 2 ^ 21 := Nat.pow_le_pow_right (by omega) hb.2
  have hl1 : createL1Offset v b ≤ createFileEnd v b := Nat.le_add_right _ _
  constructor
  · rfl
  · exact Or.inr rfl
  · change (if name.isSome then qcow2V3HeaderSize else 0) < 2 ^ 64
    split
    · decide
    · decide
  · change (name.map (·.utf8ByteSize)).getD 0 < 2 ^ 32
    omega
  · exact hb
  · exact hv
  · rfl
  · exact Nat.mod_lt _ (by decide)
  · change createL1Offset v b < 2 ^ 64
    omega
  · change 2 ^ b < 2 ^ 64
    omega
  · exact Nat.mod_lt _ (by decide)
  · change 0 < 2 ^ 32
    decide
  · change 0 < 2 ^ 64
    decide
  · change 0 < 2 ^ 64
    decide
  · change 0 < 2 ^ 64
    decide
  · change 0 < 2 ^ 64
    decide
  · change defaultRefcountOrder < 2 ^ 32
    decide
  · change qcow2V3HeaderSize < 2 ^ 32
    decide
  · intro _
    change 0 % 2 ^ 32 = 0 / 2 ^ 32
    decide
  · intro hversion
    change 3 = 2 at hversion
    omega

theorem readFrom_createFile (hv : v < 2 ^ 64) (hb : 9 ≤ b ∧ b ≤ 21)
    (hname : qcow2V3HeaderSize + (name.map (·.utf8ByteSize)).getD 0 ≤ 2 ^ b) (hend : createFileEnd v b ≤ 2 ^ 54) :
    Qcow2Header.readFrom (createFile v b name) = .ok (createHeader v b name) := by
  apply Qcow2Header.readFrom_of_bytes (fits_createHeader hv hb hname hend)
  · have hfirst := clusterSize_le_createFirstRcBlock v b
    have hlast := createFirstRcBlock_le_createFileEnd v b
    have hlen : createFileEnd v b ≤ (createFile v b name).len := createFileEnd_le_len
    change qcow2V3HeaderSize ≤ _
    omega
  · exact createFile_header hb.1 hname

theorem openFile_eq_ok {file : HostFile} {header : Qcow2Header} (hread : Qcow2Header.readFrom file = .ok header)
    (hl1 : header.l1TableOffset + header.l1Size * 8 ≤ file.len)
    (htable : header.refcountTableOffset + header.refcountTableClusters * header.clusterSize ≤ file.len)
    (h : openFile openBacking path file = .ok q) :
    ∃ backing, openHeaderBacking openBacking path file header = .ok backing ∧
      q = ⟨file, header, tableAt file.data header.l1TableOffset header.l1Size,
        tableAt file.data header.refcountTableOffset (header.refcountTableClusters * header.clusterSize / 8), ∅, 0,
        alignUp file.len header.clusterSize, backing⟩ := by
  have hentries : header.refcountTableOffset + header.refcountTableClusters * header.clusterSize / 8 * 8 ≤ file.len := by
    have := Nat.div_mul_le_self (header.refcountTableClusters * header.clusterSize) 8
    omega
  unfold openFile at h
  rw [hread] at h
  change (readTable file header.l1TableOffset header.l1Size >>= _) = _ at h
  rw [readTable_eq hl1] at h
  change (readTable file header.refcountTableOffset _ >>= _) = _ at h
  rw [readTable_eq hentries] at h
  change (openHeaderBacking openBacking path file header >>= _) = _ at h
  cases hbacking : openHeaderBacking openBacking path file header with
  | error e =>
    rw [hbacking] at h
    cases h
  | ok backing =>
    rw [hbacking] at h
    cases h
    exact ⟨backing, rfl, rfl⟩

structure Created (v b : Nat) (name : Option String) (q : Qcow2File B) : Prop where
  file : q.file = createFile v b name
  header : q.header = createHeader v b name
  l1Table : q.l1Table = tableAt q.file.data q.header.l1TableOffset q.header.l1Size
  refcountTable : q.refcountTable = q.storedTable
  l2Cache : q.l2Cache = ∅
  nextAllocOffset : q.nextAllocOffset = alignUp q.file.len q.header.clusterSize
  bits : 9 ≤ b ∧ b ≤ 21
  name_le : qcow2V3HeaderSize + (name.map (·.utf8ByteSize)).getD 0 ≤ 2 ^ b
  end_le : createFileEnd v b ≤ 2 ^ 54
  fits : q.header.Fits
  onDisk : Qcow2Header.readFrom q.file = .ok q.header
  l1Inside : q.header.l1TableOffset + q.header.l1Size * 8 ≤ q.file.len
  tableInside : q.header.refcountTableOffset + q.header.refcountTableClusters * q.header.clusterSize ≤ q.file.len

theorem createL1Clusters_eq (hb : b ≤ 21) :
    createL1Clusters v b = (createL1Size v b * 8 + 2 ^ b - 1) / 2 ^ b := by
  have hpow : 2 ^ b ≤ 2 ^ 21 := Nat.pow_le_pow_right (by omega) hb
  have hsize : createL1Size v b < 2 ^ 32 := Nat.mod_lt _ (by decide)
  rw [createL1Clusters, divRoundUp, Nat.mod_eq_of_lt (by omega)]

theorem createL1_inside (hb : b ≤ 21) : createL1Offset v b + createL1Size v b * 8 ≤ (createFile v b name).len := by
  have hend : createFileEnd v b ≤ (createFile v b name).len := createFileEnd_le_len
  have hmul := le_roundUp (createL1Size v b * 8) (Nat.two_pow_pos b)
  rw [← createL1Clusters_eq hb] at hmul
  unfold createFileEnd at hend
  omega

theorem createTable_inside : 2 ^ b + createRcTableClusters v b % 2 ^ 32 * 2 ^ b ≤ (createFile v b name).len := by
  have hend : createFileEnd v b ≤ (createFile v b name).len := createFileEnd_le_len
  have hlast := createFirstRcBlock_le_createFileEnd v b
  have hmul := Nat.mul_le_mul_right (2 ^ b) (Nat.mod_le (createRcTableClusters v b) (2 ^ 32))
  unfold createFirstRcBlock at hlast
  omega

theorem create_opened (hv : v < 2 ^ 64) (hend : createFileEnd v b ≤ 2 ^ 54)
    (h : create v b host openBacking path name = .ok q) :
    Created v b name q ∧ q.file.len ≤ host.limit ∧ Named openBacking path q := by
  obtain ⟨hlo, hhi, hname, hlen, hopen⟩ := create_eq_ok h
  have hfits : (createHeader v b name).Fits := fits_createHeader hv ⟨hlo, hhi⟩ hname hend
  have hread := readFrom_createFile hv ⟨hlo, hhi⟩ hname hend
  obtain ⟨backing, hbacking, rfl⟩ := openFile_eq_ok hread (createL1_inside hhi) createTable_inside hopen
  refine ⟨⟨rfl, rfl, rfl, rfl, rfl, rfl, ⟨hlo, hhi⟩, hname, hend, hfits, hread, createL1_inside hhi, createTable_inside⟩,
    hlen, ?_, hbacking⟩
  cases name with
  | none => exact Or.inl rfl
  | some s => exact Or.inr ⟨Nat.le_refl _, hname⟩

theorem create_created (hv : v < 2 ^ 64) (hlimit : host.limit ≤ 2 ^ 54)
    (h : create v b host openBacking path name = .ok q) :
    Created v b name q ∧ q.file.len ≤ host.limit ∧ Named openBacking path q := by
  obtain ⟨-, -, -, hlen, -⟩ := create_eq_ok h
  have hend : createFileEnd v b ≤ (createFile v b name).len := createFileEnd_le_len
  exact create_opened hv (by omega) h

theorem create_of_backing (hv : v < 2 ^ 64) (hb : 9 ≤ b ∧ b ≤ 21) (hend : createFileEnd v b ≤ 2 ^ 54)
    (hname : qcow2V3HeaderSize + (name.map (·.utf8ByteSize)).getD 0 ≤ 2 ^ b)
    (hlen : (createFile v b name).len ≤ host.limit) {backing : Option B}
    (hbacking : openHeaderBacking openBacking path (createFile v b name) (createHeader v b name) = .ok backing) :
    create v b host openBacking path name =
      .ok ⟨createFile v b name, createHeader v b name,
        tableAt (createFile v b name).data (createL1Offset v b) (createL1Size v b),
        tableAt (createFile v b name).data (2 ^ b) (createRcTableClusters v b % 2 ^ 32 * 2 ^ b / 8), ∅, 0,
        alignUp (createFile v b name).len (2 ^ b), backing⟩ := by
  have hread := readFrom_createFile hv hb hname hend
  have hentries : 2 ^ b + createRcTableClusters v b % 2 ^ 32 * 2 ^ b / 8 * 8 ≤ (createFile v b name).len :=
    (Nat.add_le_add_left (Nat.div_mul_le_self _ 8) _).trans createTable_inside
  unfold create
  rw [if_neg (not_not.mpr hb), if_neg (Nat.not_lt.mpr hname), if_neg (Nat.not_lt.mpr hlen)]
  refine exceptBind_eq_ok.mpr ⟨_, hread, exceptBind_eq_ok.mpr ⟨_, readTable_eq (createL1_inside hb.2), ?_⟩⟩
  exact exceptBind_eq_ok.mpr ⟨_, readTable_eq hentries, exceptBind_eq_ok.mpr ⟨backing, hbacking, rfl⟩⟩

theorem create_alone (hv : v < 2 ^ 64) (hb : 9 ≤ b ∧ b ≤ 21) (hend : createFileEnd v b ≤ 2 ^ 54)
    (hlen : (createFile v b none).len ≤ host.limit) :
    create v b host openBacking path none =
      .ok ⟨createFile v b none, createHeader v b none,
        tableAt (createFile v b none).data (createL1Offset v b) (createL1Size v b),
        tableAt (createFile v b none).data (2 ^ b) (createRcTableClusters v b % 2 ^ 32 * 2 ^ b / 8), ∅, 0,
        alignUp (createFile v b none).len (2 ^ b), none⟩ := by
  have hpow : 2 ^ 9 ≤ 2 ^ b := Nat.pow_le_pow_right (by omega) hb.1
  refine create_of_backing hv hb hend ?_ hlen rfl
  change 104 ≤ 2 ^ b
  omega

theorem fromUTF8?_toUTF8 (s : String) : String.fromUTF8? ⟨s.toUTF8.data.toList.toArray⟩ = some s := by
  rw [Array.toArray_toList]
  exact dif_pos s.isValidUTF8

theorem readBackingFilePath_createFile {s : String} (hname : qcow2V3HeaderSize + s.utf8ByteSize ≤ 2 ^ b) :
    readBackingFilePath (createFile v b (some s)) (createHeader v b (some s)) = .ok s := by
  have hfirst := clusterSize_le_createFirstRcBlock v b
  have hlen : createFileEnd v b ≤ (createFile v b (some s)).len := createFileEnd_le_len
  have hlast := createFirstRcBlock_le_createFileEnd v b
  have hsize : s.toUTF8.data.toList.length = s.utf8ByteSize := by simp
  have hbytes : readBytes (createFile v b (some s)).data qcow2V3HeaderSize s.utf8ByteSize = s.toUTF8.data.toList := by
    have hstart : readBytes (createFile v b (some s)).data qcow2V3HeaderSize s.utf8ByteSize =
        readBytes (writeBytes (writeBytes HostFile.empty.data 0 (createHeader v b (some s)).bytes) qcow2V3HeaderSize
          s.toUTF8.data.toList) qcow2V3HeaderSize s.utf8ByteSize := by
      apply readBytes_congr
      intro i _ hi
      have hi' : i < 2 ^ b := by omega
      rw [createFile_data (hi'.trans_le hfirst), createTables_data hname, writeBytes_below _ hi', createStart_data]
      rfl
    rw [hstart, ← hsize]
    exact readBytes_writeBytes _ _ _
  have hread : (createFile v b (some s)).readExact (createHeader v b (some s)).backingFileOffset
      (createHeader v b (some s)).backingFileSize = some s.toUTF8.data.toList := by
    change (createFile v b (some s)).readExact qcow2V3HeaderSize s.utf8ByteSize = _
    rw [HostFile.readExact_eq _ (by omega), hbytes]
  unfold readBackingFilePath
  rw [hread]
  dsimp only
  rw [fromUTF8?_toUTF8]

theorem openHeaderBacking_createFile {s : String} (hs : 0 < s.utf8ByteSize)
    (hname : qcow2V3HeaderSize + s.utf8ByteSize ≤ 2 ^ b) {b' : B}
    (hopen : openBacking (resolveBackingPath path s) = .ok b') :
    openHeaderBacking openBacking path (createFile v b (some s)) (createHeader v b (some s)) = .ok (some b') := by
  unfold openHeaderBacking
  rw [if_pos ⟨show qcow2V3HeaderSize ≠ 0 by decide, hs⟩]
  refine exceptBind_eq_ok.mpr ⟨s, readBackingFilePath_createFile hname, ?_⟩
  exact exceptBind_eq_ok.mpr ⟨b', hopen, rfl⟩

section Zero

variable (hzero : ∀ e ∈ q.l1Table, e = 0)

include hzero

theorem l2Offset_eq_none (i : Nat) : q.l2Offset i = none := by
  unfold l2Offset
  cases hentry : q.l1Table[i]? with
  | none => rfl
  | some e =>
    obtain rfl := hzero e (List.mem_of_getElem? hentry)
    rfl

theorem dataOffset_eq_none (g : Nat) : q.dataOffset g = none := by
  rw [dataOffset, l2Offset_eq_none hzero, Option.bind_none]

end Zero

namespace Created

variable (h : Created v b name q) (hzero : ∀ e ∈ q.l1Table, e = 0)

include h

theorem clusterSize_eq : q.header.clusterSize = 2 ^ b := by
  rw [h.header]
  rfl

theorem size_eq : q.header.size = v := by
  rw [h.header]
  rfl

theorem clusterBits_eq : q.header.clusterBits = b := by
  rw [h.header]
  rfl

theorem block_eq (i : Nat) : q.block i = 0 ∨ i < createRcBlocks v b ∧ q.block i = createFirstRcBlock v b + i * 2 ^ b := by
  have htable : q.refcountTable = tableAt (createFile v b name).data (2 ^ b)
      (createRcTableClusters v b % 2 ^ 32 * 2 ^ b / 8) := by
    rw [h.refcountTable, storedTable, h.clusterSize_eq, h.header, h.file]
    rfl
  rw [block, htable]
  exact createTable_getD h.name_le h.end_le (Nat.mod_le _ _) i

theorem tableOk : TableOk host q := by
  have hle : q.refcountTable.length * 8 ≤ q.header.refcountTableClusters * q.header.clusterSize := by
    rw [h.refcountTable, storedTable, tableAt_length]
    exact Nat.div_mul_le_self _ _
  exact ⟨Or.inl hle, Or.inl hle⟩

include hzero

theorem place_eq {o : Owner} {off : Nat} (ho : q.place [] o = some off) :
    ∃ k, createSlot v b o = some k ∧ off = k * q.header.clusterSize := by
  rw [h.clusterSize_eq]
  cases o with
  | header =>
    cases ho
    exact ⟨0, rfl, (Nat.zero_mul _).symm⟩
  | refcountTable i =>
    obtain ⟨hi, hoff⟩ := Option.ite_none_right_eq_some.mp ho
    have hlt : i < createRcTableClusters v b := by
      rw [h.header] at hi
      exact hi.trans_le (Nat.mod_le _ _)
    refine ⟨1 + i, if_pos hlt, ?_⟩
    rw [h.clusterSize_eq, h.header] at hoff
    rw [← Option.some.inj hoff]
    change 2 ^ b + i * 2 ^ b = _
    ring
  | refcountBlock i =>
    obtain ⟨hne, hoff⟩ := Option.ite_none_left_eq_some.mp ho
    obtain ⟨hi, hblock⟩ := (h.block_eq i).resolve_left hne
    refine ⟨1 + createRcTableClusters v b + i, if_pos hi, ?_⟩
    rw [← Option.some.inj hoff, hblock, createFirstRcBlock]
    ring
  | l1 i =>
    obtain ⟨hi, hoff⟩ := Option.ite_none_right_eq_some.mp ho
    have hlt : i < createL1Clusters v b := by
      rw [l1Clusters, h.clusterSize_eq, h.header] at hi
      rw [createL1Clusters_eq h.bits.2]
      exact hi
    refine ⟨1 + createRcTableClusters v b + createRcBlocks v b + i, if_pos hlt, ?_⟩
    rw [h.clusterSize_eq, h.header] at hoff
    rw [← Option.some.inj hoff]
    change createL1Offset v b + i * 2 ^ b = _
    rw [createL1Offset, createFirstRcBlock]
    ring
  | l2 i =>
    rw [place, l2Offset_eq_none hzero] at ho
    cases ho
  | data g =>
    rw [place, dataOffset_eq_none hzero] at ho
    cases ho
  | reserved i => cases ho

theorem sound (hlimit : host.limit ≤ 2 ^ 54) (hlen : q.file.len ≤ host.limit) : Sound host [] q := by
  have hcs := clusterSize_bounds h.fits
  refine ⟨h.fits, h.onDisk, ?_, ?_, ?_, ?_, h.l1Inside, h.tableInside, ?_, ?_, ?_, ?_, hlen⟩
  · rw [h.l1Table, tableAt_length]
  · exact fun e he => Or.inl (hzero e he)
  · intro i off hoff
    rw [l2Offset_eq_none hzero] at hoff
    cases hoff
  · intro i entry hentry
    rw [h.l2Cache] at hentry
    cases hentry
  · intro i
    rw [block, h.refcountTable]
    exact Or.inr rfl
  · apply Placed.of_slot (clusterSize_pos _) _ (fun o k => createSlot_lt) (fun o o' k => createSlot_inj)
      fun o off => h.place_eq hzero
    rw [h.clusterSize_eq, ← createFileEnd_eq, h.file]
    exact createFileEnd_le_len
  · rw [h.nextAllocOffset]
    exact le_alignUp (by omega) (by omega)
  · rw [h.nextAllocOffset]
    exact Nat.dvd_mul_left _ _

end Created

variable [Backing B]

theorem holds_create (hv : v < 2 ^ 64) (hlimit : host.limit ≤ 2 ^ 54)
    (h : create v b host openBacking path name = .ok q) (hzero : ∀ e ∈ q.l1Table, e = 0) {base : ByteStore}
    (hrests : Rests host base q.backing)
    (hcovers : q.header.size ≤ q.header.l1Size * q.header.l2EntriesPerTable * q.header.clusterSize) :
    Holds host base base q := by
  obtain ⟨hcreated, hlen, -⟩ := create_created hv hlimit h
  refine ⟨hcreated.sound hzero hlimit hlen, hcreated.tableOk, hrests, hcovers, ?_⟩
  funext pos
  exact byteAt_none (dataOffset_eq_none hzero _)

end Qcow2File

end CloneVmm.Storage
