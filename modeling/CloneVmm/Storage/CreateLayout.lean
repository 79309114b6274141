import CloneVmm.Storage.Create
import Mathlib.Algebra.Order.Floor.Div

namespace CloneVmm.Storage

open CloneVmm.Lib

/-- The block that holds the reference count of a cluster, or 0. -/
def blockOf (file : HostFile) (header : Qcow2Header) (cluster : Nat) : Nat :=
  (tableAt file.data header.refcountTableOffset (header.refcountTableClusters * header.clusterSize / 8)).getD
    (cluster / (header.clusterSize / 2)) 0

/-- The reference count of a cluster, of 16 bits. A cluster without a block has none. -/
def refcountOf (file : HostFile) (header : Qcow2Header) (cluster : Nat) : Nat :=
  if blockOf file header cluster = 0 then 0
  else beNat (readBytes file.data (blockOf file header cluster + cluster % (header.clusterSize / 2) * 2) 2)

/-- The blocks that the table of reference counts names. -/
def refcountBlocks (file : HostFile) (header : Qcow2Header) : List Nat :=
  (tableAt file.data header.refcountTableOffset (header.refcountTableClusters * header.clusterSize / 8)).filter (· ≠ 0)

/-- The clusters of the header, of the table of reference counts, of its blocks and of the table of
the first level. -/
def metadataClusters (file : HostFile) (header : Qcow2Header) : List Nat :=
  [0]
    ++ (List.range header.refcountTableClusters).map (header.refcountTableOffset / header.clusterSize + ·)
    ++ (refcountBlocks file header).map (· / header.clusterSize)
    ++ (List.range (header.l1Size * 8 ⌈/⌉ header.clusterSize)).map (header.l1TableOffset / header.clusterSize + ·)

structure WellFormed (file : HostFile) (header : Qcow2Header) : Prop where
  onDisk : Qcow2Header.readFrom file = .ok header
  aligned : ∀ off ∈ header.refcountTableOffset :: header.l1TableOffset :: refcountBlocks file header,
    header.clusterSize ∣ off
  l1Zero : ∀ e ∈ tableAt file.data header.l1TableOffset header.l1Size, e = 0
  disjoint : (metadataClusters file header).Nodup
  covered : ∀ c ∈ metadataClusters file header, blockOf file header c ≠ 0
  counted : ∀ c, refcountOf file header c = if c ∈ metadataClusters file header then 1 else 0

section Sizes

variable (v b : Nat)

/-- The sizes that `create` computes fit: the rounding up of the virtual size does not wrap, and the
size of the first level is one of 32 bits. -/
def SizesFit : Prop := v + 2 ^ b - 1 < 2 ^ 64 ∧ v ⌈/⌉ (2 ^ b * (2 ^ b / 8)) < 2 ^ 32

def mapClusters : Nat := v ⌈/⌉ (2 ^ b * (2 ^ b / 8)) * 8 ⌈/⌉ 2 ^ b

/-- Blocks of reference counts enough for the header, one cluster of the table, one block and the
table of the first level. -/
def blocksForMap : Nat := (3 + mapClusters v b) ⌈/⌉ (2 ^ b / 2)

/-- The last block of reference counts has entries left for the blocks after the first and for the clusters of
the table after the first. -/
def RoomForBlocks : Prop :=
  1 + blocksForMap v b * 8 ⌈/⌉ 2 ^ b + blocksForMap v b + mapClusters v b ≤ blocksForMap v b * (2 ^ b / 2)

theorem ceilDiv_ceilDiv (a : Nat) {m n : Nat} (hm : 0 < m) (hn : 0 < n) : a ⌈/⌉ m ⌈/⌉ n = a ⌈/⌉ (m * n) := by
  apply eq_of_forall_ge_iff
  intro k
  rw [ceilDiv_le_iff_le_mul hn, ceilDiv_le_iff_le_mul hm, ceilDiv_le_iff_le_mul (Nat.mul_pos hm hn), Nat.mul_assoc]

theorem divRoundUp_eq {a size : Nat} (h : a + size - 1 < 2 ^ 64) : divRoundUp a size = a ⌈/⌉ size := by
  rw [divRoundUp, Nat.mod_eq_of_lt h, Nat.ceilDiv_eq_add_pred_div]

variable {v b} (hb : 9 ≤ b ∧ b ≤ 21)

include hb

theorem pow_bounds : 2 ^ 9 ≤ 2 ^ b ∧ 2 ^ b ≤ 2 ^ 21 :=
  ⟨Nat.pow_le_pow_right (by omega) hb.1, Nat.pow_le_pow_right (by omega) hb.2⟩

theorem pow_div_two_mul : 2 ^ b / 2 * 2 = 2 ^ b :=
  Nat.div_mul_cancel (Nat.pow_dvd_pow 2 (show 1 ≤ b by omega))

theorem createL1Size_eq (hfit : SizesFit v b) : createL1Size v b = v ⌈/⌉ (2 ^ b * (2 ^ b / 8)) := by
  have hcs := pow_bounds hb
  have hclusters : v ⌈/⌉ 2 ^ b ≤ v := by
    rw [ceilDiv_le_iff_le_mul (by omega)]
    exact Nat.le_mul_of_pos_left _ (by omega)
  have hround : v ⌈/⌉ 2 ^ b + 2 ^ b / 8 - 1 < 2 ^ 64 := by
    have := hfit.1
    omega
  rw [createL1Size, divRoundUp_eq hfit.1, divRoundUp_eq hround, ceilDiv_ceilDiv _ (by omega) (by omega)]
  exact Nat.mod_eq_of_lt hfit.2

theorem createL1Clusters_le : createL1Clusters v b ≤ 2 ^ 26 := by
  have hcs := pow_bounds hb
  have hsize : createL1Size v b < 2 ^ 32 := Nat.mod_lt _ (by decide)
  rw [createL1Clusters, divRoundUp_eq (by omega), ceilDiv_le_iff_le_mul (by omega)]
  omega

theorem createRcBlocks_eq : createRcBlocks v b = (3 + createL1Clusters v b) ⌈/⌉ (2 ^ b / 2) := by
  have hcs := pow_bounds hb
  have hl1 := createL1Clusters_le (v := v) hb
  exact divRoundUp_eq (by omega)

theorem createRcBlocks_bounds : 1 ≤ createRcBlocks v b ∧ createRcBlocks v b ≤ 2 ^ 26 := by
  have hcs := pow_bounds hb
  have hl1 := createL1Clusters_le (v := v) hb
  rw [createRcBlocks_eq hb]
  constructor
  · by_contra hzero
    have hle : (3 + createL1Clusters v b) ⌈/⌉ (2 ^ b / 2) ≤ 0 := by omega
    rw [ceilDiv_le_iff_le_mul (by omega)] at hle
    omega
  · rw [ceilDiv_le_iff_le_mul (by omega)]
    omega

theorem createRcTableClusters_eq : createRcTableClusters v b = createRcBlocks v b * 8 ⌈/⌉ 2 ^ b := by
  have hcs := pow_bounds hb
  have hblocks := createRcBlocks_bounds (v := v) hb
  rw [createRcTableClusters, divRoundUp_eq (by omega)]
  apply max_eq_left
  by_contra hzero
  have hle : createRcBlocks v b * 8 ⌈/⌉ 2 ^ b ≤ 0 := by omega
  rw [ceilDiv_le_iff_le_mul (by omega)] at hle
  omega

theorem createRcTableClusters_le : createRcTableClusters v b ≤ 2 ^ 26 := by
  have hcs := pow_bounds hb
  have hblocks := createRcBlocks_bounds (v := v) hb
  rw [createRcTableClusters_eq hb, ceilDiv_le_iff_le_mul (by omega)]
  omega

theorem createRcBlocks_mul_le : createRcBlocks v b * 8 ≤ createRcTableClusters v b * 2 ^ b := by
  have hcs := pow_bounds hb
  rw [createRcTableClusters_eq hb, Nat.mul_comm _ (2 ^ b)]
  exact (ceilDiv_le_iff_le_mul (by omega)).mp (Nat.le_refl _)

theorem createFileEnd_le : createFileEnd v b ≤ 2 ^ 54 := by
  have hcs := pow_bounds hb
  have hl1 := createL1Clusters_le (v := v) hb
  have hblocks := createRcBlocks_bounds (v := v) hb
  have htable := createRcTableClusters_le (v := v) hb
  rw [createFileEnd_eq]
  calc (1 + createRcTableClusters v b + createRcBlocks v b + createL1Clusters v b) * 2 ^ b
      ≤ 2 ^ 33 * 2 ^ 21 := Nat.mul_le_mul (by omega) hcs.2
    _ = 2 ^ 54 := by norm_num

theorem roomForBlocks_iff (hfit : SizesFit v b) :
    RoomForBlocks v b ↔ createMetaClusters v b ≤ createRcBlocks v b * (2 ^ b / 2) := by
  have hmap : mapClusters v b = createL1Clusters v b := by
    rw [mapClusters, Qcow2File.createL1Clusters_eq hb.2, createL1Size_eq hb hfit, Nat.ceilDiv_eq_add_pred_div]
  have hblocks : blocksForMap v b = createRcBlocks v b := by rw [blocksForMap, hmap, createRcBlocks_eq hb]
  rw [RoomForBlocks, createMetaClusters, createRcTableClusters_eq hb, hmap, hblocks]

end Sizes

section File

variable {v b : Nat} (hb : 9 ≤ b ∧ b ≤ 21)

include hb

theorem createRcEntry_eq (clusterIdx : Nat) : createRcEntry v b clusterIdx = createFirstRcBlock v b + clusterIdx * 2 := by
  have hhalf := pow_div_two_mul hb
  have hsplit := Nat.div_add_mod' clusterIdx (2 ^ b / 2)
  have hscale : clusterIdx / (2 ^ b / 2) * 2 ^ b = clusterIdx / (2 ^ b / 2) * (2 ^ b / 2) * 2 := by
    rw [Nat.mul_assoc, hhalf]
  unfold createRcEntry
  omega

theorem setCreateRefcounts_range (file : HostFile) (n : Nat) (hzero : ∀ i, createFirstRcBlock v b ≤ i → file.data i = 0)
    (k : Nat) : (setCreateRefcounts v b file (List.range n)).data (createFirstRcBlock v b + k) =
      if k < n * 2 then UInt8.ofNat (k % 2) else 0 := by
  induction n with
  | zero =>
    rw [if_neg (by omega)]
    exact hzero _ (Nat.le_add_right _ _)
  | succ n ih =>
    have hsnoc : setCreateRefcounts v b file (List.range (n + 1)) =
        (setCreateRefcounts v b file (List.range n)).write (createRcEntry v b n) (beBytes 2 1) := by
      rw [setCreateRefcounts, List.range_succ, List.foldl_append]
      rfl
    rw [hsnoc, HostFile.write_data, createRcEntry_eq hb]
    by_cases hk : k < n * 2
    · rw [writeBytes_below _ (by omega), ih, if_pos hk, if_pos (by omega)]
    · by_cases hk' : k < (n + 1) * 2
      · obtain ⟨j, rfl⟩ := Nat.exists_eq_add_of_le (Nat.le_of_not_lt hk)
        have hj : j < (beBytes 2 1).length := by
          rw [beBytes_length]
          omega
        rw [← Nat.add_assoc, writeBytes_inside hj, if_pos hk']
        obtain rfl | rfl : j = 0 ∨ j = 1 := by omega
        · rw [show (n * 2 + 0) % 2 = 0 by omega]
          rfl
        · rw [show (n * 2 + 1) % 2 = 1 by omega]
          rfl
      · rw [writeBytes_above (by rw [beBytes_length]; omega), ih, if_neg hk, if_neg hk']

variable {name : Option String} (hname : qcow2V3HeaderSize + (name.map (·.utf8ByteSize)).getD 0 ≤ 2 ^ b)

include hname

theorem createTables_zero {i : Nat} (hi : createFirstRcBlock v b ≤ i) : (createTables v b name).data i = 0 := by
  have hfirst := clusterSize_le_createFirstRcBlock v b
  have htable : 2 ^ b + (tableBytes (createRcTable v b)).length ≤ i := by
    have hwords := createRcBlocks_mul_le (v := v) hb
    rw [tableBytes_length, createRcTable, List.length_map, List.length_range]
    unfold createFirstRcBlock at hi
    omega
  rw [createTables_data hname, writeBytes_above htable]
  exact (createStart_above hname).2 i (by omega)

theorem createFile_counts (k : Nat) : (createFile v b name).data (createFirstRcBlock v b + k) =
    if k < createMetaClusters v b * 2 then UInt8.ofNat (k % 2) else 0 :=
  setCreateRefcounts_range hb _ _ (fun _ hi => createTables_zero hb hname hi) k

theorem createFile_count (c : Nat) :
    beNat (readBytes (createFile v b name).data (createFirstRcBlock v b + c * 2) 2) =
      if c < createMetaClusters v b then 1 else 0 := by
  have hbytes : readBytes (createFile v b name).data (createFirstRcBlock v b + c * 2) 2 =
      [(createFile v b name).data (createFirstRcBlock v b + (c * 2 + 0)),
        (createFile v b name).data (createFirstRcBlock v b + (c * 2 + 1))] := rfl
  rw [hbytes, createFile_counts hb hname, createFile_counts hb hname, show (c * 2 + 0) % 2 = 0 by omega,
    show (c * 2 + 1) % 2 = 1 by omega]
  by_cases hc : c < createMetaClusters v b
  · rw [if_pos (by omega), if_pos (by omega), if_pos hc]
    rfl
  · rw [if_neg (by omega), if_neg (by omega), if_neg hc]
    rfl

theorem createTable_eq :
    tableAt (createFile v b name).data (2 ^ b) (createRcTableClusters v b * 2 ^ b / 8) =
      createRcTable v b ++ List.replicate (createRcTableClusters v b * 2 ^ b / 8 - createRcBlocks v b) 0 := by
  have hwords := createRcBlocks_mul_le (v := v) hb
  have hlen : (createRcTable v b).length = createRcBlocks v b := by simp [createRcTable]
  apply List.ext_getElem
  · rw [tableAt_length, List.length_append, List.length_replicate, hlen]
    omega
  · intro i hi hi'
    have hentry := createTable_getD_eq hname (createFileEnd_le (v := v) hb) (Nat.le_refl _) i
    rw [List.getD_eq_getElem?_getD, List.getElem?_eq_getElem hi, Option.getD_some] at hentry
    rw [tableAt_length] at hi
    rw [hentry]
    by_cases hblock : i < createRcBlocks v b
    · rw [if_pos ⟨hblock, hi⟩, List.getElem_append_left (by omega)]
      simp [createRcTable]
    · rw [if_neg fun hboth => hblock hboth.1, List.getElem_append_right (by omega), List.getElem_replicate]

omit hname

theorem header_refcountTableClusters : (createHeader v b name).refcountTableClusters = createRcTableClusters v b := by
  have hle := createRcTableClusters_le (v := v) hb
  exact Nat.mod_eq_of_lt (by omega)

include hname

theorem refcountBlocks_create : refcountBlocks (createFile v b name) (createHeader v b name) = createRcTable v b := by
  have hblocks : ∀ e ∈ createRcTable v b, e ≠ 0 := by
    intro e he
    obtain ⟨i, -, rfl⟩ := List.mem_map.mp he
    have hcs := Nat.two_pow_pos b
    have hfirst := clusterSize_le_createFirstRcBlock v b
    omega
  rw [refcountBlocks, header_refcountTableClusters hb]
  change (tableAt _ (2 ^ b) (createRcTableClusters v b * 2 ^ b / 8)).filter _ = _
  rw [createTable_eq hb hname, List.filter_append, List.filter_eq_self.mpr (by simpa using hblocks),
    List.filter_eq_nil_iff.mpr (by simp), List.append_nil]

theorem blockOf_create (c : Nat) : blockOf (createFile v b name) (createHeader v b name) c =
    if c / (2 ^ b / 2) < createRcBlocks v b then createFirstRcBlock v b + c / (2 ^ b / 2) * 2 ^ b else 0 := by
  have hwords := createRcBlocks_mul_le (v := v) hb
  rw [blockOf, header_refcountTableClusters hb]
  change (tableAt _ (2 ^ b) (createRcTableClusters v b * 2 ^ b / 8)).getD (c / (2 ^ b / 2)) 0 = _
  rw [createTable_getD_eq hname (createFileEnd_le hb) (Nat.le_refl _)]
  by_cases hc : c / (2 ^ b / 2) < createRcBlocks v b
  · rw [if_pos ⟨hc, by omega⟩, if_pos hc]
  · rw [if_neg fun hboth => hc hboth.1, if_neg hc]

theorem metadataClusters_create :
    metadataClusters (createFile v b name) (createHeader v b name) = List.range (createMetaClusters v b) := by
  have hcs := Nat.two_pow_pos b
  have htable : (createHeader v b name).refcountTableOffset / (createHeader v b name).clusterSize = 1 :=
    Nat.div_self hcs
  have hblock : ∀ i, (createFirstRcBlock v b + i * 2 ^ b) / 2 ^ b = 1 + createRcTableClusters v b + i := by
    intro i
    have hmul : createFirstRcBlock v b + i * 2 ^ b = (1 + createRcTableClusters v b + i) * 2 ^ b := by
      rw [createFirstRcBlock]
      ring
    rw [hmul, Nat.mul_div_cancel _ hcs]
  have hl1 : (createHeader v b name).l1TableOffset / (createHeader v b name).clusterSize =
      1 + createRcTableClusters v b + createRcBlocks v b := hblock _
  have hl1Clusters : (createHeader v b name).l1Size * 8 ⌈/⌉ (createHeader v b name).clusterSize =
      createL1Clusters v b := (Qcow2File.createL1Clusters_eq hb.2).symm
  have hblocks : (createRcTable v b).map (· / (createHeader v b name).clusterSize) =
      (List.range (createRcBlocks v b)).map (1 + createRcTableClusters v b + ·) := by
    rw [createRcTable, List.map_map]
    exact List.map_congr_left fun i _ => hblock i
  rw [metadataClusters, refcountBlocks_create hb hname, hblocks, header_refcountTableClusters hb, htable, hl1,
    hl1Clusters, createMetaClusters, List.range_add, List.range_add, List.range_add]
  rfl

theorem refcountOf_create (hroom : createMetaClusters v b ≤ createRcBlocks v b * (2 ^ b / 2)) (c : Nat) :
    refcountOf (createFile v b name) (createHeader v b name) c = if c < createMetaClusters v b then 1 else 0 := by
  have hcs := pow_bounds hb
  have hfirst := clusterSize_le_createFirstRcBlock v b
  rw [refcountOf, blockOf_create hb hname]
  by_cases hc : c / (2 ^ b / 2) < createRcBlocks v b
  · rw [if_pos hc, if_neg (by omega)]
    change beNat (readBytes _ (createRcEntry v b c) 2) = _
    rw [createRcEntry_eq hb, createFile_count hb hname]
  · have hle := (Nat.le_div_iff_mul_le (show 0 < 2 ^ b / 2 by omega)).mp (Nat.le_of_not_lt hc)
    rw [if_neg hc, if_pos rfl, if_neg (by omega)]

theorem l1Zero_create (hroom : createMetaClusters v b ≤ createRcBlocks v b * (2 ^ b / 2)) :
    ∀ e ∈ tableAt (createFile v b name).data (createHeader v b name).l1TableOffset (createHeader v b name).l1Size,
      e = 0 := by
  have hdata : ∀ p, createL1Offset v b ≤ p → (createFile v b name).data p = 0 := by
    intro p hp
    have hhalf := pow_div_two_mul hb
    have hends : createRcBlocks v b * 2 ^ b = createRcBlocks v b * (2 ^ b / 2) * 2 := by rw [Nat.mul_assoc, hhalf]
    unfold createL1Offset at hp
    obtain ⟨k, rfl⟩ := Nat.exists_eq_add_of_le (show createFirstRcBlock v b ≤ p by omega)
    rw [createFile_counts hb hname, if_neg (by omega)]
  intro e he
  obtain ⟨i, hi, rfl⟩ := List.mem_iff_getElem.mp he
  have hentry : (tableAt (createFile v b name).data (createHeader v b name).l1TableOffset
      (createHeader v b name).l1Size).getD i 0 = 0 := tableAt_zero (fun p hp _ => hdata p hp) i
  rw [List.getD_eq_getElem?_getD, List.getElem?_eq_getElem hi] at hentry
  exact hentry

theorem wellFormed_create (hv : v < 2 ^ 64) (hroom : createMetaClusters v b ≤ createRcBlocks v b * (2 ^ b / 2)) :
    WellFormed (createFile v b name) (createHeader v b name) := by
  have hcs := pow_bounds hb
  constructor
  · exact Qcow2File.readFrom_createFile hv hb hname (createFileEnd_le hb)
  · have hblock : ∀ i, 2 ^ b ∣ createFirstRcBlock v b + i * 2 ^ b := by
      intro i
      exact ⟨1 + createRcTableClusters v b + i, by rw [createFirstRcBlock]; ring⟩
    intro off hoff
    rw [refcountBlocks_create hb hname] at hoff
    rcases List.mem_cons.mp hoff with rfl | hoff
    · exact dvd_rfl
    · rcases List.mem_cons.mp hoff with rfl | hoff
      · exact hblock _
      · obtain ⟨i, -, rfl⟩ := List.mem_map.mp hoff
        exact hblock i
  · exact l1Zero_create hb hname hroom
  · rw [metadataClusters_create hb hname]
    exact List.nodup_range
  · intro c hc
    rw [metadataClusters_create hb hname, List.mem_range] at hc
    have hblock : c / (2 ^ b / 2) < createRcBlocks v b := by
      rw [Nat.div_lt_iff_lt_mul (by omega)]
      omega
    rw [blockOf_create hb hname, if_pos hblock]
    have hfirst := clusterSize_le_createFirstRcBlock v b
    omega
  · intro c
    rw [refcountOf_create hb hname hroom, metadataClusters_create hb hname]
    simp only [List.mem_range]

theorem not_wellFormed_create (hroom : createRcBlocks v b * (2 ^ b / 2) < createMetaClusters v b) :
    ¬ WellFormed (createFile v b name) (createHeader v b name) := by
  intro h
  have hcs := pow_bounds hb
  have hmem : createRcBlocks v b * (2 ^ b / 2) ∈ metadataClusters (createFile v b name) (createHeader v b name) := by
    rw [metadataClusters_create hb hname, List.mem_range]
    exact hroom
  apply h.covered _ hmem
  rw [blockOf_create hb hname, Nat.mul_div_cancel _ (by omega), if_neg (Nat.lt_irrefl _)]

/-- A new image is well-formed when the blocks of reference counts, sized without the other blocks
and the other clusters of the table, have room for them. -/
theorem createFile_wellFormed_iff (hfit : SizesFit v b) :
    WellFormed (createFile v b name) (createHeader v b name) ↔ RoomForBlocks v b := by
  have hv : v < 2 ^ 64 := by
    have hcs := Nat.two_pow_pos b
    have hround := hfit.1
    omega
  rw [roomForBlocks_iff hb hfit]
  constructor
  · intro h
    by_contra hroom
    exact not_wellFormed_create hb hname (Nat.lt_of_not_le hroom) h
  · exact wellFormed_create hb hname hv

end File

theorem createFile_wellFormed_one_gb : WellFormed (createFile (2 ^ 30) 16 none) (createHeader (2 ^ 30) 16 none) := by
  apply (createFile_wellFormed_iff (by decide) (by decide) ?_).mpr
  · change _ ≤ _
    decide
  · constructor <;> decide

theorem createFile_wellFormed_fails :
    SizesFit (32512 * 32768 + 1) 9 ∧
      ¬ WellFormed (createFile (32512 * 32768 + 1) 9 none) (createHeader (32512 * 32768 + 1) 9 none) := by
  have hfit : SizesFit (32512 * 32768 + 1) 9 := by constructor <;> decide
  refine ⟨hfit, not_wellFormed_create (by decide) (by decide) ?_⟩
  decide

end CloneVmm.Storage
