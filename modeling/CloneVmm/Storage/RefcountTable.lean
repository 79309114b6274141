import CloneVmm.Storage.Overlay
import CloneVmm.Storage.Refcounts

namespace CloneVmm.Storage

open CloneVmm.Lib CloneVmm.Lib.Prog

namespace Qcow2File

variable {B : Type} {host : Host} {rs rs' : List Nat} {q q' q'' : Qcow2File B}

/-- A table that is moved to `n` new clusters has entries there for the blocks that it gets. -/
def Entered (host : Host) (n : Nat) (q : Qcow2File B) : Prop :=
  ∀ j, q.tableIndex q.nextAllocOffset ≤ j → j ≤ q.tableIndex (q.nextAllocOffset + (n - 1) * q.header.clusterSize) →
    q.block j ≠ 0 ∨ host.limit < q.nextAllocOffset + (n + 1) * q.header.clusterSize ∨
      (j + 1) * 8 ≤ n * q.header.clusterSize

/-- The host has room for `n` new clusters, and for a block behind them if one is missing. -/
def HasRoom (host : Host) (n : Nat) (q : Qcow2File B) : Prop :=
  q.nextAllocOffset + n * q.header.clusterSize ≤ host.limit ∧
    ∀ j, q.tableIndex q.nextAllocOffset ≤ j → j ≤ q.tableIndex (q.nextAllocOffset + (n - 1) * q.header.clusterSize) →
      q.block j ≠ 0 ∨ q.nextAllocOffset + (n + 1) * q.header.clusterSize ≤ host.limit

def TableCovered (host : Host) (q : Qcow2File B) : Prop :=
  q.refcountTableClustersNeeded ≤ q.header.refcountTableClusters ∨
    Covered host q.refcountTableClustersNeeded q ∧ Entered host q.refcountTableClustersNeeded q

def TableFits (host : Host) (q : Qcow2File B) : Prop :=
  q.refcountTableClustersNeeded ≤ q.header.refcountTableClusters ∨ HasRoom host q.refcountTableClustersNeeded q

/-- A range that still misses its block gets one at the end of the file, which is where it was. -/
def Missing (host : Host) (q₁ : Qcow2File B) (n j : Nat) (q : Qcow2File B) : Prop :=
  q.nextAllocOffset = q₁.nextAllocOffset ∧ (host.limit < q₁.nextAllocOffset + q₁.header.clusterSize ∨
    q₁.tableIndex q₁.nextAllocOffset = j ∧ (j + 1) * 8 ≤ n * q₁.header.clusterSize)

structure Tallying (host : Host) (rs : List Nat) (q₁ : Qcow2File B) (o n i : Nat) (q : Qcow2File B) : Prop where
  sound : Sound host rs q
  header : q.header = q₁.header
  tally : Tally [] q
  counted : ∀ m < i, q.Counted (o + m * q₁.header.clusterSize)
  length : q.refcountTable.length * 8 ≤ n * q₁.header.clusterSize
  blocks : ∀ j, q₁.block j ≠ 0 → q.block j ≠ 0
  missing : ∀ j, q₁.tableIndex o ≤ j → j ≤ q₁.tableIndex (o + (n - 1) * q₁.header.clusterSize) →
    q.block j ≠ 0 ∨ Missing host q₁ n j q

section Tallying

variable {q₁ : Qcow2File B} {o n i : Nat}

theorem Tallying.step (h : Tallying host rs q₁ o n i q) {j : Nat}
    (hlo : q₁.tableIndex o ≤ j) (hhi : j ≤ q₁.tableIndex (o + (n - 1) * q₁.header.clusterSize))
    (hsound : Sound host rs q') (hmarked : Marked rs j q q') (hcounted : q'.Counted (o + i * q₁.header.clusterSize)) :
    Tallying host rs q₁ o n (i + 1) q' := by
  have hnext := h.sound.nextAllocOffset_ne_zero
  -- a block that was allocated is the only one that was missing
  have hself : q.block j = 0 → q.nextAllocOffset = q₁.nextAllocOffset ∧
      host.limit ≥ q₁.nextAllocOffset + q₁.header.clusterSize ∧ q₁.tableIndex q₁.nextAllocOffset = j ∧
        (j + 1) * 8 ≤ n * q₁.header.clusterSize := by
    intro hzero
    obtain ⟨heq, hor⟩ := (h.missing j hlo hhi).resolve_left fun hne => hne hzero
    have hfits := hmarked.fits hsound hnext hzero
    rw [heq, h.header] at hfits
    exact ⟨heq, hfits, hor.resolve_left hfits.not_gt⟩
  have hindex : ∀ off, q.tableIndex off = q₁.tableIndex off := tableIndex_congr h.header
  refine ⟨hsound, hmarked.header.trans h.header, ?_, ?_, ?_, ?_, ?_⟩
  · have hrestrict : Marked [] j q q' := Marked.restrict (show Marked ([] ++ rs) j q q' from hmarked)
    apply h.tally.marked hsound.forget hrestrict
    intro hzero
    obtain ⟨heq, -, hj, -⟩ := hself hzero
    right
    rw [heq, hindex, hj]
  · intro m hm
    rcases Nat.lt_succ_iff_lt_or_eq.mp hm with hlt | rfl
    · exact hmarked.counts _ (h.counted m hlt)
    · exact hcounted
  · rw [hmarked.length]
    by_cases hzero : q.block j = 0
    · have := (hself hzero).2.2.2
      have := h.length
      omega
    · have := block_lt hzero
      have := h.length
      omega
  · intro j' hj'
    rw [hmarked.blocks j' (h.blocks j' hj')]
    exact h.blocks j' hj'
  · intro j' hlo' hhi'
    by_cases hj' : q.block j' = 0
    · by_cases hzero : q.block j = 0
      · obtain ⟨heq, hfits, hj, -⟩ := hself hzero
        obtain ⟨-, hor⟩ := (h.missing j' hlo' hhi').resolve_left fun hne => hne hj'
        obtain rfl : j = j' := hj.symm.trans (hor.resolve_left hfits.not_gt).1
        exact Or.inl (hmarked.block_ne_zero hnext)
      · obtain ⟨heq, hor⟩ := (h.missing j' hlo' hhi').resolve_left fun hne => hne hj'
        exact Or.inr ⟨(hmarked.there hzero).trans heq, hor⟩
    · left
      rwa [hmarked.blocks j' hj']

theorem wp_setRefcounts_tally {m : Nat} (h : Tallying host rs q₁ o n i q) (hm : i + m ≤ n) :
    (setRefcounts host ((List.range' i m).map fun i => o + i * q₁.header.clusterSize)).Wp
      (fun _ q' => Tallying host rs q₁ o n (i + m) q')
      (fun _ q' => Tally [] q' ∧ ∃ j, q₁.tableIndex o ≤ j ∧ j ≤ q₁.tableIndex (o + (n - 1) * q₁.header.clusterSize) ∧
        q₁.block j = 0 ∧ host.limit < q₁.nextAllocOffset + q₁.header.clusterSize) q := by
  induction m generalizing i q with
  | zero => exact wp_pure h
  | succ m ih =>
    have hlo : q₁.tableIndex o ≤ q₁.tableIndex (o + i * q₁.header.clusterSize) := tableIndex_mono (Nat.le_add_right _ _)
    have hhi : q₁.tableIndex (o + i * q₁.header.clusterSize) ≤ q₁.tableIndex (o + (n - 1) * q₁.header.clusterSize) :=
      tableIndex_mono (Nat.add_le_add_left (Nat.mul_le_mul_right _ (by omega)) o)
    have hset := wp_setRefcount h.sound (o + i * q₁.header.clusterSize)
    rw [tableIndex_congr h.header] at hset
    rw [List.range'_succ, List.map_cons]
    unfold setRefcounts
    refine Wp.seq (hset.mono (fun _ _ hq' => hq') ?_) ?_
    · intro e q' hrefused
      have hzero := hrefused.missing _ rfl
      have hshort := hrefused.short
      rw [((h.missing _ hlo hhi).resolve_left fun hne => hne hzero).1, h.header] at hshort
      have hnone := by_contra fun hne => h.blocks _ hne hzero
      exact ⟨h.tally.refused (show Refused host ([] ++ rs) _ q e q' from hrefused), _, hlo, hhi, hnone, hshort⟩
    · rintro _ q' ⟨hsound, hmarked, hcounted⟩
      have hrest := ih (h.step hlo hhi hsound hmarked hcounted) (by omega)
      rwa [Nat.add_right_comm, Nat.add_assoc i m 1] at hrest

theorem Sound.relocated_counted (h : Sound host rs q) {off : Nat} (hoff : q.Counted off) :
    (q.relocated o n).Counted off := by
  have hmoved : (q.moved o n).Counted off := hoff
  refine hmoved.congr rfl rfl fun k hk => ?_
  have hin := entry_fits h.fits (off / q.header.clusterSize)
  have hindex : (q.moved o n).entryAt off = q.entryAt off := rfl
  rw [hindex, entryAt, Nat.add_assoc]
  exact h.relocated_bytes (o := .refcountBlock _) (if_neg hoff.1) (by simp) (by omega)

theorem Tallying.relocated (h : Tallying host rs q₁ o n n q) : Tally [] (q.relocated o n) := by
  intro own off hoff
  apply h.sound.relocated_counted
  have hmoves : Moves q (q.relocated o n) := h.sound.relocated_moves
  cases own with
  | refcountTable i =>
    by_cases hi : i < n
    · have hsome : (q.relocated o n).place [] (.refcountTable i) = some (o + i * q.header.clusterSize) := if_pos hi
      rw [hsome, h.header] at hoff
      cases hoff
      exact h.counted i hi
    · have hnone : (q.relocated o n).place [] (.refcountTable i) = none := if_neg hi
      rw [hnone] at hoff
      cases hoff
  | reserved i => cases hoff
  | l1 i | l2 i | data g => exact h.tally _ off ((hmoves.place h.sound.fits rfl).symm.trans hoff)
  | header => exact h.tally .header off hoff
  | refcountBlock i => exact h.tally (.refcountBlock i) off hoff

theorem Sound.tallying_start (h : Sound host [] q) (htally : Tally [] q) (hcovered : Covered host n q)
    (hentered : Entered host n q) (hfit : q.refcountTable.length * 8 ≤ n * q.header.clusterSize)
    (hlimit : q.nextAllocOffset + n * q.header.clusterSize ≤ host.limit) :
    Tallying host (q.newClusters n) (q.roomFor n) q.nextAllocOffset n 0 (q.roomFor n) where
  sound := h.extend n hlimit
  header := rfl
  tally := htally.extended h (Nat.le_add_right _ _)
  counted m hm := by cases hm
  length := hfit
  blocks _ hj := hj
  missing j hlo hhi := by
    have hsum : q.nextAllocOffset + (n + 1) * q.header.clusterSize =
        q.nextAllocOffset + n * q.header.clusterSize + q.header.clusterSize := by ring
    by_cases hzero : q.block j = 0
    · have hself := (hcovered j hlo hhi).resolve_left fun hne => hne hzero
      have hentry := (hentered j hlo hhi).resolve_left fun hne => hne hzero
      rw [hsum] at hself hentry
      refine Or.inr ⟨rfl, ?_⟩
      by_cases hshort : host.limit < q.nextAllocOffset + n * q.header.clusterSize + q.header.clusterSize
      · exact Or.inl hshort
      · exact Or.inr ⟨hself.resolve_left hshort, hentry.resolve_left hshort⟩
    · exact Or.inl hzero

theorem wp_relocateRefcountTable_tally (h : Sound host [] q) (htally : Tally [] q) (hcovered : Covered host n q)
    (hentered : Entered host n q) (hfit : q.refcountTable.length * 8 ≤ n * q.header.clusterSize) :
    (relocateRefcountTable host n).Wp (fun _ q' => Tally [] q' ∧
      q'.refcountTable.length * 8 ≤ q'.header.refcountTableClusters * q'.header.clusterSize)
      (fun _ q' => Tally [] q' ∧ ¬ HasRoom host n q) q := by
  unfold relocateRefcountTable
  apply wp_get_bind
  apply wp_get_bind
  apply wp_modifyGet_bind
  apply Wp.bind
  apply wp_setLen
  · intro hle
    have hcount := wp_setRefcounts_tally (m := n) (h.tallying_start htally hcovered hentered hfit hle) (by omega)
    rw [Nat.zero_add, ← List.range_eq_range'] at hcount
    change Wp (setRefcounts host _ >>= _) _ _ (q.roomFor n)
    refine Wp.seq (hcount.mono (fun _ _ hq' => hq') ?_) ?_
    · rintro e q' ⟨htally', j, hlo, hhi, hzero, hshort⟩
      refine ⟨htally', fun hroom => ?_⟩
      have hle' := (hroom.2 j hlo hhi).resolve_left fun hne => hne hzero
      change host.limit < q.nextAllocOffset + n * q.header.clusterSize + q.header.clusterSize at hshort
      rw [Nat.add_one_mul] at hle'
      omega
    · intro _ q' hq'
      have hin := hq'.sound.placed.inside (o := .header) rfl
      obtain ⟨hbytes, hbytes'⟩ := headerBytes_le hq'.sound.fits q.nextAllocOffset n
      have hlen := hq'.sound.lenLimit
      apply wp_modifyGet_bind
      apply wp_get_bind
      change Wp (writeAll host 0 (q'.moved q.nextAllocOffset n).header.bytes) _ _ (q'.moved q.nextAllocOffset n)
      apply wp_writeAll (by omega)
      refine ⟨hq'.relocated, ?_⟩
      change q'.refcountTable.length * 8 ≤ n * q'.header.clusterSize
      rw [hq'.header]
      exact hq'.length
  · intro hgt
    exact ⟨htally, fun hroom => hroom.1.not_gt hgt⟩

end Tallying

theorem wp_growRefcountTable_tally (hlimit : host.limit ≤ 2 ^ 54) (h : Balanced host [] q)
    (hcovered : q.TableCovered host) :
    (growRefcountTable host).Wp (fun _ q' => Tally [] q' ∧
      q'.refcountTable.length * 8 ≤ q'.header.refcountTableClusters * q'.header.clusterSize)
      (fun _ q' => Tally [] q' ∧ ¬ q.TableFits host) q := by
  have hfit := le_clustersNeeded h.sound.fits h.tableOk hlimit
  unfold growRefcountTable
  apply wp_get_bind
  split
  · rename_i hmore
    obtain ⟨hcovers, hentered⟩ := hcovered.resolve_left (Nat.not_le.mpr hmore)
    apply (wp_relocateRefcountTable_tally h.sound h.tally hcovers hentered hfit).mono
    · exact fun _ _ hq' => hq'
    · exact fun _ _ hq' => ⟨hq'.1, fun hfits => hq'.2 (hfits.resolve_left (Nat.not_le.mpr hmore))⟩
  · rename_i hle
    exact wp_pure ⟨h.tally, hfit.trans (Nat.mul_le_mul_right _ (Nat.le_of_not_lt hle))⟩

def Stored (q : Qcow2File B) : Prop := ∀ i, q.storedTable.getD i 0 = q.block i

theorem block_of_length_le {j : Nat} (h : q.refcountTable.length ≤ j) : q.block j = 0 :=
  by_contra fun hne => (block_lt hne).not_ge h

theorem Sound.wroteTable (h : Sound host [] q) (hlimit : host.limit ≤ 2 ^ 54)
    (hroom : q.refcountTable.length * 8 ≤ q.header.refcountTableClusters * q.header.clusterSize) :
    Quiet (fun o => ¬ ∃ i, o = .refcountTable i) [] q
        (q.wrote q.header.refcountTableOffset (tableBytes q.refcountTable)) ∧
      (q.wrote q.header.refcountTableOffset (tableBytes q.refcountTable)).Stored := by
  have hlen := tableBytes_length q.refcountTable
  have hstored : (q.wrote q.header.refcountTableOffset (tableBytes q.refcountTable)).Stored := by
    intro i
    have hentry : (q.wrote q.header.refcountTableOffset (tableBytes q.refcountTable)).storedTable.getD i 0 =
        if i < q.refcountTable.length ∧ i < q.header.refcountTableClusters * q.header.clusterSize / 8 then q.block i
        else q.storedTable.getD i 0 := tableAt_writeBytes_getD (h.table_lt hlimit) i
    change _ = q.block i
    rw [hentry]
    split
    · rfl
    · -- behind the entries of the table nothing is stored
      have hzero : q.block i = 0 := block_of_length_le (by omega)
      rcases h.stored i with hnone | hsame
      · rw [hnone, hzero]
      · exact hsame
  refine ⟨(h.write_of_stored (P := fun o => ∃ i, o = .refcountTable i) _ _ ?_ (by simp) (by simp) ?_ ?_).2, hstored⟩
  · intro p hlo hhi
    obtain ⟨i, hi, k, hk, rfl⟩ := exists_row_index (n := q.header.refcountTableClusters) (clusterSize_pos q.header) hlo
      (by omega)
    exact ⟨_, _, ⟨i, rfl⟩, if_pos hi, by omega, by omega⟩
  · exact fun i => Or.inr (hstored i)
  · have := h.tableInside
    omega

theorem wp_writeRefcountTable_tally (hlimit : host.limit ≤ 2 ^ 54) (h : Balanced host [] q)
    (hcovered : q.TableCovered host) :
    (writeRefcountTable host).Wp (fun _ q' => Tally [] q' ∧ q'.Stored)
      (fun _ q' => Tally [] q' ∧ ¬ q.TableFits host) q := by
  unfold writeRefcountTable
  refine Wp.seq (((wp_growRefcountTable hlimit h.sound h.tableOk).and
    (wp_growRefcountTable_tally hlimit h hcovered)).mono (fun _ _ hq' => hq') fun _ _ hq' => hq'.2) ?_
  rintro _ q' ⟨⟨hgrew, hroom⟩, htally, hlength⟩
  obtain ⟨hquiet, hstored⟩ := hgrew.sound.wroteTable hlimit hlength
  have hin := hgrew.sound.tableRoom_inside hroom
  have hlen := hgrew.sound.lenLimit
  apply wp_get_bind
  apply wp_writeAll (by rw [tableBytes_length]; omega)
  exact ⟨htally.quiet hgrew.sound.fits hquiet (by simp), hstored⟩

section Flush

variable {P : Owner → Prop}

theorem tableCovered_quiet (hquiet : Quiet P rs q q') : q'.TableCovered host ↔ q.TableCovered host := by
  simp only [TableCovered, Covered, Entered, tableIndex, block, refcountTableClustersNeeded, hquiet.header,
    hquiet.refcountTable, hquiet.nextAllocOffset]

theorem tableFits_quiet (hquiet : Quiet P rs q q') : q'.TableFits host ↔ q.TableFits host := by
  simp only [TableFits, HasRoom, tableIndex, block, refcountTableClustersNeeded, hquiet.header,
    hquiet.refcountTable, hquiet.nextAllocOffset]

theorem wp_flush_tally (hlimit : host.limit ≤ 2 ^ 54) (h : Balanced host [] q) (hcovered : q.TableCovered host) :
    (flush host).Wp (fun _ q' => Tally [] q' ∧ q'.Stored) (fun _ q' => Tally [] q' ∧ ¬ q.TableFits host) q := by
  unfold flush
  apply wp_get_bind
  refine Wp.seq ((wp_flushDirty h.sound).mono (fun _ _ hq' => hq') fun _ _ hfalse => hfalse.elim) ?_
  rintro _ q₁ ⟨hsound₁, hquiet₁, -⟩
  have hq₁ := h.quiet hsound₁ hquiet₁ fun _ => rfl
  refine Wp.seq ((wp_writeL1Table hsound₁).mono (fun _ _ hq' => hq') fun _ _ hfalse => hfalse.elim) ?_
  rintro _ q₂ ⟨hsound₂, hquiet₂, -, -⟩
  have hq₂ := hq₁.quiet hsound₂ hquiet₂ (by simp)
  have hcovered₂ := (tableCovered_quiet hquiet₂).mpr ((tableCovered_quiet hquiet₁).mpr hcovered)
  apply (wp_writeRefcountTable_tally hlimit hq₂ hcovered₂).mono
  · exact fun _ _ hq₃ => hq₃
  · intro _ _ hq₃
    rw [tableFits_quiet hquiet₂, tableFits_quiet hquiet₁] at hq₃
    exact hq₃

theorem wp_flush_balanced (hlimit : host.limit ≤ 2 ^ 54) (h : Balanced host [] q) (hcovered : q.TableCovered host) :
    (flush host).Wp (fun _ q' => Balanced host [] q' ∧ Flushed host q q' ∧ q'.Stored)
      (fun _ q' => Balanced host [] q' ∧ Flushed host q q' ∧ ¬ q.TableFits host) q := by
  apply ((wp_flush hlimit h.sound h.tableOk).and (wp_flush_tally hlimit h hcovered)).mono
  · rintro _ q' ⟨hflushed, htally, hstored⟩
    exact ⟨⟨hflushed.sound, hflushed.tableOk, htally⟩, hflushed, hstored⟩
  · rintro e q' ⟨⟨-, -, hflushed⟩, htally, hfits⟩
    exact ⟨⟨hflushed.sound, hflushed.tableOk, htally⟩, hflushed, hfits⟩

theorem Balanced.reopened (h : Balanced host [] q) (hlimit : host.limit ≤ 2 ^ 54) (hclean : q.Clean)
    (hstored : q.Stored) :
    Balanced host [] q.reopened where
  sound := h.sound.reopened hclean hlimit
  tableOk := tableOk_reopened q
  tally := by
    refine h.tally.of_place (fun o off ho => ⟨o, reopened_place h.sound hclean ho⟩) fun off hoff => ?_
    exact hoff.congr rfl (hstored _) fun _ _ => rfl

theorem Turns.covers (h : Turns q q')
    (hcovers : q.header.size ≤ q.header.l1Size * q.header.l2EntriesPerTable * q.header.clusterSize) :
    q'.header.size ≤ q'.header.l1Size * q'.header.l2EntriesPerTable * q'.header.clusterSize := by
  obtain ⟨off, n, hheader⟩ := h.header
  rw [hheader]
  exact hcovers

theorem Flushed.openFile {openBacking : PathBuf → Except Qcow2Error B} {path : PathBuf} (h : Flushed host q q')
    (hopen : Qcow2File.openFile openBacking path q'.file = .ok q'') : ∃ b, q'' = { q'.reopened with backing := b } := by
  obtain ⟨b, -, rfl⟩ := openFile_eq_ok h.sound.onDisk h.sound.l1Inside h.sound.tableInside hopen
  refine ⟨b, ?_⟩
  rw [h.l1Stored]
  rfl

end Flush

theorem wp_getRefcount (h : Sound host rs q) (off : Nat) :
    (getRefcount off).Wp (fun n q' => q' = q ∧ (n = 1 ↔ q.Counted off)) (fun _ _ => False) q := by
  unfold getRefcount
  apply wp_get_bind
  dsimp only
  split
  · rename_i hnone
    have hzero : q.block (q.tableIndex off) = 0 := block_of_length_le (List.getElem?_eq_none_iff.mp hnone)
    exact wp_pure ⟨rfl, fun hone => absurd hone Nat.zero_ne_one, fun hcounted => absurd hzero hcounted.1⟩
  · rename_i hsome
    change q.refcountTable[q.tableIndex off]? = some 0 at hsome
    have hzero : q.block (q.tableIndex off) = 0 := by rw [block, List.getD_eq_getElem?_getD, hsome, Option.getD_some]
    exact wp_pure ⟨rfl, fun hone => absurd hone Nat.zero_ne_one, fun hcounted => absurd hzero hcounted.1⟩
  · rename_i blockOffset hne hsome
    change q.refcountTable[q.tableIndex off]? = some blockOffset at hsome
    have hblock : q.block (q.tableIndex off) = blockOffset := by
      rw [block, List.getD_eq_getElem?_getD, hsome, Option.getD_some]
    have hne' : q.block (q.tableIndex off) ≠ 0 := by rwa [hblock]
    have hin := h.placed.inside (place_refcountBlock.mpr ⟨hne', rfl⟩)
    have hfits := entry_fits h.fits (off / q.header.clusterSize)
    have hread : q.file.readExact (q.entryAt off) 2 = some (readBytes q.file.data (q.entryAt off) 2) := by
      apply q.file.readExact_eq
      rw [entryAt]
      omega
    rw [← hblock]
    apply Wp.bind
    apply wp_get_bind
    apply wp_orFail hread
    exact wp_pure ⟨rfl, fun hone => ⟨hne', hone⟩, fun hcounted => hcounted.2⟩

theorem Sound.getRefcount_eq_one (h : Sound host rs q) (off : Nat) :
    ((getRefcount off).exec q).1 = .ok 1 ↔ q.Counted off := by
  have hwp := wp_getRefcount h off
  cases hrun : (getRefcount off).exec q with
  | mk r q' =>
    cases r with
    | error e => exact (hwp.error hrun).elim
    | ok n =>
      rw [← (hwp.ok hrun).2]
      exact Except.ok.injEq n 1 ▸ Iff.rfl

structure Tallied (q : Qcow2File B) : Prop where
  aligned : ∀ o off, q.place [] o = some off → q.header.clusterSize ∣ off
  distinct : ∀ o o' off, q.place [] o = some off → q.place [] o' = some off → o = o'
  below : ∀ o off, q.place [] o = some off → off + q.header.clusterSize ≤ q.nextAllocOffset
  counted : ∀ o off, q.place [] o = some off → ((getRefcount off).exec q).1 = .ok 1

theorem Balanced.tallied (h : Balanced host [] q) : q.Tallied where
  aligned _ _ ho := h.sound.placed.aligned ho
  distinct _ _ _ ho ho' := h.sound.placed.unique ho ho'
  below _ _ ho := (h.sound.placed.inside ho).trans h.sound.lenLe
  counted o off ho := (h.sound.getRefcount_eq_one off).mpr (h.tally o off ho)

structure Intact (host : Host) (q : Qcow2File B) : Prop where
  sound : Sound host [] q
  covers : q.header.size ≤ q.header.l1Size * q.header.l2EntriesPerTable * q.header.clusterSize
  tableFits : q.refcountTable.length * 8 ≤ q.header.refcountTableClusters * q.header.clusterSize
  tallied : q.Tallied

theorem Intact.balanced (h : Intact host q) : Balanced host [] q where
  sound := h.sound
  tableOk := ⟨Or.inl h.tableFits, Or.inl h.tableFits⟩
  tally o off ho := (h.sound.getRefcount_eq_one off).mp (h.tallied.counted o off ho)

end Qcow2File

/-- What keeps the counts: where an operation allocates clusters, the ranges of these clusters have blocks
of reference counts or get one that covers itself, and where the table of reference counts is moved, it
has entries in its new place for the blocks it gets; if the image is dropped, the host does not refuse it. -/
def DiskOp.Covered {B : Type} (host : Host) (q : Qcow2File B) : DiskOp → Prop
  | readAt _ _ => True
  | writeAt offset data => q.Maps offset data.length ∨ Qcow2File.Covered host 1 q
  | flush => q.TableCovered host
  | reopen => q.TableCovered host ∧ q.TableFits host

namespace Qcow2File

theorem Balanced.step [Backing B] {openBacking : PathBuf → Except Qcow2Error B} {path : PathBuf}
    (hlimit : host.limit ≤ 2 ^ 54) (hfills : Fills host B) (h : Balanced host [] q)
    (hcovers : q.header.size ≤ q.header.l1Size * q.header.l2EntriesPerTable * q.header.clusterSize) {op : DiskOp}
    (hop : op.Covered host q) (hrun : (op.run host openBacking path q).2 = some q') :
    Balanced host [] q' ∧ q'.header.size ≤ q'.header.l1Size * q'.header.l2EntriesPerTable * q'.header.clusterSize := by
  cases op with
  | readAt offset n =>
    cases hrun
    obtain ⟨hq', hheader⟩ := (keeps_readAt_balanced hfills q.header offset n q ⟨h, rfl⟩).state
    exact ⟨hq', by rwa [hheader]⟩
  | writeAt offset data =>
    cases hrun
    obtain ⟨hq', hheader⟩ := (ends_writeAt_balanced hlimit hfills h hcovers hop).state
    exact ⟨hq', by rwa [hheader]⟩
  | flush =>
    cases hrun
    have hends : (Qcow2File.flush host).Ends (fun q' => Balanced host [] q' ∧ Flushed host q q') (fun _ => True) q :=
      (wp_flush_balanced hlimit h hop).mono (fun _ _ hq' => ⟨⟨hq'.1, hq'.2.1⟩, trivial⟩) fun _ _ hq' => ⟨hq'.1, hq'.2.1⟩
    obtain ⟨hq', hflushed⟩ := hends.state
    exact ⟨hq', hflushed.toTurns.covers hcovers⟩
  | reopen =>
    have hends : (Qcow2File.flush host).Ends (fun q' => Balanced host [] q' ∧ Flushed host q q' ∧ q'.Stored)
        (fun _ => True) q :=
      (wp_flush_balanced hlimit h hop.1).mono (fun _ _ hq' => ⟨hq', trivial⟩) fun _ _ hq' => absurd hop.2 hq'.2.2
    obtain ⟨hflush, hflushed, hstored⟩ := hends.state
    have hopen : Qcow2File.openFile openBacking path ((Qcow2File.flush host).exec q).2.file = .ok q' := by
      simp only [DiskOp.run, drop] at hrun
      cases hres : Qcow2File.openFile openBacking path ((Qcow2File.flush host).exec q).2.file with
      | error e =>
        rw [hres] at hrun
        cases hrun
      | ok opened =>
        rw [hres] at hrun
        cases hrun
        rfl
    obtain ⟨b, rfl⟩ := hflushed.openFile hopen
    exact ⟨(hflush.reopened hlimit hflushed.clean hstored).rebacked b, hflushed.toTurns.covers hcovers⟩

/-- Every state of every run of a well-formed image is tallied, also after the image was opened again, as
long as each step leaves no block of reference counts uncovered. -/
theorem tallied_of_covered (host : Host) (hlimit : host.limit ≤ 2 ^ 54) (n : Nat) (path : PathBuf)
    (q q' : Qcow2File (Images n)) (hq : Intact host q) (ops : List DiskOp)
    (hrun : Steps (fun q op q' => (op.run host (openImages host n) path q).2 = some q' ∧ op.Covered host q) q ops q') :
    q'.Tallied := by
  have hinv := hrun.invariant
    (P := fun q : Qcow2File (Images n) => Balanced host [] q ∧
      q.header.size ≤ q.header.l1Size * q.header.l2EntriesPerTable * q.header.clusterSize)
    (fun s op t hstep hs => hs.1.step hlimit (fills_images host n) hs.2 hstep.2 hstep.1) ⟨hq.balanced, hq.covers⟩
  exact hinv.1.tallied

section Create

variable {v b : Nat} {name : Option String}

theorem Created.counted (h : Created v b name q) (hroom : createMetaClusters v b ≤ createRcBlocks v b * (2 ^ b / 2))
    {c : Nat} (hc : c < createMetaClusters v b) : q.Counted (c * q.header.clusterSize) := by
  have hcount := refcountOf_create h.bits h.name_le hroom c
  rw [if_pos hc, ← h.file, ← h.header] at hcount
  have hindex := tableIndex_mul q c
  have hblock : blockOf q.file q.header c = q.block (q.tableIndex (c * q.header.clusterSize)) := by
    rw [hindex, block, h.refcountTable]
    rfl
  unfold refcountOf at hcount
  rw [hblock] at hcount
  split at hcount
  · cases hcount
  · rename_i hne
    refine ⟨hne, ?_⟩
    rw [entryAt, Nat.mul_div_cancel _ (clusterSize_pos _)]
    exact hcount

theorem covered_of_range {n : Nat} (hlast : q.tableIndex (q.nextAllocOffset + (n - 1) * q.header.clusterSize) =
    q.tableIndex q.nextAllocOffset) (hblock : q.block (q.tableIndex q.nextAllocOffset) ≠ 0)
    (hlimit : q.nextAllocOffset + n * q.header.clusterSize ≤ host.limit) :
    Covered host n q ∧ Entered host n q ∧ HasRoom host n q := by
  have hone : ∀ j, q.tableIndex q.nextAllocOffset ≤ j →
      j ≤ q.tableIndex (q.nextAllocOffset + (n - 1) * q.header.clusterSize) → q.block j ≠ 0 := by
    intro j hlo hhi
    obtain rfl := Nat.le_antisymm hlo (hlast ▸ hhi)
    exact hblock
  exact ⟨fun j hlo hhi => Or.inl (hone j hlo hhi), fun j hlo hhi => Or.inl (hone j hlo hhi), hlimit,
    fun j hlo hhi => Or.inl (hone j hlo hhi)⟩

theorem intact_create {openBacking : PathBuf → Except Qcow2Error B} {path : PathBuf} (hlimit : host.limit ≤ 2 ^ 54)
    (hfit : SizesFit v b) (hblocks : RoomForBlocks v b) (hcreate : create v b host openBacking path name = .ok q) :
    Intact host q := by
  obtain ⟨hv, hcreated⟩ := created_of_sizesFit hfit hcreate
  have hzero := create_l1Zero hfit hcreate hblocks
  have hroom := (roomForBlocks_iff hcreated.bits hfit).mp hblocks
  have hsound := hcreated.sound hzero hlimit (create_created hv hlimit hcreate).2.1
  have htally : Tally [] q := by
    intro o off ho
    obtain ⟨k, hslot, rfl⟩ := hcreated.place_eq hzero ho
    exact hcreated.counted hroom (createSlot_lt hslot)
  refine ⟨hsound, create_covers hfit hcreate, ?_, Balanced.tallied ⟨hsound, hcreated.tableOk, htally⟩⟩
  rw [hcreated.refcountTable, storedTable, tableAt_length]
  exact Nat.div_mul_le_self _ _

theorem Intact.extended (h : Intact host q) {m : Nat}
    (hlimit : q.nextAllocOffset + m * q.header.clusterSize ≤ host.limit) :
    Intact host (q.extended (q.nextAllocOffset + m * q.header.clusterSize)) := by
  have hsound : Sound host [] (q.extended (q.nextAllocOffset + m * q.header.clusterSize)) :=
    (h.sound.extend m hlimit).forget
  have htally := h.balanced.tally.extended h.sound (Nat.le_add_right q.nextAllocOffset (m * q.header.clusterSize))
  exact ⟨hsound, h.covers, h.tableFits, Balanced.tallied ⟨hsound, ⟨Or.inl h.tableFits, Or.inl h.tableFits⟩, htally⟩⟩

end Create

def longImage (m : Nat) : Qcow2File (Images 1) := extended newImage (2048 + m * 512)

theorem newImage_intact : Intact baseHost newImage := by
  have hcreate : create 4096 9 baseHost (openBackingFile baseHost fun _ _ => .error .noSuchFile) basePath none =
      .ok newImage := newImage_create
  exact intact_create (by decide) ⟨by decide, by decide⟩ (by change _ ≤ _; decide) hcreate

theorem longImage_intact {m : Nat} (hm : m ≤ 2 ^ 30) : Intact baseHost (longImage m) :=
  newImage_intact.extended (by change 2048 + m * 512 ≤ 2 ^ 40; omega)

theorem tallied_of_covered_moved : ∃ q' : Qcow2File (Images 1),
    Steps (fun q (op : DiskOp) q' =>
      (op.run baseHost (openImages baseHost 1) basePath q).2 = some q' ∧ op.Covered baseHost q)
      (longImage 16380) [.writeAt 0 [1], .reopen] q' ∧ q'.header.refcountTableClusters = 2 ∧ q'.Tallied := by
  have hwrite : DiskOp.Covered baseHost (longImage 16380) (.writeAt 0 [1]) :=
    Or.inr (covered_one.mpr (Or.inr (Or.inr (by decide))))
  have hneeded : ((writeAt baseHost 0 [1]).exec (longImage 16380)).2.refcountTableClustersNeeded = 2 := by
    decide +kernel
  have hrange (q : Qcow2File (Images 1)) (hlast : q.tableIndex (q.nextAllocOffset + (2 - 1) * q.header.clusterSize) =
      q.tableIndex q.nextAllocOffset) (hblock : q.block (q.tableIndex q.nextAllocOffset) ≠ 0)
      (hlimit : q.nextAllocOffset + 2 * q.header.clusterSize ≤ baseHost.limit) :
      Covered baseHost 2 q ∧ Entered baseHost 2 q ∧ HasRoom baseHost 2 q := covered_of_range hlast hblock hlimit
  obtain ⟨hcovered, hentered, hroom⟩ := hrange ((writeAt baseHost 0 [1]).exec (longImage 16380)).2 (by decide +kernel)
    (by decide +kernel) (by decide +kernel)
  rw [← hneeded] at hcovered hentered hroom
  have hmoved : ((DiskOp.reopen.run baseHost (openImages baseHost 1) basePath
      ((writeAt baseHost 0 [1]).exec (longImage 16380)).2).2.map fun q' => q'.header.refcountTableClusters) =
      some 2 := by
    decide +kernel
  obtain ⟨q', hreopen, hclusters⟩ := Option.map_eq_some_iff.mp hmoved
  have hsteps : Steps (fun q (op : DiskOp) q' =>
      (op.run baseHost (openImages baseHost 1) basePath q).2 = some q' ∧ op.Covered baseHost q)
      (longImage 16380) [.writeAt 0 [1], .reopen] q' :=
    .cons ⟨rfl, hwrite⟩ (.cons ⟨hreopen, Or.inr ⟨hcovered, hentered⟩, Or.inr hroom⟩ (.nil q'))
  exact ⟨q', hsteps, hclusters, tallied_of_covered baseHost (by decide) 1 basePath (longImage 16380) q'
    (longImage_intact (by decide)) _ hsteps⟩

theorem tallied_fails : ∃ q' : Qcow2File (Images 1), Intact baseHost (longImage 507) ∧
    Steps (fun q (op : DiskOp) q' => (op.run baseHost (openImages baseHost 1) basePath q).2 = some q')
      (longImage 507) [.writeAt 0 [1], .reopen] q' ∧ ¬ q'.Tallied := by
  have hcount : ((DiskOp.reopen.run baseHost (openImages baseHost 1) basePath
      ((writeAt baseHost 0 [1]).exec (longImage 507)).2).2.map fun q' =>
        (q'.block 1, ((getRefcount 262144).exec q').1)) = some (262144, .ok 0) := by decide +kernel
  obtain ⟨q', hreopen, hq'⟩ := Option.map_eq_some_iff.mp hcount
  obtain ⟨hblock, hzero⟩ := Prod.mk.inj hq'
  refine ⟨q', longImage_intact (by decide), .cons rfl (.cons hreopen (.nil q')), fun h => ?_⟩
  have hone := h.counted (.refcountBlock 1) 262144 (place_refcountBlock.mpr ⟨by rw [hblock]; decide, hblock⟩)
  rw [hzero] at hone
  cases hone

end Qcow2File

end CloneVmm.Storage
