import CloneVmm.Storage.Flush
import CloneVmm.Storage.FlatDisk

namespace CloneVmm.Storage

open CloneVmm.Lib CloneVmm.Lib.Prog

namespace Qcow2File

variable {B : Type} {host : Host} {q q' : Qcow2File B} {openBacking : PathBuf → Except Qcow2Error B} {path : PathBuf}

def reopened (q : Qcow2File B) : Qcow2File B :=
  ⟨q.file, q.header, q.l1Table, q.storedTable, ∅, 0, alignUp q.file.len q.header.clusterSize, q.backing⟩

structure Named (openBacking : PathBuf → Except Qcow2Error B) (path : PathBuf) (q : Qcow2File B) : Prop where
  room : q.header.backingFileOffset = 0 ∨ qcow2V3HeaderSize ≤ q.header.backingFileOffset ∧
    q.header.backingFileOffset + q.header.backingFileSize ≤ q.header.clusterSize
  opens : openHeaderBacking openBacking path q.file q.header = .ok q.backing

theorem readBackingFilePath_congr {file file' : HostFile} {header header' : Qcow2Header}
    (h : file'.readExact header'.backingFileOffset header'.backingFileSize =
      file.readExact header.backingFileOffset header.backingFileSize) :
    readBackingFilePath file' header' = readBackingFilePath file header := by
  rw [readBackingFilePath, readBackingFilePath, h]

theorem Named.congr (h : Named openBacking path q) (hsound : Sound host [] q) (hsound' : Sound host [] q')
    (hoffset : q'.header.backingFileOffset = q.header.backingFileOffset)
    (hsize : q'.header.backingFileSize = q.header.backingFileSize)
    (hcluster : q'.header.clusterSize = q.header.clusterSize) (hbacking : q'.backing = q.backing)
    (hname : ∀ k, qcow2V3HeaderSize ≤ k → k < q.header.clusterSize → q'.file.data k = q.file.data k) :
    Named openBacking path q' := by
  refine ⟨?_, ?_⟩
  · rw [hcluster, hoffset, hsize]
    exact h.room
  · rw [hbacking, ← h.opens]
    unfold openHeaderBacking
    rw [hoffset, hsize]
    split
    · rename_i hnamed
      have hroom := h.room.resolve_left hnamed.1
      have hin := hsound.placed.inside (o := .header) rfl
      have hin' := hsound'.placed.inside (o := .header) rfl
      have hbytes : readBytes q'.file.data q.header.backingFileOffset q.header.backingFileSize =
          readBytes q.file.data q.header.backingFileOffset q.header.backingFileSize :=
        readBytes_congr fun p hlo hhi => hname p (by omega) (by omega)
      have hread : q'.file.readExact q'.header.backingFileOffset q'.header.backingFileSize =
          q.file.readExact q.header.backingFileOffset q.header.backingFileSize := by
        rw [hoffset, hsize, q'.file.readExact_eq (by omega), q.file.readExact_eq (by omega), hbytes]
      rw [readBackingFilePath_congr hread]
    · rfl

theorem Named.turns (h : Named openBacking path q) (hsound : Sound host [] q) (hsound' : Sound host [] q')
    (hturns : Turns q q') :
    Named openBacking path q' := by
  obtain ⟨off, n, hheader⟩ := hturns.header
  exact h.congr hsound hsound' (by rw [hheader]; rfl) (by rw [hheader]; rfl) hturns.clusterSize hturns.backing hturns.name

theorem Named.start (h : Named openBacking path q) (hsound : Sound host [] q) (hsound' : Sound host [] q')
    (hstart : Start q q') :
    Named openBacking path q' :=
  h.congr hsound hsound' (by rw [hstart.header]) (by rw [hstart.header]) (by rw [hstart.header]) hstart.backing
    fun k _ hk => hstart.bytes k hk

theorem le_alignUp {len size : Nat} (hsize : 0 < size) (hlt : len + size - 1 < 2 ^ 64) : len ≤ alignUp len size := by
  rw [alignUp, Nat.mod_eq_of_lt hlt]
  exact le_roundUp len hsize

section Reopened

variable (h : Sound host [] q) (hclean : q.Clean)

include h hclean

theorem reopened_l2View {i off : Nat} (hoff : q.l2Offset i = some off) : q.reopened.l2View i off = q.l2View i off := by
  unfold l2View
  cases hlookup : q.l2Cache.lookup i with
  | none => rfl
  | some entry =>
    obtain ⟨hoff', -, htable⟩ := h.cached i entry hlookup
    cases hoff'.symm.trans hoff
    exact (htable (hclean i entry hlookup)).symm

theorem reopened_dataOffset : q.reopened.dataOffset = q.dataOffset := by
  funext g
  unfold dataOffset
  change (q.l2Offset (g / q.header.l2EntriesPerTable)).bind (fun off =>
    ((q.reopened.l2View (g / q.header.l2EntriesPerTable) off)[g % q.header.l2EntriesPerTable]?).bind _) = _
  cases hoff : q.l2Offset (g / q.header.l2EntriesPerTable) with
  | none => rfl
  | some off => rw [Option.bind_some, Option.bind_some, reopened_l2View h hclean hoff]

theorem reopened_place {o : Owner} {off : Nat} (hoff : q.reopened.place [] o = some off) : q.place [] o = some off := by
  cases o with
  | refcountBlock i =>
    change (if q.storedTable.getD i 0 = 0 then none else some (q.storedTable.getD i 0)) = some off at hoff
    rcases h.stored i with hzero | hblock
    · rw [if_pos hzero] at hoff
      cases hoff
    · rw [hblock] at hoff
      exact hoff
  | data g => exact (congrFun (reopened_dataOffset h hclean) g).symm.trans hoff
  | header | l1 i | refcountTable i | l2 i | reserved i => exact hoff

theorem Sound.reopened (hlimit : host.limit ≤ 2 ^ 54) : Sound host [] q.reopened := by
  have hcs := clusterSize_bounds h.fits
  have hlen := h.lenLimit
  refine ⟨h.fits, h.onDisk, h.l1Length, h.l1Good, ?_, ?_, h.l1Inside, h.tableInside, ?_, ?_, ?_, ?_, hlen⟩
  · intro i off hoff e he
    rw [reopened_l2View h hclean hoff] at he
    exact h.l2Good i off hoff e he
  · intro i entry hentry
    cases hentry
  · exact fun i => Or.inr rfl
  · exact h.placed.of_embedding id Function.injective_id fun o off hoff => reopened_place h hclean hoff
  · have hnext : q.file.len ≤ alignUp q.file.len q.header.clusterSize := le_alignUp (by omega) (by omega)
    exact hnext
  · exact Nat.dvd_mul_left _ _

end Reopened

theorem tableOk_reopened (q : Qcow2File B) : TableOk host q.reopened := by
  have hle : q.storedTable.length * 8 ≤ q.header.refcountTableClusters * q.header.clusterSize := by
    rw [storedTable, tableAt_length]
    exact Nat.div_mul_le_self _ _
  exact ⟨Or.inl hle, Or.inl hle⟩

theorem openFile_eq (h : Sound host [] q) (hstored : q.L1Stored) (hnamed : Named openBacking path q) :
    openFile openBacking path q.file = .ok q.reopened := by
  have hl1 : readTable q.file q.header.l1TableOffset q.header.l1Size = .ok q.l1Table := by
    rw [readTable_eq h.l1Inside, hstored]
  have htable : readTable q.file q.header.refcountTableOffset
      (q.header.refcountTableClusters * q.header.clusterSize / 8) = .ok q.storedTable := by
    apply readTable_eq
    have := Nat.div_mul_le_self (q.header.refcountTableClusters * q.header.clusterSize) 8
    have := h.tableInside
    omega
  unfold openFile
  rw [h.onDisk]
  change (readTable q.file q.header.l1TableOffset q.header.l1Size >>= _) = _
  rw [hl1]
  change (readTable q.file q.header.refcountTableOffset _ >>= _) = _
  rw [htable]
  change (openHeaderBacking openBacking path q.file q.header >>= _) = _
  rw [hnamed.opens]
  rfl

variable [Backing B] {base content : ByteStore}

theorem Holds.turns (h : Holds host base content q) (hturns : Turns q q') (hsound : Sound host [] q')
    (htable : TableOk host q') : Holds host base content q' := by
  obtain ⟨off, n, hheader⟩ := hturns.header
  refine ⟨hsound, htable, ?_, ?_, ?_⟩
  · rw [hturns.backing]
    exact h.rests
  · rw [hheader]
    exact h.covers
  · rw [hturns.byteAt, h.content]

theorem Holds.reopened (h : Holds host base content q) (hlimit : host.limit ≤ 2 ^ 54) (hclean : q.Clean) :
    Holds host base content q.reopened := by
  refine ⟨h.sound.reopened hclean hlimit, tableOk_reopened q, h.rests, h.covers, ?_⟩
  rw [← h.content]
  funext pos
  unfold byteAt
  rw [reopened_dataOffset h.sound hclean]
  rfl

end Qcow2File

end CloneVmm.Storage
