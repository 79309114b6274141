import CloneVmm.Storage.Stable

namespace CloneVmm.Storage

open CloneVmm.Lib CloneVmm.Lib.Prog

class Chain (B : Type) extends Backing B where
  files : B → List HostFile
  drop : Host → B → List HostFile

namespace Qcow2File

variable {B : Type} [Chain B]

def backingFiles (q : Qcow2File B) : List HostFile := (q.backing.map Chain.files).getD []

def dropBacking (host : Host) (q : Qcow2File B) : List HostFile :=
  (((flush host).exec q).2.backing.map (Chain.drop host)).getD []

end Qcow2File

namespace BackingFile

variable {B : Type} [Chain B]

def files : BackingFile B → List HostFile
  | qcow2 image => image.file :: image.backingFiles
  | raw file _ => [file]

def drop (host : Host) : BackingFile B → List HostFile
  | qcow2 image => image.drop host :: image.dropBacking host
  | raw file _ => [file]

end BackingFile

instance {B : Type} [Chain B] : Chain (BackingFile B) where
  files := BackingFile.files
  drop := BackingFile.drop

instance : Chain Empty where
  readAt _ b := b.elim
  files b := b.elim
  drop _ b := b.elim

def Images : Nat → Type
  | 0 => Empty
  | n + 1 => BackingFile (Images n)

@[reducible] def Images.chain : (n : Nat) → Chain (Images n)
  | 0 => inferInstanceAs (Chain Empty)
  | n + 1 => @instChainBackingFile (Images n) (chain n)

instance (n : Nat) : Chain (Images n) := Images.chain n

def openImages (host : Host) : (n : Nat) → PathBuf → Except Qcow2Error (Images n)
  | 0, _ => .error .noSuchFile
  | n + 1, path => openBackingFile host (Qcow2File.openFile (openImages host n)) path

namespace Qcow2File

theorem stable_backing {B : Type} [Backing B] {host : Host} {P : Option B → Prop}
    (hread : ∀ b offset n, P (some b) → P (some (Backing.readAt host b offset n).2)) :
    Stable host (fun _ => True) fun q : Qcow2File B => P q.backing where
  file _ h := h
  nextAllocOffset _ h := h
  refcountTable _ h := h
  header _ _ h := h
  l1Table _ _ h := h
  accessCounter _ h := h
  insert _ h _ := h
  erase _ h := h
  lookup _ _ := trivial
  resize _ _ := trivial
  fresh _ _ := trivial
  backing offset n h hbacking := hread _ offset n (hbacking ▸ h)

structure AsOpened {B : Type} (q : Qcow2File B) : Prop where
  bits : 9 ≤ q.header.clusterBits ∧ q.header.clusterBits ≤ 21
  clusters : q.header.refcountTableClusters < 2 ^ 32
  l1Table : readTable q.file q.header.l1TableOffset q.header.l1Size = .ok q.l1Table
  refcountTable : readTable q.file q.header.refcountTableOffset
    (q.header.refcountTableClusters * q.header.clusterSize / 8) = .ok q.refcountTable
  clean : ∀ i entry, q.l2Cache.lookup i = some entry → entry.dirty = false

end Qcow2File

theorem flatMap_chunks (buf : Bytes) (count : Nat) :
    (List.range count).flatMap (fun i => (buf.drop (i * 8)).take 8) = buf.take (count * 8) := by
  induction count with
  | zero => simp
  | succ count ih =>
    rw [List.range_succ, List.flatMap_append, ih, Nat.succ_mul, List.take_add]
    simp

theorem readExact_length {file : HostFile} {off n : Nat} {buf : Bytes} (h : file.readExact off n = some buf) :
    buf.length = n := by
  unfold HostFile.readExact at h
  split at h
  · cases h
    exact readBytes_length _ _ _
  · cases h

theorem write_tableBytes {file : HostFile} {offset count : Nat} {entries : List Nat}
    (h : readTable file offset count = .ok entries) : file.write offset (tableBytes entries) = file := by
  unfold readTable at h
  split at h
  · cases h
    exact file.write_of_readExact (n := 0) (if_pos (.inl rfl))
  · split at h
    · cases h
    · rename_i buf hbuf
      cases h
      have hlen := readExact_length hbuf
      have hchunks : tableBytes ((List.range count).map fun i => beNat ((buf.drop (i * 8)).take 8)) = buf := by
        rw [tableBytes, List.flatMap_map]
        calc (List.range count).flatMap (fun i => beBytes 8 (beNat ((buf.drop (i * 8)).take 8)))
          _ = (List.range count).flatMap (fun i => (buf.drop (i * 8)).take 8) := by
            apply List.flatMap_congr
            intro i hi
            rw [List.mem_range] at hi
            have hchunk : ((buf.drop (i * 8)).take 8).length = 8 := by
              rw [List.length_take, List.length_drop]
              omega
            have hbytes := beBytes_beNat ((buf.drop (i * 8)).take 8)
            rwa [hchunk] at hbytes
          _ = buf := by rw [flatMap_chunks, List.take_of_length_le (by omega)]
      rw [hchunks]
      exact file.write_of_readExact hbuf

namespace Qcow2File

section Image

variable {B : Type} {host : Host}

theorem AsOpened.clustersNeeded {q : Qcow2File B} (h : q.AsOpened) :
    q.refcountTableClustersNeeded = q.header.refcountTableClusters := by
  obtain ⟨hlo, hhi⟩ := h.bits
  have hclusters := h.clusters
  have hsize : q.header.clusterSize = 8 * 2 ^ (q.header.clusterBits - 3) := by
    rw [Qcow2Header.clusterSize, show 8 = 2 ^ 3 from rfl, ← Nat.pow_add, Nat.add_sub_cancel' (by omega)]
  have hpos : 0 < q.header.clusterSize := Nat.two_pow_pos _
  have hle : q.header.clusterSize ≤ 2 ^ 21 := Nat.pow_le_pow_right (by omega) hhi
  have hbytes : q.refcountTable.length * 8 = q.header.refcountTableClusters * q.header.clusterSize := by
    rw [readTable_length h.refcountTable, hsize, Nat.mul_left_comm, Nat.mul_div_cancel_left _ (by omega), Nat.mul_comm]
  have hfit : q.header.refcountTableClusters * q.header.clusterSize ≤ 2 ^ 32 * 2 ^ 21 :=
    Nat.mul_le_mul (Nat.le_of_lt hclusters) hle
  have hround : (q.header.refcountTableClusters * q.header.clusterSize + q.header.clusterSize - 1) % 2 ^ 64 =
      q.header.clusterSize * q.header.refcountTableClusters + (q.header.clusterSize - 1) := by
    rw [Nat.mul_comm q.header.clusterSize]
    omega
  rw [refcountTableClustersNeeded, divRoundUp, hbytes, hround, Nat.mul_add_div hpos, Nat.div_eq_of_lt (by omega),
    Nat.add_zero]
  exact Nat.mod_eq_of_lt hclusters

theorem AsOpened.dirtyIndices {q : Qcow2File B} (h : q.AsOpened) : dirtyIndices host q = [] := by
  apply List.filter_eq_nil_iff.mpr
  intro i _
  cases hentry : q.l2Cache.lookup i with
  | none => simp
  | some entry => simp [h.clean i entry hentry]

theorem ends_writeAll {q : Qcow2File B} {off : Nat} {bs : Bytes} (h : q.file.write off bs = q.file) :
    (writeAll host off bs).Ends (· = q) (fun _ => True) q := by
  unfold writeAll
  split
  · refine ⟨?_, trivial⟩
    change { q with file := q.file.write off bs } = q
    rw [h]
  · exact ends_throw rfl

theorem AsOpened.flush {q : Qcow2File B} (h : q.AsOpened) : ((flush host).exec q).2 = q := by
  have hl1 : (writeL1Table host).Keeps (· = q) fun _ => True := by
    rintro _ rfl
    exact ends_bind_of_exec (m := get) rfl (ends_writeAll (write_tableBytes h.l1Table))
  have hrefcounts : (writeRefcountTable host).Ends (· = q) (fun _ => True) q := by
    have hgrow : (growRefcountTable host).exec q = (.ok (), q) := by
      change (if _ then _ else _ : Io B Unit).exec q = _
      rw [if_neg (by rw [h.clustersNeeded]; omega)]
      rfl
    refine ends_bind_of_exec hgrow (ends_bind_of_exec (m := get) rfl ?_)
    exact ends_writeAll (write_tableBytes h.refcountTable)
  have hflush : (Qcow2File.flush host).Ends (· = q) (fun _ => True) q := by
    refine ends_bind_of_exec (m := get) rfl ?_
    rw [h.dirtyIndices]
    refine ends_bind_of_exec (m := flushL2Tables host []) rfl ?_
    refine (hl1 q rfl).bind fun _ _ => ?_
    rintro _ rfl
    exact hrefcounts
  exact hflush.state

structure Untouched [Chain B] (Clean : B → Prop) (files : List HostFile) (q : Qcow2File B) : Prop where
  asOpened : q.AsOpened
  files_eq : q.file :: q.backingFiles = files
  clean : ∀ b, q.backing = some b → Clean b

theorem AsOpened.withCache {q : Qcow2File B} (h : q.AsOpened) {cache : L2Cache} (counter : Nat)
    (hclean : ∀ i entry, cache.lookup i = some entry → entry.dirty = false) :
    AsOpened { q with l2Cache := cache, accessCounter := counter } :=
  ⟨h.bits, h.clusters, h.l1Table, h.refcountTable, hclean⟩

theorem AsOpened.lookup_insert {q : Qcow2File B} (h : q.AsOpened) {entry : L2CacheEntry} (hentry : entry.dirty = false)
    (i j : Nat) (found : L2CacheEntry) (hfound : (q.l2Cache.insert i entry).lookup j = some found) :
    found.dirty = false := by
  by_cases hij : j = i
  · subst hij
    rw [AList.lookup_insert, Option.some_inj] at hfound
    rw [← hfound]
    exact hentry
  · rw [AList.lookup_insert_ne hij] at hfound
    exact h.clean j found hfound

variable [Chain B] {Clean : B → Prop} {files : List HostFile}

theorem untouched_makeRoom : (makeRoom host).Keeps (Untouched Clean files) fun _ => True := by
  refine keeps_get.bind fun _ _ => Keeps.ite ?_ (keeps_pure trivial)
  intro q hq
  refine ends_bind_of_exec (m := get) rfl ?_
  dsimp only
  cases (host.order q.l2Cache).argmin (lastAccessOf q.l2Cache) with
  | none => exact ends_pure hq trivial
  | some i =>
    -- the victim is clean, so that it is only forgotten
    have hflush : (flushL2Table host i).Ends (· = q) (fun _ => True) q := by
      refine ends_bind_of_exec (m := get) rfl ?_
      cases hentry : q.l2Cache.lookup i with
      | none => exact ends_throw rfl
      | some entry =>
        refine ends_bind_of_exec (m := orFail _ _) rfl ?_
        rw [hq.asOpened.clean i entry hentry, if_neg Bool.false_ne_true]
        exact ends_pure rfl trivial
    refine Wp.bind (Wp.mono hflush ?_ fun e t ht => ht ▸ hq)
    rintro _ t ⟨rfl, -⟩
    refine ⟨⟨hq.asOpened.withCache _ ?_, hq.files_eq, hq.clean⟩, trivial⟩
    intro j entry hentry
    by_cases hij : j = i
    · subst hij
      rw [AList.lookup_erase] at hentry
      cases hentry
    · rw [AList.lookup_erase_ne hij] at hentry
      exact hq.asOpened.clean j entry hentry

theorem untouched_ensureL2Cached (i offset : Nat) :
    (ensureL2Cached host i offset).Keeps (Untouched Clean files) fun _ => True := by
  intro q hq
  refine ends_bind_of_exec (m := get) rfl ?_
  cases hentry : q.l2Cache.lookup i with
  | some entry =>
    refine ⟨⟨hq.asOpened.withCache _ ?_, hq.files_eq, hq.clean⟩, trivial⟩
    have hsame : { entry with lastAccess := q.accessCounter + 1 }.dirty = false := hq.asOpened.clean i entry hentry
    exact hq.asOpened.lookup_insert hsame i
  | none =>
    refine (untouched_makeRoom q hq).bind fun _ _ => ?_
    intro q' hq'
    refine ends_bind_of_exec (m := get) rfl ?_
    cases readTable q'.file offset q'.header.l2EntriesPerTable with
    | error e => exact ends_throw hq'
    | ok entries => exact ⟨⟨hq'.asOpened.withCache _ (hq'.asOpened.lookup_insert rfl i), hq'.files_eq, hq'.clean⟩, trivial⟩

structure ReadOnly (host : Host) (Clean : B → Prop) : Prop where
  readAt : ∀ b offset n, Clean b →
    Clean (Backing.readAt host b offset n).2 ∧ Chain.files (Backing.readAt host b offset n).2 = Chain.files b
  drop : ∀ b, Clean b → Chain.drop host b = Chain.files b

theorem untouched_readBacking (hbelow : ReadOnly host Clean) (offset n : Nat) :
    (readBacking host offset n).Keeps (Untouched Clean files) fun _ => True := by
  intro q hq
  refine Wp.bind (wp_get ?_)
  cases hbacking : q.backing with
  | none => exact ends_pure hq trivial
  | some b =>
    obtain ⟨hclean, hfiles⟩ := hbelow.readAt b offset n (hq.clean b hbacking)
    have huntouched : Untouched Clean files { q with backing := some (Backing.readAt host b offset n).2 } := by
      obtain ⟨hopened, hchain, -⟩ := hq
      refine ⟨⟨hopened.bits, hopened.clusters, hopened.l1Table, hopened.refcountTable, hopened.clean⟩, ?_, ?_⟩
      · rw [← hchain, backingFiles, backingFiles, hbacking, Option.map_some, Option.map_some, hfiles]
      · intro b' hb'
        cases hb'
        exact hclean
    refine Ends.bind (R := fun _ => True) (m := modifyGet _) ⟨huntouched, trivial⟩ fun _ _ => ?_
    cases (Backing.readAt host b offset n).1 with
    | error e => exact keeps_throw
    | ok bytes => exact keeps_pure trivial

theorem untouched_readAt (hbelow : ReadOnly host Clean) (offset n : Nat) :
    (readAt host offset n).Keeps (Untouched Clean files) fun _ => True :=
  keeps_readAt (keeps_translateCluster untouched_ensureL2Cached) (untouched_readBacking hbelow) offset n

end Image

end Qcow2File

open Qcow2File

def BackingFile.Clean {B : Type} (Below : B → Prop) : BackingFile B → Prop
  | qcow2 image => image.AsOpened ∧ ∀ b, image.backing = some b → Below b
  | raw _ _ => True

theorem BackingFile.readAt_raw {B : Type} [Backing B] (host : Host) (file : HostFile) (size offset n : Nat) :
    (BackingFile.readAt host (raw file size : BackingFile B) offset n).2 = raw file size := by
  simp only [BackingFile.readAt]
  split
  · rfl
  · split <;> rfl

theorem BackingFile.readOnly {B : Type} [Chain B] {host : Host} {Below : B → Prop} (hbelow : ReadOnly host Below) :
    ReadOnly host (BackingFile.Clean Below) where
  readAt := by
    rintro (image | ⟨file, size⟩) offset n hclean
    · obtain ⟨hopened, hbacking⟩ := hclean
      have hkeeps := (untouched_readAt hbelow offset n image ⟨hopened, rfl, hbacking⟩).state
      exact ⟨⟨hkeeps.asOpened, hkeeps.clean⟩, hkeeps.files_eq⟩
    · change BackingFile.Clean Below (BackingFile.readAt host (raw file size) offset n).2 ∧
        BackingFile.files (BackingFile.readAt host (raw file size) offset n).2 = _
      rw [BackingFile.readAt_raw]
      exact ⟨trivial, rfl⟩
  drop := by
    rintro (image | ⟨file, size⟩) hclean
    · obtain ⟨hopened, hbacking⟩ := hclean
      change Qcow2File.drop host image :: dropBacking host image = image.file :: backingFiles image
      rw [Qcow2File.drop, dropBacking, hopened.flush, backingFiles]
      congr 1
      cases hb : image.backing with
      | none => rfl
      | some b =>
        rw [Option.map_some, Option.map_some]
        exact hbelow.drop b (hbacking b hb)
    · rfl

theorem beAt_lt (buf : Bytes) (off w : Nat) : Qcow2Header.beAt buf off w < 256 ^ w := by
  refine Nat.lt_of_lt_of_le (beNat_lt _) (Nat.pow_le_pow_right (by omega) ?_)
  rw [List.length_take]
  omega

theorem beAt_append_left (buf ext : Bytes) {off w : Nat} (h : off + w ≤ buf.length) :
    Qcow2Header.beAt (buf ++ ext) off w = Qcow2Header.beAt buf off w := by
  rw [Qcow2Header.beAt, Qcow2Header.beAt, List.drop_append_of_le_length (by omega),
    List.take_append_of_le_length (by rw [List.length_drop]; omega)]

theorem readFrom_bounds {file : HostFile} {h : Qcow2Header} (hread : Qcow2Header.readFrom file = .ok h) :
    (9 ≤ h.clusterBits ∧ h.clusterBits ≤ 21) ∧ h.refcountTableClusters < 2 ^ 32 := by
  unfold Qcow2Header.readFrom at hread
  split at hread
  · cases hread
  · rename_i buf hbuf
    have hlen := readExact_length hbuf
    split at hread
    · cases hread
    · split at hread
      · cases hread
      · split at hread
        · cases hread
        · rename_i hbits
          rw [not_not] at hbits
          split at hread
          · cases hread
          · split at hread
            · split at hread
              · cases hread
              · cases hread
                exact ⟨by rwa [← beAt_append_left buf _ (by omega)] at hbits, beAt_lt _ _ _⟩
            · cases hread
              exact ⟨hbits, beAt_lt _ _ _⟩

theorem openHeaderBacking_some {B : Type} {openBacking : PathBuf → Except Qcow2Error B} {path : PathBuf}
    {file : HostFile} {header : Qcow2Header} {b : B}
    (h : openHeaderBacking openBacking path file header = .ok (some b)) : ∃ path', openBacking path' = .ok b := by
  unfold openHeaderBacking at h
  split at h
  · obtain ⟨name, -, h⟩ := exceptBind_eq_ok.mp h
    obtain ⟨b', hopen, h⟩ := exceptBind_eq_ok.mp h
    cases h
    exact ⟨_, hopen⟩
  · cases h

theorem openFile_asOpened {B : Type} {openBacking : PathBuf → Except Qcow2Error B} {path : PathBuf} {file : HostFile}
    {q : Qcow2File B} (h : Qcow2File.openFile openBacking path file = .ok q) :
    q.AsOpened ∧ ∀ b, q.backing = some b → ∃ path', openBacking path' = .ok b := by
  obtain ⟨header, hheader, h⟩ := exceptBind_eq_ok.mp h
  obtain ⟨l1Table, hl1, h⟩ := exceptBind_eq_ok.mp h
  obtain ⟨refcountTable, hrefcounts, h⟩ := exceptBind_eq_ok.mp h
  obtain ⟨backing, hbacking, h⟩ := exceptBind_eq_ok.mp h
  cases h
  obtain ⟨hbits, hclusters⟩ := readFrom_bounds hheader
  refine ⟨⟨hbits, hclusters, hl1, hrefcounts, ?_⟩, ?_⟩
  · intro i entry hentry
    cases hentry
  · rintro b rfl
    exact openHeaderBacking_some hbacking

theorem images_readOnly (host : Host) (n : Nat) : ∃ Clean : Images n → Prop, ReadOnly host Clean ∧
    ∀ path b, openImages host n path = .ok b → Clean b := by
  induction n with
  | zero => exact ⟨fun _ => True, ⟨fun b => b.elim, fun b => b.elim⟩, fun _ b => b.elim⟩
  | succ n ih =>
    obtain ⟨Below, hbelow, hopen⟩ := ih
    refine ⟨BackingFile.Clean Below, BackingFile.readOnly hbelow, fun path b hb => ?_⟩
    unfold openImages openBackingFile at hb
    split at hb
    · cases hb
    · rename_i file _
      split at hb
      · cases himage : Qcow2File.openFile (openImages host n) path file with
        | error e =>
          rw [himage] at hb
          cases hb
        | ok image =>
          rw [himage] at hb
          cases hb
          obtain ⟨hopened, hbacking⟩ := openFile_asOpened himage
          refine ⟨hopened, fun b hb => ?_⟩
          obtain ⟨path', hpath⟩ := hbacking b hb
          exact hopen path' b hpath
      · cases hb
        trivial

def InOrder {B : Type} [Chain B] (Clean : B → Prop) (files : List HostFile) (backing : Option B) : Prop :=
  ∃ b, backing = some b ∧ Clean b ∧ Chain.files b = files

theorem InOrder.readAt {B : Type} [Chain B] {host : Host} {Clean : B → Prop} {files : List HostFile}
    (hreadOnly : ReadOnly host Clean) (b : B) (offset n : Nat) (h : InOrder Clean files (some b)) :
    InOrder Clean files (some (Backing.readAt host b offset n).2) := by
  obtain ⟨b', heq, hclean, hfiles⟩ := h
  cases heq
  obtain ⟨hclean', hfiles'⟩ := hreadOnly.readAt b offset n hclean
  exact ⟨_, rfl, hclean', hfiles'.trans hfiles⟩

/-- Reads, writes and flushes of an overlay, and its drop at the end, leave the files under it. -/
theorem backing_unchanged (host : Host) (n : Nat) (path : PathBuf) (b : Images n)
    (hopen : openImages host n path = .ok b) (q : Qcow2File (Images n)) (hq : q.backing = some b) (ops : List Op) :
    (ops.foldl (Op.apply host) q).backingFiles = Chain.files b ∧
      (ops.foldl (Op.apply host) q).dropBacking host = Chain.files b := by
  obtain ⟨Clean, hreadOnly, hclean⟩ := images_readOnly host n
  have hstart : InOrder Clean (Chain.files b) q.backing := ⟨b, hq, hclean path b hopen, rfl⟩
  have hstable : Stable host (fun _ => True) fun q : Qcow2File (Images n) => InOrder Clean (Chain.files b) q.backing :=
    stable_backing (InOrder.readAt hreadOnly)
  have hend := hstable.ops ops hstart
  have hflushed := (hstable.flush _ hend).state
  obtain ⟨b', hb', -, hfiles⟩ := hend
  obtain ⟨b'', hb'', hclean'', hfiles''⟩ := hflushed
  constructor
  · rw [backingFiles, hb', Option.map_some, Option.getD_some, hfiles]
  · rw [dropBacking, hb'', Option.map_some, Option.getD_some, hreadOnly.drop b'' hclean'', hfiles'']

def baseHeader : Qcow2Header where
  magic := qcow2Magic
  version := 2
  backingFileOffset := 0
  backingFileSize := 0
  clusterBits := 9
  size := 512
  cryptMethod := 0
  l1Size := 1
  l1TableOffset := 512
  refcountTableOffset := 1024
  refcountTableClusters := 1
  nbSnapshots := 0
  snapshotsOffset := 0
  incompatibleFeatures := 0
  compatibleFeatures := 0
  autoclearFeatures := 0
  refcountOrder := defaultRefcountOrder
  headerLength := 72

def baseFile : HostFile := (HostFile.empty.write 0 baseHeader.bytes).setLen 1536

def basePath : PathBuf := .ofStr "/base.qcow2"

def baseHost : Host where
  limit := 2 ^ 40
  files path := if path = basePath then some baseFile else none
  order cache := cache.keys
  order_perm cache := .refl cache.keys

theorem baseFile_header : Qcow2Header.readFrom baseFile = .ok baseHeader := by
  apply Qcow2Header.readFrom_of_bytes
  · constructor <;> decide
  · decide
  · have hdata : baseFile.data = writeBytes (fun _ => 0) 0 baseHeader.bytes := HostFile.setLen_data _ (by decide)
    rw [hdata, ← Qcow2Header.bytes_length, readBytes_writeBytes]

theorem baseFile_table {offset count : Nat} (h : offset + count * 8 ≤ 1536) :
    ∃ entries, readTable baseFile offset count = .ok entries := by
  unfold readTable
  split
  · exact ⟨[], rfl⟩
  · rw [baseFile.readExact_eq h]
    exact ⟨_, rfl⟩

theorem baseFile_open : ∃ b, openImages baseHost 1 basePath = .ok b := by
  have hmagic : baseFile.readExact 0 4 = some [0x51, 0x46, 0x49, 0xfb] := by decide
  have hfile : baseHost.files basePath = some baseFile := by simp [baseHost]
  obtain ⟨l1Table, hl1⟩ := @baseFile_table 512 1 (by decide)
  obtain ⟨refcountTable, hrefcounts⟩ := @baseFile_table 1024 64 (by decide)
  have himage : Qcow2File.openFile (openImages baseHost 0) basePath baseFile =
      .ok ⟨baseFile, baseHeader, l1Table, refcountTable, ∅, 0, 1536, none⟩ := by
    refine exceptBind_eq_ok.mpr ⟨_, baseFile_header, exceptBind_eq_ok.mpr ⟨_, hl1, ?_⟩⟩
    exact exceptBind_eq_ok.mpr ⟨_, hrefcounts, rfl⟩
  refine ⟨.qcow2 ⟨baseFile, baseHeader, l1Table, refcountTable, ∅, 0, 1536, none⟩, ?_⟩
  change openBackingFile baseHost _ basePath = _
  rw [openBackingFile, hfile]
  dsimp only
  rw [if_pos hmagic, himage]
  rfl

theorem backing_unchanged_base : ∃ b : Images 1, openImages baseHost 1 basePath = .ok b ∧
    ([Op.writeAt 0 [1], .flush].foldl (Op.apply baseHost)
      (⟨baseFile, baseHeader, [0], List.replicate 64 0, ∅, 0, 1536, some b⟩ : Qcow2File (Images 1))).dropBacking baseHost =
        Chain.files b := by
  obtain ⟨b, hopen⟩ := baseFile_open
  exact ⟨b, hopen, (backing_unchanged baseHost 1 basePath b hopen _ rfl _).2⟩

end CloneVmm.Storage
