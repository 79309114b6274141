import CloneVmm.Storage.CacheBound
import CloneVmm.Storage.HeaderRoundTrip
import CloneVmm.Storage.RefcountTable

namespace CloneVmm.Storage

open CloneVmm.Lib CloneVmm.Lib.Prog

namespace Qcow2File

variable {B : Type} {host : Host} {rs rs' : List Nat} {h : Qcow2Header} {pos : Nat} {q q' : Qcow2File B}

structure Settled (host : Host) (rs : List Nat) (h : Qcow2Header) (q : Qcow2File B) : Prop where
  sound : Sound host rs q
  tableOk : TableOk host q
  header : q.header = h

namespace Settled

theorem quiet {P : Owner → Prop} (hq : Settled host rs h q) (hsound : Sound host rs q') (hquiet : Quiet P rs q q') :
    Settled host rs h q' :=
  ⟨hsound, hq.tableOk.quiet hquiet, hquiet.header.trans hq.header⟩

theorem rebacked (hq : Settled host rs h q) (b : Option B) : Settled host rs h { q with backing := b } :=
  ⟨hq.sound.rebacked b, hq.tableOk.rebacked b, hq.header⟩

theorem forget (hq : Settled host (rs ++ rs') h q) : Settled host rs h q := ⟨hq.sound.forget, hq.tableOk, hq.header⟩

end Settled

theorem keeps_translateCluster_settled (pos : Nat) :
    (translateCluster host pos).Keeps (Settled (B := B) host rs h) fun _ => True := by
  intro q hq
  apply (ends_translateCluster hq.sound pos).imp
  rintro q' ⟨hsound, hquiet⟩
  exact hq.quiet hsound hquiet

section Access

variable [Backing B]

theorem keeps_readBacking_settled (hfills : Fills host B) (offset n : Nat) :
    (readBacking host offset n).Keeps (Settled (B := B) host rs h) fun bytes => bytes.length = n := by
  intro q hq
  apply (ends_readBacking hfills offset n).imp
  rintro _ ⟨b, rfl⟩
  exact hq.rebacked b

theorem keeps_fillCluster_settled (hfills : Fills host B) (len off : Nat) :
    (fillCluster host h.clusterBits pos len off).Keeps (Settled (B := B) host (rs ++ [off]) h) fun _ => True := by
  refine Keeps.ite ((keeps_readBacking_settled hfills _ _).bind fun bytes hlen q hq => ?_) (keeps_pure trivial)
  obtain ⟨hin, hsound, hquiet⟩ := hq.sound.writeReserved bytes (by rw [hq.header]; exact hlen.le)
  exact wp_writeAll (hin.trans hq.sound.lenLimit) ⟨hq.quiet hsound hquiet, trivial⟩

theorem wp_clusterForWrite_settled (hlimit : host.limit ≤ 2 ^ 54) (hfills : Fills host B) (hq : Settled host [] h q)
    (hpos : l1IndexOf h pos < h.l1Size) (len : Nat) :
    (clusterForWrite host h.clusterBits pos len).Wp (fun off q' => Settled host [] h q' ∧
      q'.dataOffset (pos / h.clusterSize) = some off) (fun _ q' => Settled host [] h q') q := by
  have hin : l1IndexOf q.header pos < q.header.l1Size := by rwa [hq.header]
  unfold clusterForWrite
  apply Wp.seq ((wp_translateCluster hq.sound hin).mono (fun _ _ hq' => hq') fun _ _ hfalse => hfalse.elim)
  rintro r q₁ ⟨rfl, hsound₁, hquiet⟩
  have hq₁ := hq.quiet hsound₁ hquiet
  rw [hq.header]
  cases hoff : q.dataOffset (pos / h.clusterSize) with
  | some off => exact wp_pure ⟨hq₁, by rw [hquiet.toFrame.dataOffset, hoff]⟩
  | none =>
    apply Wp.seq ((wp_allocCluster hsound₁ hq₁.tableOk).mono (fun _ _ hq' => hq') fun _ _ hfailed =>
      ⟨hfailed.sound, hfailed.tableOk, hfailed.header.trans hq₁.header⟩)
    intro off q₂ halloc
    have hq₂ : Settled host ([] ++ [off]) h q₂ := ⟨halloc.sound, halloc.tableOk, halloc.header.trans hq₁.header⟩
    apply Wp.seq (Wp.mono (keeps_fillCluster_settled hfills len off q₂ hq₂) (fun _ _ hq' => hq')
      fun _ _ hq' => hq'.forget)
    rintro _ q₃ ⟨hq₃, -⟩
    have hset : (setL2Entry host pos (off ||| l2FlagCopied)).Wp _ _ q₃ :=
      wp_setL2Entry hlimit hq₃.sound hq₃.tableOk (by rwa [hq₃.header])
    apply Wp.seq (hset.mono (fun _ _ hq' => hq') fun _ _ hlost =>
      ⟨hlost.sound, hlost.tableOk, hlost.header.trans hq₃.header⟩)
    intro _ q₄ hmapped
    refine wp_pure ⟨⟨hmapped.sound, hmapped.tableOk, hmapped.header.trans hq₃.header⟩, ?_⟩
    rw [hmapped.dataOffset, hq₃.header, Function.update_self]

theorem keeps_writeChunk_settled (hlimit : host.limit ≤ 2 ^ 54) (hfills : Fills host B) (pos : Nat) {chunk : Bytes}
    (hfits : pos % h.clusterSize + chunk.length ≤ h.clusterSize) :
    (writeChunk host h.clusterBits pos chunk).Keeps (Settled (B := B) host [] h) fun _ => True := by
  intro q hq
  unfold writeChunk
  by_cases hpos : l1IndexOf h pos < h.l1Size
  · apply Wp.seq (wp_clusterForWrite_settled hlimit hfills hq hpos chunk.length)
    rintro off q' ⟨hq', hoff⟩
    obtain ⟨hin, hsound, hquiet⟩ := hq'.sound.writeData hoff chunk (by rwa [hq'.header])
    exact wp_writeAll (hin.trans hq'.sound.lenLimit) ⟨hq'.quiet hsound hquiet, trivial⟩
  · have hout : ¬ l1IndexOf q.header pos < q.header.l1Size := by rwa [hq.header]
    unfold clusterForWrite
    refine Wp.fails_bind (Wp.fails_bind ((wp_translateCluster_outside hq.sound.l1Length hout).mono ?_ ?_))
    · exact fun _ _ hfalse => hfalse
    · rintro _ q' rfl
      exact hq

theorem keeps_writeAt_settled (hlimit : host.limit ≤ 2 ^ 54) (hfills : Fills host B) (offset : Nat) (data : Bytes) :
    (writeAt host offset data).Keeps (Settled (B := B) host [] h) fun _ => True := by
  intro q hq
  unfold writeAt
  apply wp_get_bind
  dsimp only
  rw [hq.header]
  refine Keeps.ite keeps_throw (Keeps.ite (keeps_writeLoop ?_ _ _) keeps_throw) q hq
  exact fun pos chunk hfits => keeps_writeChunk_settled hlimit hfills pos hfits

theorem Sound.apply (hlimit : host.limit ≤ 2 ^ 54) (hfills : Fills host B) (hsound : Sound host [] q)
    (htable : TableOk host q) (op : Op) : Sound host [] (op.apply host q) ∧ TableOk host (op.apply host q) := by
  have hq : Settled host [] q.header q := ⟨hsound, htable, rfl⟩
  cases op with
  | readAt offset n =>
    have hread : (readAt host offset n).Keeps (Settled host [] q.header) fun _ => True :=
      keeps_readAt keeps_translateCluster_settled
        (fun offset n q hq => (keeps_readBacking_settled hfills offset n q hq).mono fun _ _ => trivial) offset n
    have hq' := (hread q hq).state
    exact ⟨hq'.sound, hq'.tableOk⟩
  | writeAt offset data =>
    have hq' := (keeps_writeAt_settled hlimit hfills offset data q hq).state
    exact ⟨hq'.sound, hq'.tableOk⟩
  | flush =>
    have hflushed := flushed_exec hlimit hsound htable
    exact ⟨hflushed.sound, hflushed.tableOk⟩

end Access

section Open

variable {openBacking : PathBuf → Except Qcow2Error B} {path : PathBuf} {file : HostFile}

theorem openFile_located (hlimit : host.limit ≤ 2 ^ 54) (hlen : file.len ≤ host.limit)
    (hopen : openFile openBacking path file = .ok q) : Located q ∧ q.Bounded := by
  obtain ⟨header, l1Table, refcountTable, backing, hheader, hl1, -, -, rfl⟩ := openFile_eq_ok_iff.mp hopen
  obtain ⟨himage, rfl⟩ := Qcow2Header.readFrom_eq_ok.mp hheader
  have hfits := Qcow2Header.fits_fileHeader himage
  have hcs := clusterSize_bounds hfits
  have hwhole := himage.whole
  have hle : file.len ≤ alignUp file.len (Qcow2Header.fileHeader file).clusterSize := le_alignUp (by omega) (by omega)
  refine ⟨⟨dvd_clusterSize hfits, ?_, ?_, ?_, ?_⟩, Nat.zero_le _⟩
  · rw [readTable_length hl1]
    exact hfits.l1Size.le
  · exact Nat.dvd_mul_left _ _
  · exact Nat.lt_of_lt_of_le (by omega) hle
  · intro i entry hlookup
    cases hlookup

theorem openFile_tableOk (hopen : openFile openBacking path file = .ok q) : TableOk host q := by
  obtain ⟨header, l1Table, refcountTable, backing, -, -, htable, -, rfl⟩ := openFile_eq_ok_iff.mp hopen
  have hlength : refcountTable.length * 8 ≤ header.refcountTableClusters * header.clusterSize := by
    rw [readTable_length htable]
    exact Nat.div_mul_le_self _ _
  exact ⟨.inl hlength, .inl hlength⟩

end Open

def TablesPlaced (q : Qcow2File B) : Prop :=
  ∀ i entry, q.l2Cache.lookup i = some entry → ∃ e, q.l1Table[i]? = some e ∧ entry.hostOffset = e &&& l1OffsetMask

def CleanOnDisk (q : Qcow2File B) : Prop :=
  ∀ i entry, q.l2Cache.lookup i = some entry → entry.dirty = false →
    readTable q.file entry.hostOffset q.header.l2EntriesPerTable = .ok entry.entries

theorem Located.tablesPlaced (hq : Located q) : q.TablesPlaced := by
  intro i entry hlookup
  obtain ⟨e, he, hoff⟩ := Option.bind_eq_some_iff.mp (hq.cached i entry hlookup)
  split at hoff
  · cases hoff
  · exact ⟨e, he, (Option.some.inj hoff).symm⟩

theorem Sound.cleanOnDisk (hq : Sound host rs q) : q.CleanOnDisk := by
  intro i entry hlookup hclean
  obtain ⟨hoff, -, hentries⟩ := hq.cached i entry hlookup
  have hin := hq.placed.inside (o := .l2 i) hoff
  have hsize := l2EntriesPerTable_mul hq.fits
  rw [readTable_eq (by omega), hentries hclean]

/-- The cached tables are those of the first level, and on disk as long as they are not dirty. There are no more
of them than there is room for if every write makes its new tables while there is room, and a write that
succeeds has to. -/
theorem l2Cache_coherent (host : Host) (hlimit : host.limit ≤ 2 ^ 54) (n : Nat)
    (openBacking : PathBuf → Except Qcow2Error (Images n)) (path : PathBuf) (file : HostFile)
    (hlen : file.len ≤ host.limit) (q q' : Qcow2File (Images n)) (hopen : openFile openBacking path file = .ok q)
    (ops : List Op) (hrun : Steps (fun q (op : Op) q' => op.apply host q = q') q ops q') :
    q'.TablesPlaced ∧ (Sound host [] q → q'.CleanOnDisk) ∧
      (Steps (fun q (op : Op) q' => op.apply host q = q' ∧ op.HasRoom q) q ops q' → q'.Bounded) ∧
      ∀ offset data, q'.Bounded → ((writeAt host offset data).exec q').1 = .ok () →
        ((Op.apply host q' (.writeAt offset data)).Bounded ↔ (Op.writeAt offset data).HasRoom q') := by
  obtain ⟨hlocated, hbounded⟩ := openFile_located hlimit hlen hopen
  have hlocated' : Located q' := by
    apply hrun.invariant ?_ hlocated
    rintro q op _ rfl hq
    exact hq.apply hlimit op
  refine ⟨hlocated'.tablesPlaced, fun hsound => ?_, fun hrooms => ?_, fun offset data hbound hok => ?_⟩
  · have hsettled : Sound host [] q' ∧ TableOk host q' := by
      apply hrun.invariant (P := fun q => Sound host [] q ∧ TableOk host q) ?_ ⟨hsound, openFile_tableOk hopen⟩
      rintro q op _ rfl hq
      exact hq.1.apply hlimit (fills_images host n) hq.2 op
    exact hsettled.1.cleanOnDisk
  · have hboth : Located q' ∧ q'.Bounded := by
      apply hrooms.invariant (P := fun q => Located q ∧ q.Bounded) ?_ ⟨hlocated, hbounded⟩
      rintro q op _ ⟨rfl, hop⟩ hq
      exact ⟨hq.1.apply hlimit op, hq.2.apply hlimit hq.1 hop⟩
    exact hboth.2
  · exact (wp_writeAt_within hlimit hlocated' hbound offset data).ok (Prod.ext hok rfl)

theorem l2Cache_coherent_new : ∃ q' : Qcow2File (Images 1),
    Steps (fun q (op : Op) q' => op.apply baseHost q = q' ∧ op.HasRoom q) newImage
      [.writeAt 0 [1], .flush, .readAt 0 1] q' ∧ q'.TablesPlaced ∧ q'.CleanOnDisk ∧ q'.Bounded ∧
      ((Op.apply baseHost q' (.writeAt 512 [2])).Bounded ↔ (Op.writeAt 512 [2]).HasRoom q') := by
  have hcreate : create 4096 9 baseHost (openImages baseHost 1) basePath none = .ok newImage := newImage_create
  obtain ⟨-, -, -, hlen, hopen⟩ := create_eq_ok hcreate
  have hrun : Steps (fun q (op : Op) q' => op.apply baseHost q = q' ∧ op.HasRoom q) newImage
      [.writeAt 0 [1], .flush, .readAt 0 1] ([Op.writeAt 0 [1], .flush, .readAt 0 1].foldl (Op.apply baseHost) newImage) :=
    .cons ⟨rfl, Op.hasRoom_of_lt (by decide)⟩ (.cons ⟨rfl, trivial⟩ (.cons ⟨rfl, trivial⟩ (.nil _)))
  obtain ⟨hplaced, hclean, hbounded, hexact⟩ := l2Cache_coherent baseHost (by decide) 1 (openImages baseHost 1) basePath
    _ hlen newImage _ hopen _ (hrun.mono fun _ _ _ hstep => hstep.1)
  exact ⟨_, hrun, hplaced, hclean newImage_intact.sound, hbounded hrun, hexact 512 [2] (hbounded hrun) (by decide +kernel)⟩

section Overflow

variable {B : Type} {host : Host} {h : Qcow2Header} {n k pos : Nat} {q q' : Qcow2File B}

theorem wp_allocCluster_counted {b : Nat} {blocks : List Nat} (htable : q.refcountTable = b :: blocks) (hb : b ≠ 0)
    (hblock : b + q.header.clusterSize ≤ host.limit)
    (hindex : q.nextAllocOffset / q.header.clusterSize < refcountsPerBlock q.header.clusterSize)
    (hroom : q.nextAllocOffset + q.header.clusterSize ≤ host.limit) :
    (allocCluster host).Wp (fun off q' => off = q.nextAllocOffset ∧
      ∃ file, q' = { q with file := file, nextAllocOffset := q.nextAllocOffset + q.header.clusterSize })
      (fun _ _ => False) q := by
  have hplace : q.nextAllocOffset / q.header.clusterSize / refcountsPerBlock q.header.clusterSize = 0 :=
    Nat.div_eq_of_lt hindex
  have hgrown : growTo q.refcountTable (0 + 1) = q.refcountTable := by
    rw [growTo, htable, List.length_cons, Nat.sub_eq_zero_of_le (by omega), List.replicate_zero, List.append_nil]
  unfold allocCluster
  apply wp_get_bind
  apply wp_get_bind
  apply wp_modifyGet_bind
  apply Wp.bind
  apply wp_setLen
  · intro _
    apply Wp.bind
    unfold setRefcount
    apply wp_get_bind
    dsimp only
    rw [hplace, Nat.mod_eq_of_lt hindex]
    unfold ensureRefcountBlock
    apply Wp.bind
    apply wp_modifyGet_bind
    apply wp_get_bind
    dsimp only
    rw [hgrown, htable, if_neg (by simpa using hb)]
    apply wp_pure
    apply wp_get_bind
    apply Wp.bind
    apply wp_orFail List.getElem?_cons_zero
    apply wp_writeAll
    · rw [beBytes_length]
      unfold refcountsPerBlock at hindex
      omega
    · exact wp_pure ⟨rfl, _, by rw [← htable]; rfl⟩
  · intro hlimit
    omega

/-- `n` clusters are allocated, with one block of reference counts for them, and the first `k` places of the first
level have tables, which are all cached. -/
structure AllCached (host : Host) (h : Qcow2Header) (n k : Nat) (q : Qcow2File B) : Prop where
  header : q.header = h
  backing : q.backing = none
  block : ∃ b blocks, q.refcountTable = b :: blocks ∧ b ≠ 0 ∧ b + h.clusterSize ≤ host.limit
  next : q.nextAllocOffset = n * h.clusterSize
  l1Table : ∀ i, k ≤ i → i < h.l1Size → q.l1Table[i]? = some 0
  tables : tablesOf q.l2Cache = Finset.range k

theorem AllCached.withL2Table (hq : AllCached host h n k q) (off : Nat) :
    AllCached host h n (k + 1) (q.withL2Table k off) := by
  refine ⟨hq.header, hq.backing, hq.block, hq.next, fun i hi hsize => ?_, ?_⟩
  · exact (List.getElem?_set_ne (by omega)).trans (hq.l1Table i (by omega) hsize)
  · rw [Finset.range_add_one, ← hq.tables]
    exact tablesOf_insert _ _ _

variable (hspan : span h ≤ host.limit)

include hspan

theorem room_of_span (hn : n < refcountsPerBlock h.clusterSize) : n * h.clusterSize + h.clusterSize ≤ host.limit := by
  have hle : (n + 1) * h.clusterSize ≤ span h := Nat.mul_le_mul_right h.clusterSize hn
  rw [Nat.succ_mul] at hle
  exact hle.trans hspan

theorem wp_allocCluster_allCached (hn : n < refcountsPerBlock h.clusterSize) (hq : AllCached host h n k q) :
    (allocCluster host).Wp (fun off q' => off = n * h.clusterSize ∧ AllCached host h (n + 1) k q')
      (fun _ _ => False) q := by
  obtain ⟨b, blocks, htable, hb, hblock⟩ := hq.block
  have hindex : n * h.clusterSize / h.clusterSize = n := Nat.mul_div_cancel n (clusterSize_pos h)
  have hroom := room_of_span hspan hn
  apply (wp_allocCluster_counted htable hb ?_ ?_ ?_).mono
  · rintro _ _ ⟨rfl, file, rfl⟩
    refine ⟨hq.next, hq.header, hq.backing, hq.block, ?_, hq.l1Table, hq.tables⟩
    rw [Nat.succ_mul, ← hq.next, ← hq.header]
  · exact fun _ _ hfalse => hfalse
  · rwa [hq.header]
  · rwa [hq.header, hq.next, hindex]
  · rwa [hq.header, hq.next]

theorem wp_writeAll_allCached {m off : Nat} {bs : Bytes} (hm : m < refcountsPerBlock h.clusterSize)
    (hin : off + bs.length ≤ m * h.clusterSize + h.clusterSize) (hq : AllCached host h n k q) :
    (writeAll host off bs).Wp (fun _ q' => AllCached host h n k q') (fun _ _ => False) q :=
  wp_writeAll (hin.trans (room_of_span hspan hm)) ⟨hq.header, hq.backing, hq.block, hq.next, hq.l1Table, hq.tables⟩

theorem wp_setL2Entry_allCached (hn : n < refcountsPerBlock h.clusterSize) (hfits : h.Fits)
    (hq : AllCached host h n k q) (hk : k < h.l1Size) (hpos : l1IndexOf h pos = k) (value : Nat) :
    (setL2Entry host pos value).Wp (fun _ q' => AllCached host h (n + 1) (k + 1) q') (fun _ _ => False) q := by
  have hmod : k % 2 ^ 32 = k := Nat.mod_eq_of_lt (hk.trans hfits.l1Size)
  unfold setL2Entry
  apply wp_get_bind
  dsimp only
  rw [hq.header, hpos, hmod]
  apply Wp.bind
  apply wp_orFail (hq.l1Table k (Nat.le_refl k) hk)
  refine Wp.seq (Q := fun _ q' => ∃ q₁ off, q' = withL2Table q₁ k off ∧ AllCached host h (n + 1) k q₁) ?_ ?_
  · unfold ensureL2Table newL2Table
    rw [if_pos (Nat.zero_and _), hmod]
    apply Wp.seq (wp_allocCluster_allCached hspan hn hq)
    rintro off q₁ ⟨-, hq₁⟩
    apply wp_modifyGet
    exact ⟨q₁, off, rfl, hq₁⟩
  · rintro _ _ ⟨q₁, off, rfl, hq₁⟩
    have hq₂ := hq₁.withL2Table off
    have hindex : l2IndexOf h pos < (List.replicate q₁.header.l2EntriesPerTable 0).length := by
      rw [List.length_replicate, hq₁.header]
      exact Nat.mod_lt _ (l2EntriesPerTable_pos hfits)
    unfold updateL2Entry
    apply wp_get_bind
    apply Wp.bind
    apply wp_orFail withL2Table_lookup_self
    rw [if_pos hindex]
    apply wp_modifyGet
    refine ⟨hq₂.header, hq₂.backing, hq₂.block, hq₂.next, hq₂.l1Table, ?_⟩
    rw [tablesOf_insert, hq₂.tables, Finset.insert_eq_of_mem (Finset.self_mem_range_succ k)]

section Write

variable [Backing B]

theorem wp_fillCluster_allCached {m : Nat} (hm : m < refcountsPerBlock h.clusterSize) (hq : AllCached host h n k q)
    (len : Nat) :
    (fillCluster host h.clusterBits pos len (m * h.clusterSize)).Wp (fun _ q' => AllCached host h n k q')
      (fun _ _ => False) q := by
  unfold fillCluster
  split
  · unfold readBacking
    apply Wp.bind
    apply wp_get_bind
    rw [hq.backing]
    apply wp_pure
    apply wp_writeAll_allCached hspan hm _ hq
    rw [List.length_replicate]
    exact Nat.le_refl _
  · exact wp_pure hq

theorem wp_writeAt_allCached (hn : n + 1 < refcountsPerBlock h.clusterSize) (hfits : h.Fits)
    (hq : AllCached host h n k q) (hk : k < h.l1Size) (hpos : l1IndexOf h pos = k) (hsize : pos < h.size) (x : UInt8) :
    (writeAt host pos [x]).Wp (fun _ q' => AllCached host h (n + 2) (k + 1) q') (fun _ _ => False) q := by
  have hentry := hq.l1Table k (Nat.le_refl k) hk
  have htranslate : (translateCluster host pos).exec q = (.ok none, q) := by
    apply translateCluster_none
    · rwa [hq.header, hpos]
    · rw [hq.header]
      exact hfits.l1Size
    · rwa [hq.header, hpos]
  have hwrite : (writeChunk host h.clusterBits pos [x]).Wp (fun _ q' => AllCached host h (n + 2) (k + 1) q')
      (fun _ _ => False) q := by
    unfold writeChunk clusterForWrite
    apply Wp.bind
    apply Wp.bind
    apply wp_of_exec htranslate
    apply Wp.seq (wp_allocCluster_allCached hspan (by omega) hq)
    rintro _ q₁ ⟨rfl, hq₁⟩
    apply Wp.seq (wp_fillCluster_allCached hspan (by omega) hq₁ _)
    intro _ q₂ hq₂
    apply Wp.seq (wp_setL2Entry_allCached hspan hn hfits hq₂ hk hpos _)
    intro _ q₃ hq₃
    apply wp_pure
    apply wp_writeAll_allCached (m := n) hspan (by omega) _ hq₃
    have hlt : pos % 2 ^ h.clusterBits < h.clusterSize := Nat.mod_lt _ (Nat.two_pow_pos _)
    rw [List.length_singleton]
    omega
  have hfit : h.size < 2 ^ 64 := hfits.size
  unfold writeAt
  apply wp_get_bind
  dsimp only
  rw [hq.header, List.length_singleton, if_neg (by omega), if_pos (Nat.succ_le_of_lt hsize)]
  unfold writeLoop
  rw [dif_pos (show 0 < [x].length from Nat.zero_lt_one), List.length_singleton, chunkLen_one]
  apply Wp.seq hwrite
  intro _ q' hq'
  unfold writeLoop
  exact wp_pure hq'

theorem allCached_run (hfits : h.Fits) (hq : AllCached host h n 0 q) {m : Nat} (hm : m ≤ h.l1Size)
    (hn : n + m * 2 ≤ refcountsPerBlock h.clusterSize) (hsize : m * (h.l2EntriesPerTable * h.clusterSize) ≤ h.size) :
    ∃ q', Steps (fun q (op : Op) q' => op.apply host q = q') q
      ((List.range m).map fun k => .writeAt (k * (h.l2EntriesPerTable * h.clusterSize)) [1]) q' ∧
        AllCached host h (n + m * 2) m q' := by
  have hpos : 0 < h.l2EntriesPerTable * h.clusterSize := Nat.mul_pos (l2EntriesPerTable_pos hfits) (clusterSize_pos h)
  induction m with
  | zero => exact ⟨q, .nil q, hq⟩
  | succ m ih =>
    rw [Nat.succ_mul] at hsize
    obtain ⟨q₁, hrun, hq₁⟩ := ih (by omega) (by omega) (by omega)
    have hindex : l1IndexOf h (m * (h.l2EntriesPerTable * h.clusterSize)) = m := by
      rw [l1IndexOf, Nat.div_div_eq_div_mul, Nat.mul_comm h.clusterSize, Nat.mul_div_cancel _ hpos]
    have hwrite : (writeAt host (m * (h.l2EntriesPerTable * h.clusterSize)) [1]).Ends
        (AllCached host h (n + (m + 1) * 2) (m + 1)) (fun _ => True) q₁ :=
      (wp_writeAt_allCached hspan (by omega) hfits hq₁ hm hindex (by omega) 1).mono
        (fun _ _ hq' => ⟨by rwa [Nat.succ_mul, ← Nat.add_assoc], trivial⟩) fun _ _ hfalse => hfalse.elim
    refine ⟨_, ?_, hwrite.state⟩
    rw [List.range_succ, List.map_append]
    exact hrun.append (.cons rfl (.nil _))

end Write

end Overflow

section Create

variable {B : Type} {host : Host} {openBacking : PathBuf → Except Qcow2Error B} {path : PathBuf} {v b n : Nat}
  {q : Qcow2File B}

theorem allCached_create (hlimit : host.limit ≤ 2 ^ 54) (hfit : SizesFit v b) (hblocks : RoomForBlocks v b)
    (hcreate : create v b host openBacking path none = .ok q) (hbacking : q.backing = none)
    (hnext : q.nextAllocOffset = n * q.header.clusterSize) : AllCached host q.header n 0 q := by
  obtain ⟨hv, hcreated⟩ := created_of_sizesFit hfit hcreate
  have hintact := intact_create hlimit hfit hblocks hcreate
  have hzero := create_l1Zero hfit hcreate hblocks
  refine ⟨rfl, hbacking, ?_, hnext, fun i _ hi => ?_, by rw [hcreated.l2Cache]; rfl⟩
  · have hmeta : 0 < createMetaClusters v b := by
      unfold createMetaClusters
      omega
    obtain ⟨hne, -⟩ := hcreated.counted ((roomForBlocks_iff hcreated.bits hfit).mp hblocks) hmeta
    rw [tableIndex_mul, Nat.zero_div] at hne
    have hin := hintact.sound.placed.inside (place_refcountBlock.mpr ⟨hne, rfl⟩)
    have hle := hin.trans hintact.sound.lenLimit
    unfold block at hne hle
    cases htable : q.refcountTable with
    | nil =>
      rw [htable] at hne
      exact absurd rfl hne
    | cons b blocks =>
      rw [htable] at hne hle
      exact ⟨b, blocks, rfl, hne, hle⟩
  · have hlength : i < q.l1Table.length := by rwa [hintact.sound.l1Length]
    rw [List.getElem?_eq_getElem hlength, hzero _ (List.getElem_mem _)]

end Create

theorem l2Cache_coherent_fails : ∃ q q' : Qcow2File (Images 1),
    create (257 * 2 ^ 29) 16 baseHost (openImages baseHost 1) basePath none = .ok q ∧ Intact baseHost q ∧
      Steps (fun q (op : Op) q' => op.apply baseHost q = q') q
        ((List.range 257).map fun k => .writeAt (k * 2 ^ 29) [1]) q' ∧ ¬ q'.Bounded := by
  have hfit : SizesFit (257 * 2 ^ 29) 16 := ⟨by decide, by decide⟩
  have hblocks : RoomForBlocks (257 * 2 ^ 29) 16 := by
    change _ ≤ _
    decide
  have hlen : (createFile (257 * 2 ^ 29) 16 none).len = 4 * 2 ^ 16 := by decide
  obtain ⟨q, hcreate, hbacking⟩ : ∃ q : Qcow2File (Images 1),
      create (257 * 2 ^ 29) 16 baseHost (openImages baseHost 1) basePath none = .ok q ∧ q.backing = none :=
    ⟨_, create_alone (by decide) (by decide) (by decide) (by rw [hlen]; decide), rfl⟩
  obtain ⟨-, hcreated⟩ := created_of_sizesFit hfit hcreate
  have hintact := intact_create (by decide) hfit hblocks hcreate
  have hcs : q.header.clusterSize = 2 ^ 16 := hcreated.clusterSize_eq
  have hstep : q.header.l2EntriesPerTable * q.header.clusterSize = 2 ^ 29 := by
    rw [Qcow2Header.l2EntriesPerTable, hcs]
    decide
  have hl1 : q.header.l1Size = 257 := by
    rw [hcreated.header]
    decide
  have hnext : q.nextAllocOffset = 4 * q.header.clusterSize := by
    rw [hcreated.nextAllocOffset, hcreated.file, hlen, hcs]
    decide
  have hq := allCached_create (by decide) hfit hblocks hcreate hbacking hnext
  have hspan : span q.header ≤ baseHost.limit := by
    rw [span, hcs]
    decide
  obtain ⟨q', hrun, hq'⟩ := allCached_run hspan hintact.sound.fits hq hl1.ge (by rw [hcs]; decide)
    (by rw [hstep, hcreated.size_eq])
  rw [hstep] at hrun
  refine ⟨q, q', hcreate, hintact, hrun, ?_⟩
  rw [Bounded, ← card_tablesOf, hq'.tables, Finset.card_range]
  decide

end Qcow2File

end CloneVmm.Storage
