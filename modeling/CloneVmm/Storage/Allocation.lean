import CloneVmm.Storage.Layout

namespace CloneVmm.Storage

open CloneVmm.Lib CloneVmm.Lib.Prog

namespace Qcow2File

variable {B : Type} {host : Host} {rs rs' : List Nat} {q q' q'' : Qcow2File B}

section Wp

variable {α : Type} {Q : Unit → Qcow2File B → Prop} {E : Qcow2Error → Qcow2File B → Prop}

theorem wp_setLen {n : Nat} (hok : n ≤ host.limit → Q () { q with file := q.file.setLen n })
    (hrefused : host.limit < n → E .refused q) : (setLen host n).Wp Q E q := by
  unfold setLen
  split
  · exact wp_modifyGet (hok ‹_›)
  · exact wp_throw (hrefused (by omega))

theorem wp_writeAll {off : Nat} {bs : Bytes} (hle : off + bs.length ≤ host.limit)
    (h : Q () (q.wrote off bs)) : (writeAll host off bs).Wp Q E q := by
  rw [writeAll, if_pos hle]
  exact wp_modifyGet h

theorem wp_orFail {Q : α → Qcow2File B → Prop} {e : Qcow2Error} {o : Option α} {a : α} (ho : o = some a) (h : Q a q) :
    (orFail e o).Wp Q E q := by
  rw [ho]
  exact wp_pure h

end Wp

structure Grown (rs : List Nat) (q q' : Qcow2File B) : Prop extends Frame (fun o => o.isBlock = false) rs q q' where
  l2Cache : q'.l2Cache = q.l2Cache
  next : q.nextAllocOffset ≤ q'.nextAllocOffset
  blocks : ∀ i, q.block i ≠ 0 → q'.block i = q.block i

namespace Grown

theorem refl (rs : List Nat) (q : Qcow2File B) : Grown rs q q :=
  ⟨.of_data rfl rfl rfl rfl rfl, rfl, Nat.le_refl _, fun _ _ => rfl⟩

theorem trans (h : Grown rs q q') (h' : Grown rs q' q'') : Grown rs q q'' where
  toFrame := h.toFrame.trans h'.toFrame fun _ ho => h.toFrame.place ho
  l2Cache := h'.l2Cache.trans h.l2Cache
  next := h.next.trans h'.next
  blocks i hi := by
    have hi' : q'.block i ≠ 0 := by rwa [h.blocks i hi]
    rw [h'.blocks i hi', h.blocks i hi]

end Grown

namespace Sound

theorem of_data (h : Sound host rs q) (hheader : q'.header = q.header) (hl1 : q'.l1Table = q.l1Table)
    (hcache : q'.l2Cache = q.l2Cache) (hdata : q'.file.data = q.file.data) (hlen : q.file.len ≤ q'.file.len)
    (hblocks : ∀ i, q.block i ≠ 0 → q'.block i = q.block i)
    (hplaced : Placed q.header.clusterSize q'.file.len (q'.place rs')) (hlenLe : q'.file.len ≤ q'.nextAllocOffset)
    (hnext : q.header.clusterSize ∣ q'.nextAllocOffset) (hlimit : q'.file.len ≤ host.limit) : Sound host rs' q' := by
  have hoffset : q'.l2Offset = q.l2Offset := by
    funext i
    rw [l2Offset, l2Offset, hl1]
  have hview : q'.l2View = q.l2View := by
    funext i off
    rw [l2View, l2View, hcache, hdata, hheader]
  have hstored : q'.storedTable = q.storedTable := by rw [storedTable, storedTable, hdata, hheader]
  refine ⟨?_, ?_, ?_, ?_, ?_, ?_, ?_, ?_, ?_, ?_, hlenLe, ?_, hlimit⟩
  · rw [hheader]
    exact h.fits
  · rw [hheader]
    exact h.readFrom_eq hlen fun k _ => by rw [hdata]
  · rw [hl1, hheader]
    exact h.l1Length
  · rw [hl1, hheader]
    exact h.l1Good
  · rw [hoffset, hview, hheader]
    exact h.l2Good
  · unfold Cached
    rw [hoffset, hcache, hdata, hheader]
    exact h.cached
  · rw [hheader]
    exact h.l1Inside.trans hlen
  · rw [hheader]
    exact h.tableInside.trans hlen
  · intro i
    rw [hstored]
    rcases h.stored i with hi | hi
    · exact Or.inl hi
    · by_cases hzero : q.block i = 0
      · exact Or.inl (hi.trans hzero)
      · exact Or.inr (hi.trans (hblocks i hzero).symm)
  · rw [hheader]
    exact hplaced
  · rw [hheader]
    exact hnext

theorem reserved_ne_zero {off : Nat} (h : Sound host (rs ++ [off]) q) : off ≠ 0 := by
  rintro rfl
  have := h.placed.unique (o := .header) rfl (place_snoc_last (q := q))
  cases this

theorem forget (h : Sound host (rs ++ rs') q) : Sound host rs q := by
  refine h.of_data rfl rfl rfl rfl (Nat.le_refl _) (fun _ _ => rfl) ?_ h.lenLe h.nextAligned h.lenLimit
  apply h.placed.of_embedding id Function.injective_id
  intro o off ho
  rw [id, place_append, ho]
  rintro i rfl
  exact (List.getElem?_eq_some_iff.mp ho).1

theorem bump (h : Sound host rs q) {n : Nat} (hn : q.nextAllocOffset ≤ n) (hdvd : q.header.clusterSize ∣ n) :
    Sound host rs { q with nextAllocOffset := n } :=
  h.of_data rfl rfl rfl rfl (Nat.le_refl _) (fun _ _ => rfl) h.placed (h.lenLe.trans hn) hdvd h.lenLimit

end Sound

def extended (q : Qcow2File B) (n : Nat) : Qcow2File B := { q with nextAllocOffset := n, file := q.file.setLen n }

def newClusters (q : Qcow2File B) (m : Nat) : List Nat :=
  (List.range m).map fun i => q.nextAllocOffset + i * q.header.clusterSize

theorem newClusters_getElem? (q : Qcow2File B) {m i : Nat} {off : Nat} :
    (q.newClusters m)[i]? = some off ↔ i < m ∧ q.nextAllocOffset + i * q.header.clusterSize = off := by
  simp only [newClusters, List.getElem?_map, Option.map_eq_some_iff, List.getElem?_eq_some_iff, List.length_range,
    List.getElem_range]
  constructor
  · rintro ⟨k, ⟨hlt, rfl⟩, hoff⟩
    exact ⟨hlt, hoff⟩
  · rintro ⟨hlt, hoff⟩
    exact ⟨i, ⟨hlt, rfl⟩, hoff⟩

namespace Sound

theorem extended_data (h : Sound host rs q) {n : Nat} (hn : q.nextAllocOffset ≤ n) :
    (q.extended n).file.data = q.file.data := q.file.setLen_data (h.lenLe.trans hn)

theorem extend (h : Sound host rs q) (m : Nat) (hlimit : q.nextAllocOffset + m * q.header.clusterSize ≤ host.limit) :
    Sound host (rs ++ q.newClusters m) (q.extended (q.nextAllocOffset + m * q.header.clusterSize)) := by
  have hdata := h.extended_data (Nat.le_add_right q.nextAllocOffset (m * q.header.clusterSize))
  refine h.of_data rfl rfl rfl hdata (h.lenLe.trans (Nat.le_add_right _ _)) (fun _ _ => rfl) ?_ ?_ ?_ ?_
  · apply h.placed.append (N := fun o => ∃ i, o = .reserved i ∧ rs.length ≤ i) (clusterSize_pos _)
      (h.lenLe.trans (Nat.le_add_right _ _))
    · intro o ho
      have hframe : Frame (fun _ => True) rs q (q.extended (q.nextAllocOffset + m * q.header.clusterSize)) :=
        .of_data rfl rfl rfl rfl hdata
      rw [place_append fun i hi => Nat.lt_of_not_le fun hle => ho ⟨i, hi, hle⟩]
      exact congrFun (hframe.place_eq rfl) o
    · rintro o off ⟨i, rfl, hi⟩ hoff
      simp only [place, List.getElem?_append_right hi, newClusters_getElem?] at hoff
      obtain ⟨hlt, rfl⟩ := hoff
      have hle := h.lenLe
      refine ⟨Nat.dvd_add h.nextAligned (Nat.dvd_mul_left _ _), by omega, ?_⟩
      calc q.nextAllocOffset + (i - rs.length) * q.header.clusterSize + q.header.clusterSize
          = q.nextAllocOffset + (i - rs.length + 1) * q.header.clusterSize := by ring
        _ ≤ q.nextAllocOffset + m * q.header.clusterSize := by gcongr; omega
    · rintro o o' off ⟨i, rfl, hi⟩ ⟨i', rfl, hi'⟩ hoff hoff'
      simp only [place, List.getElem?_append_right hi, newClusters_getElem?] at hoff
      simp only [place, List.getElem?_append_right hi', newClusters_getElem?] at hoff'
      have heq : i - rs.length = i' - rs.length := by
        apply Nat.eq_of_mul_eq_mul_right (clusterSize_pos q.header)
        omega
      congr 1
      omega
  · exact Nat.le_refl _
  · exact Nat.dvd_add h.nextAligned (Nat.dvd_mul_left _ _)
  · exact hlimit

end Sound

theorem growTo_length (table : List Nat) (n : Nat) : (growTo table n).length = max table.length n := by
  simp only [growTo, List.length_append, List.length_replicate]
  omega

theorem growTo_getD (table : List Nat) (n i : Nat) : (growTo table n).getD i 0 = table.getD i 0 := by
  unfold growTo
  simp only [List.getD_eq_getElem?_getD]
  rcases Nat.lt_or_ge i table.length with hi | hi
  · rw [List.getElem?_append_left hi]
  · rw [List.getElem?_append_right hi, List.getElem?_eq_none hi, List.getElem?_replicate]
    split
    · rfl
    · rfl

def tableIndex (q : Qcow2File B) (off : Nat) : Nat :=
  off / q.header.clusterSize / refcountsPerBlock q.header.clusterSize

def entryAt (q : Qcow2File B) (off : Nat) : Nat :=
  q.block (q.tableIndex off) + off / q.header.clusterSize % refcountsPerBlock q.header.clusterSize * 2

def Counted (q : Qcow2File B) (off : Nat) : Prop :=
  q.block (q.tableIndex off) ≠ 0 ∧ beNat (readBytes q.file.data (q.entryAt off) 2) = 1

/-- The block `j` is there afterwards: it was there, or it is allocated at the end of the file. -/
structure HasBlock (rs : List Nat) (j : Nat) (q q' : Qcow2File B) : Prop extends Grown rs q q' where
  length : q'.refcountTable.length = max q.refcountTable.length (j + 1)
  there : q.block j ≠ 0 → q'.nextAllocOffset = q.nextAllocOffset
  fresh : q.block j = 0 → q'.block j = q.nextAllocOffset ∧
    q'.nextAllocOffset = q.nextAllocOffset + q.header.clusterSize
  others : ∀ i, i ≠ j → q'.block i = q.block i
  counts : ∀ off, q.Counted off → q'.Counted off

/-- A new block is counted if it covers its own cluster. -/
structure Marked (rs : List Nat) (j : Nat) (q q' : Qcow2File B) : Prop extends HasBlock rs j q q' where
  counted : q.block j = 0 → q.tableIndex q.nextAllocOffset = j → q'.Counted q.nextAllocOffset

theorem HasBlock.next_le {j : Nat} (h : HasBlock rs j q q') : q'.nextAllocOffset ≤ q.nextAllocOffset + q.header.clusterSize := by
  by_cases hzero : q.block j = 0
  · rw [(h.fresh hzero).2]
  · rw [h.there hzero]
    exact Nat.le_add_right _ _

structure Refused (host : Host) (rs : List Nat) (n : Nat) (q : Qcow2File B) (e : Qcow2Error) (q' : Qcow2File B) : Prop
    extends Grown rs q q' where
  refused : e = .refused
  sound : Sound host rs q'
  length : q'.refcountTable.length = max q.refcountTable.length n
  limit : host.limit < q'.nextAllocOffset
  counts : ∀ off, q.Counted off → q'.Counted off
  missing : ∀ j, n = j + 1 → q.block j = 0
  short : host.limit < q.nextAllocOffset + q.header.clusterSize
  same : ∀ i, q'.block i = q.block i

section RefcountBlock

variable {j : Nat}

theorem refcountsPerBlock_mul {h : Qcow2Header} (hh : h.Fits) : refcountsPerBlock h.clusterSize * 2 = h.clusterSize := by
  obtain ⟨k, hk⟩ := dvd_clusterSize hh
  unfold refcountsPerBlock
  omega

theorem entry_fits {h : Qcow2Header} (hh : h.Fits) (index : Nat) :
    index % refcountsPerBlock h.clusterSize * 2 + 2 ≤ h.clusterSize := by
  have hmul := refcountsPerBlock_mul hh
  have hcs := clusterSize_pos h
  have hlt := Nat.mod_lt index (show 0 < refcountsPerBlock h.clusterSize by omega)
  omega

theorem Sound.writeEntry (h : Sound host rs q) {b : Nat} (hb : q.block j = b) (hne : b ≠ 0) (index : Nat) {bs : Bytes}
    (hbs : bs.length = 2) :
    b + index % refcountsPerBlock q.header.clusterSize * 2 + bs.length ≤ q.file.len ∧
      Sound host rs (q.wrote (b + index % refcountsPerBlock q.header.clusterSize * 2) bs) ∧
      Quiet (· ≠ .refcountBlock j) rs q (q.wrote (b + index % refcountsPerBlock q.header.clusterSize * 2) bs) := by
  subst hb
  have hfits := entry_fits h.fits index
  have hplace : q.place rs (.refcountBlock j) = some (q.block j) := if_neg hne
  have hlen : q.block j + index % refcountsPerBlock q.header.clusterSize * 2 + bs.length ≤ q.file.len := by
    have := h.placed.inside hplace
    omega
  refine ⟨hlen, h.write (P := (· = .refcountBlock j)) _ bs ?_ (by simp) (by simp) (by simp) hlen⟩
  intro p hlo hhi
  exact ⟨_, _, rfl, hplace, by omega, by omega⟩

theorem HasBlock.quiet (h : HasBlock rs j q q') (hquiet : Quiet (· ≠ .refcountBlock j) rs q' q'')
    (hcache : q''.l2Cache = q'.l2Cache) (hcounts : ∀ off, q'.Counted off → q''.Counted off) : HasBlock rs j q q'' := by
  have hblock : ∀ i, q''.block i = q'.block i := fun i => by rw [block, block, hquiet.refcountTable]
  refine ⟨⟨h.toFrame.trans (hquiet.toFrame.weaken ?_) fun _ ho => h.toFrame.place ho, hcache.trans h.l2Cache, ?_, ?_⟩,
    ?_, ?_, ?_, ?_, fun off hoff => hcounts off (h.counts off hoff)⟩
  · rintro o ho rfl
    cases ho
  · rw [hquiet.nextAllocOffset]
    exact h.next
  · intro i hi
    rw [hblock, h.blocks i hi]
  · rw [hquiet.refcountTable, h.length]
  · intro hne
    rw [hquiet.nextAllocOffset, h.there hne]
  · intro hzero
    rw [hblock, hquiet.nextAllocOffset]
    exact h.fresh hzero
  · intro i hi
    rw [hblock, h.others i hi]

theorem Counted.congr {off : Nat} (h : q.Counted off) (hheader : q'.header = q.header)
    (hblock : q'.block (q.tableIndex off) = q.block (q.tableIndex off))
    (hbytes : ∀ k, k < 2 → q'.file.data (q.entryAt off + k) = q.file.data (q.entryAt off + k)) : q'.Counted off := by
  have hindex : q'.tableIndex off = q.tableIndex off := by rw [tableIndex, tableIndex, hheader]
  have hentry : q'.entryAt off = q.entryAt off := by rw [entryAt, entryAt, hindex, hblock, hheader]
  refine ⟨by rw [hindex, hblock]; exact h.1, ?_⟩
  have hread : readBytes q'.file.data (q.entryAt off) 2 = readBytes q.file.data (q.entryAt off) 2 := by
    apply readBytes_congr
    intro p hlo hhi
    obtain ⟨k, rfl⟩ := Nat.exists_eq_add_of_le hlo
    exact hbytes k (by omega)
  rw [hentry, hread, h.2]

theorem Counted.of_frame {P : Owner → Prop} {off : Nat} (h : q.Counted off) (hfits : q.header.Fits)
    (hframe : Frame P rs q q') (hP : P (.refcountBlock (q.tableIndex off)))
    (hblock : q'.block (q.tableIndex off) = q.block (q.tableIndex off)) : q'.Counted off := by
  refine h.congr hframe.header hblock fun k hk => ?_
  have hin := entry_fits hfits (off / q.header.clusterSize)
  rw [entryAt, Nat.add_assoc]
  exact hframe.bytes (.refcountBlock _) _ (if_neg h.1) hP _ (by omega)

theorem Sound.counted_wrote (h : Sound host rs q) (off : Nat) (hne : q.block (q.tableIndex off) ≠ 0) :
    (q.wrote (q.entryAt off) (beBytes 2 1)).Counted off ∧
      ∀ off', q.Counted off' → (q.wrote (q.entryAt off) (beBytes 2 1)).Counted off' := by
  have hlen := beBytes_length 2 1
  have hself : beNat (readBytes (writeBytes q.file.data (q.entryAt off) (beBytes 2 1)) (q.entryAt off) 2) = 1 := by
    have hread := readBytes_writeBytes q.file.data (q.entryAt off) (beBytes 2 1)
    rw [hlen] at hread
    rw [hread]
    decide
  refine ⟨⟨hne, hself⟩, fun off' hoff' => ?_⟩
  by_cases hindex : q.tableIndex off' = q.tableIndex off
  · by_cases hmod : off' / q.header.clusterSize % refcountsPerBlock q.header.clusterSize =
        off / q.header.clusterSize % refcountsPerBlock q.header.clusterSize
    · have hentry : q.entryAt off' = q.entryAt off := by rw [entryAt, entryAt, hindex, hmod]
      refine ⟨hoff'.1, ?_⟩
      change beNat (readBytes (writeBytes q.file.data (q.entryAt off) (beBytes 2 1)) (q.entryAt off') 2) = 1
      rw [hentry, hself]
    · refine hoff'.congr ?_ ?_ fun k hk => ?_
      · rfl
      · rfl
      · apply writeBytes_outside
        rw [hlen, entryAt, entryAt, hindex]
        omega
  · obtain ⟨-, -, hquiet⟩ := h.writeEntry rfl hne (off / q.header.clusterSize) hlen
    exact hoff'.of_frame h.fits hquiet.toFrame (by simpa using hindex) rfl

def withBlock (q : Qcow2File B) (j : Nat) : Qcow2File B :=
  { q.extended (q.nextAllocOffset + q.header.clusterSize) with
    refcountTable := q.refcountTable.set j q.nextAllocOffset }

theorem withBlock_block_self (hj : j < q.refcountTable.length) : (q.withBlock j).block j = q.nextAllocOffset := by
  simp only [withBlock, block, List.getD_eq_getElem?_getD, List.getElem?_set_self hj, Option.getD_some]

theorem withBlock_block_ne {i : Nat} (hi : i ≠ j) : (q.withBlock j).block i = q.block i := by
  simp only [withBlock, block, List.getD_eq_getElem?_getD, List.getElem?_set_ne (Ne.symm hi)]

theorem Sound.withBlock (h : Sound host rs q) (hj : j < q.refcountTable.length) (hzero : q.block j = 0)
    (hlimit : q.nextAllocOffset + q.header.clusterSize ≤ host.limit) :
    q.nextAllocOffset ≠ 0 ∧ Sound host rs (q.withBlock j) ∧ HasBlock rs j q (q.withBlock j) := by
  have hextend := h.extend 1 (by rwa [Nat.one_mul])
  have hdata := h.extended_data (Nat.le_add_right q.nextAllocOffset q.header.clusterSize)
  rw [Nat.one_mul, show q.newClusters 1 = [q.nextAllocOffset] by simp [newClusters]] at hextend
  have hne := hextend.reserved_ne_zero
  have hblocks : ∀ i, q.block i ≠ 0 → (q.withBlock j).block i = q.block i := by
    intro i hi
    apply withBlock_block_ne
    rintro rfl
    exact hi hzero
  refine ⟨hne, ?_, ?_⟩
  · refine hextend.of_data rfl rfl rfl rfl (Nat.le_refl _) hblocks ?_ hextend.lenLe hextend.nextAligned hextend.lenLimit
    apply hextend.placed.hand (o := .refcountBlock j) (r := .reserved rs.length)
    · rw [place_snoc_last, place, withBlock_block_self hj, if_neg hne]
    · exact place_reserved_none
    · intro o ho hr
      rw [place_snoc hr]
      cases o with
      | refcountBlock i =>
        have hi : i ≠ j := fun heq => ho (by rw [heq])
        rw [place, withBlock_block_ne hi]
        rfl
      | header | l1 i | refcountTable i | l2 i | data g | reserved i => rfl
  · refine ⟨⟨.of_data rfl rfl rfl rfl hdata, rfl, Nat.le_add_right _ _, hblocks⟩, ?_, ?_, ?_, ?_, ?_⟩
    · have hlen : (q.withBlock j).refcountTable.length = q.refcountTable.length := List.length_set
      rw [hlen]
      omega
    · exact fun hnot => absurd hzero hnot
    · exact fun _ => ⟨withBlock_block_self hj, rfl⟩
    · exact fun i hi => withBlock_block_ne hi
    · exact fun off hoff => hoff.congr rfl (hblocks _ hoff.1) fun k _ => congrFun hdata _

theorem wp_allocRefcountBlock (h : Sound host rs q) (hj : j < q.refcountTable.length) (hzero : q.block j = 0) :
    (allocRefcountBlock host j).Wp (fun _ q' => Sound host rs q' ∧ Marked rs j q q') (Refused host rs (j + 1) q) q := by
  unfold allocRefcountBlock
  apply wp_get_bind
  apply wp_get_bind
  apply wp_modifyGet_bind
  apply Wp.bind
  apply wp_setLen
  · intro hlimit
    obtain ⟨hne, hsound, hmarked⟩ := h.withBlock hj hzero hlimit
    apply wp_modifyGet_bind
    change Wp (if _ then _ else _) _ _ (q.withBlock j)
    split
    · rename_i hself
      have hblock := withBlock_block_self hj
      obtain ⟨hlen, hsound', hquiet⟩ := hsound.writeEntry hblock hne
        (q.nextAllocOffset / q.header.clusterSize) (beBytes_length 2 1)
      have hindex : (q.withBlock j).tableIndex q.nextAllocOffset = j := hself
      obtain ⟨hcounted, hcounts⟩ := hsound.counted_wrote q.nextAllocOffset (by rwa [hindex, hblock])
      have hentry : (q.withBlock j).entryAt q.nextAllocOffset =
          q.nextAllocOffset + q.nextAllocOffset / q.header.clusterSize % refcountsPerBlock q.header.clusterSize * 2 := by
        rw [entryAt, hindex, hblock]
        rfl
      rw [hentry] at hcounted hcounts
      exact wp_writeAll (hlen.trans hsound.lenLimit)
        ⟨hsound', hmarked.quiet hquiet rfl hcounts, fun _ _ => hcounted⟩
    · rename_i hself
      exact wp_pure ⟨hsound, hmarked, fun _ hindex => absurd hindex hself⟩
  · intro hlimit
    have hle := Nat.le_add_right q.nextAllocOffset q.header.clusterSize
    refine ⟨⟨.of_data rfl rfl rfl rfl rfl, rfl, hle, fun _ _ => rfl⟩, rfl, ?_, ?_, hlimit, fun _ hoff => hoff, ?_,
      hlimit, fun _ => rfl⟩
    · exact h.bump hle (Nat.dvd_add h.nextAligned (Nat.dvd_refl _))
    · dsimp only
      omega
    · rintro _ ⟨⟩
      exact hzero

def withTable (q : Qcow2File B) (n : Nat) : Qcow2File B := { q with refcountTable := growTo q.refcountTable n }

theorem withTable_block (q : Qcow2File B) (n i : Nat) : (q.withTable n).block i = q.block i :=
  growTo_getD q.refcountTable n i

theorem withTable_length (q : Qcow2File B) (n : Nat) :
    (q.withTable n).refcountTable.length = max q.refcountTable.length n := growTo_length q.refcountTable n

theorem Grown.withTable (rs : List Nat) (q : Qcow2File B) (n : Nat) : Grown rs q (q.withTable n) :=
  ⟨.of_data rfl rfl rfl rfl rfl, rfl, Nat.le_refl _, fun i _ => withTable_block q n i⟩

theorem Sound.withTable (h : Sound host rs q) (n : Nat) : Sound host rs (q.withTable n) := by
  refine h.of_data rfl rfl rfl rfl (Nat.le_refl _) (fun i _ => withTable_block q n i) ?_ h.lenLe h.nextAligned h.lenLimit
  have hplace : (q.withTable n).place rs = q.place rs := by
    funext o
    cases o with
    | refcountBlock i => rw [place, place, withTable_block]
    | header | l1 i | refcountTable i | l2 i | data g | reserved i => rfl
  rw [hplace]
  exact h.placed

theorem counted_withTable (n : Nat) {off : Nat} (h : q.Counted off) : (q.withTable n).Counted off :=
  h.congr rfl (withTable_block q n _) fun _ _ => rfl

theorem Marked.of_withTable (h : Marked rs j (q.withTable (j + 1)) q') : Marked rs j q q' where
  toGrown := (Grown.withTable rs q (j + 1)).trans h.toGrown
  length := by
    rw [h.length, withTable_length]
    omega
  there hne := h.there (by rwa [withTable_block])
  fresh hzero := h.fresh (by rwa [withTable_block])
  others i hi := (h.others i hi).trans (withTable_block q _ i)
  counts off hoff := h.counts off (counted_withTable _ hoff)
  counted hzero := h.counted (by rwa [withTable_block])

theorem Refused.of_withTable {n : Nat} {e : Qcow2Error} (h : Refused host rs n (q.withTable n) e q') :
    Refused host rs n q e q' where
  toGrown := (Grown.withTable rs q n).trans h.toGrown
  refused := h.refused
  sound := h.sound
  length := by
    rw [h.length, withTable_length]
    omega
  limit := h.limit
  counts off hoff := h.counts off (counted_withTable _ hoff)
  missing j hj := (withTable_block q n j).symm.trans (h.missing j hj)
  short := h.short
  same i := (h.same i).trans (withTable_block q n i)

theorem getElem?_eq_block (hj : j < q.refcountTable.length) : q.refcountTable[j]? = some (q.block j) := by
  rw [block, List.getD_eq_getElem?_getD, List.getElem?_eq_getElem hj, Option.getD_some]

theorem wp_ensureRefcountBlock (h : Sound host rs q) (j : Nat) :
    (ensureRefcountBlock host j).Wp (fun _ q' => Sound host rs q' ∧ Marked rs j q q') (Refused host rs (j + 1) q) q := by
  have hj : j < (q.withTable (j + 1)).refcountTable.length := by
    rw [withTable_length]
    omega
  have hsound := h.withTable (j + 1)
  unfold ensureRefcountBlock
  apply wp_modifyGet_bind
  apply wp_get_bind
  change Wp (if (q.withTable (j + 1)).refcountTable[j]? = some 0 then _ else _) _ _ (q.withTable (j + 1))
  rw [getElem?_eq_block hj]
  split
  · rename_i hzero
    apply (wp_allocRefcountBlock hsound hj (Option.some.inj hzero)).mono
    · exact fun _ q' hq' => ⟨hq'.1, hq'.2.of_withTable⟩
    · exact fun _ q' hq' => hq'.of_withTable
  · rename_i hne
    have hne' : q.block j ≠ 0 := by
      intro hzero
      rw [withTable_block, hzero] at hne
      exact hne rfl
    refine wp_pure ⟨hsound, ⟨Grown.withTable rs q (j + 1), withTable_length q _, fun _ => rfl, ?_, ?_, ?_⟩, ?_⟩
    · exact fun hzero => absurd hzero hne'
    · exact fun i _ => withTable_block q _ i
    · exact fun off hoff => counted_withTable _ hoff
    · exact fun hzero => absurd hzero hne'

end RefcountBlock

theorem HasBlock.block_ne_zero {j : Nat} (h : HasBlock rs j q q') (hnext : q.nextAllocOffset ≠ 0) : q'.block j ≠ 0 := by
  by_cases hzero : q.block j = 0
  · rwa [(h.fresh hzero).1]
  · rwa [h.blocks j hzero]

theorem Sound.nextAllocOffset_ne_zero (h : Sound host rs q) : q.nextAllocOffset ≠ 0 := by
  have hin := h.placed.inside (o := .header) rfl
  have hcs := clusterSize_pos q.header
  have hle := h.lenLe
  omega

theorem wp_setRefcount (h : Sound host rs q) (off : Nat) :
    (setRefcount host off 1).Wp (fun _ q' => Sound host rs q' ∧ Marked rs (q.tableIndex off) q q' ∧ q'.Counted off)
      (Refused host rs (q.tableIndex off + 1) q) q := by
  unfold setRefcount
  apply wp_get_bind
  apply Wp.seq (wp_ensureRefcountBlock h (q.tableIndex off))
  rintro _ q' ⟨hsound, hmarked⟩
  have hj : q.tableIndex off < q'.refcountTable.length := by
    rw [hmarked.length]
    omega
  have hne := hmarked.block_ne_zero h.nextAllocOffset_ne_zero
  obtain ⟨hlen, hsound', hquiet⟩ := hsound.writeEntry rfl hne (off / q.header.clusterSize) (beBytes_length 2 1)
  have hindex : q'.tableIndex off = q.tableIndex off := by rw [tableIndex, tableIndex, hmarked.header]
  obtain ⟨hcounted, hcounts⟩ := hsound.counted_wrote off (by rwa [hindex])
  rw [entryAt, hindex] at hcounted hcounts
  rw [hmarked.header] at hlen hsound' hquiet hcounted hcounts
  apply wp_get_bind
  apply Wp.bind
  apply wp_orFail (getElem?_eq_block hj)
  exact wp_writeAll (hlen.trans hsound.lenLimit) ⟨hsound', ⟨hmarked.toHasBlock.quiet hquiet rfl hcounts,
    fun hzero hself => hcounts _ (hmarked.counted hzero hself)⟩, hcounted⟩

def span (h : Qcow2Header) : Nat := refcountsPerBlock h.clusterSize * h.clusterSize

theorem tableIndex_eq (q : Qcow2File B) (off : Nat) : q.tableIndex off = off / span q.header := by
  rw [tableIndex, Nat.div_div_eq_div_mul, Nat.mul_comm, span]

theorem span_pos {h : Qcow2Header} (hh : h.Fits) : 0 < span h := by
  have hmul := refcountsPerBlock_mul hh
  have hcs := clusterSize_pos h
  exact Nat.mul_pos (by omega) hcs

theorem tableIndex_span_le (q : Qcow2File B) (off : Nat) : q.tableIndex off * span q.header ≤ off := by
  rw [tableIndex_eq]
  exact Nat.div_mul_le_self _ _

theorem lt_tableIndex_span (h : q.header.Fits) {off : Nat} (hdvd : q.header.clusterSize ∣ off) :
    off + q.header.clusterSize ≤ (q.tableIndex off + 1) * span q.header := by
  rw [tableIndex_eq]
  have hlt := Nat.lt_mul_div_succ off (span_pos h)
  rw [Nat.mul_comm] at hlt
  have hdvd' : q.header.clusterSize ∣ (off / span q.header + 1) * span q.header :=
    Nat.dvd_mul_left_of_dvd (Nat.dvd_mul_left _ _) _
  obtain ⟨a, ha⟩ := hdvd
  obtain ⟨b, hb⟩ := hdvd'
  rw [hb, ha] at hlt
  have hlt' := Nat.lt_of_mul_lt_mul_left hlt
  rw [hb, ha]
  calc q.header.clusterSize * a + q.header.clusterSize = q.header.clusterSize * (a + 1) := by ring
    _ ≤ q.header.clusterSize * b := Nat.mul_le_mul_left _ hlt'

/-- Where the table of reference counts is longer than its place in the file, it covers what was
allocated, but for some blocks of reference counts. -/
structure TableOk (host : Host) (q : Qcow2File B) : Prop where
  upper : q.refcountTable.length * 8 ≤ q.header.refcountTableClusters * q.header.clusterSize ∨
    (q.refcountTable.length - 1) * span q.header < host.limit
  lower : q.refcountTable.length * 8 ≤ q.header.refcountTableClusters * q.header.clusterSize ∨
    q.nextAllocOffset ≤ q.refcountTable.length * span q.header
      + (q.header.refcountTableClusters / refcountsPerBlock q.header.clusterSize + 2) * q.header.clusterSize ∨
    host.limit < q.nextAllocOffset

theorem TableOk.quiet {P : Owner → Prop} (h : TableOk host q) (hquiet : Quiet P rs q q') : TableOk host q' := by
  refine ⟨?_, ?_⟩
  · rw [hquiet.header, hquiet.refcountTable]
    exact h.upper
  · rw [hquiet.header, hquiet.refcountTable, hquiet.nextAllocOffset]
    exact h.lower

theorem TableOk.upper_max (h : TableOk host q) {off : Nat} (hoff : off < host.limit)
    (hheader : q'.header = q.header)
    (hlength : q'.refcountTable.length = max q.refcountTable.length (q.tableIndex off + 1)) :
    q'.refcountTable.length * 8 ≤ q'.header.refcountTableClusters * q'.header.clusterSize ∨
      (q'.refcountTable.length - 1) * span q'.header < host.limit := by
  rw [hheader, hlength]
  rcases Nat.le_total (q.tableIndex off + 1) q.refcountTable.length with hle | hle
  · rw [Nat.max_eq_left hle]
    exact h.upper
  · right
    rw [Nat.max_eq_right hle, Nat.add_sub_cancel]
    exact (tableIndex_span_le q off).trans_lt hoff

structure Allocated (host : Host) (rs : List Nat) (q : Qcow2File B) (off : Nat) (q' : Qcow2File B) : Prop
    extends Grown rs q q' where
  offset : off = q.nextAllocOffset
  sound : Sound host (rs ++ [off]) q'
  tableOk : TableOk host q'
  zero : ∀ k, k < q.header.clusterSize → q'.file.data (off + k) = 0

structure Failed (host : Host) (rs : List Nat) (q : Qcow2File B) (e : Qcow2Error) (q' : Qcow2File B) : Prop
    extends Grown rs q q' where
  refused : e = .refused
  full : host.limit < q'.nextAllocOffset
  sound : Sound host rs q'
  tableOk : TableOk host q'

theorem wp_allocCluster (h : Sound host rs q) (htable : TableOk host q) :
    (allocCluster host).Wp (Allocated host rs q) (Failed host rs q) q := by
  have hle := Nat.le_add_right q.nextAllocOffset q.header.clusterSize
  have hcs := clusterSize_pos q.header
  unfold allocCluster
  apply wp_get_bind
  apply wp_get_bind
  apply wp_modifyGet_bind
  apply Wp.bind
  apply wp_setLen
  · intro hlimit
    have hextend := h.extend 1 (by rwa [Nat.one_mul])
    have hdata := h.extended_data hle
    rw [Nat.one_mul, show q.newClusters 1 = [q.nextAllocOffset] by simp [newClusters]] at hextend
    have hgrown : Grown rs q (q.extended (q.nextAllocOffset + q.header.clusterSize)) :=
      ⟨.of_data rfl rfl rfl rfl hdata, rfl, hle, fun _ _ => rfl⟩
    have hoff : q.nextAllocOffset < host.limit := by omega
    refine Wp.seq (Q := fun _ q' => Allocated host rs q q.nextAllocOffset q') ?_ ?_
    · apply (wp_setRefcount hextend q.nextAllocOffset).mono
      · rintro _ q' ⟨hsound, hmarked, -⟩
        refine ⟨hgrown.trans ⟨hmarked.toFrame.restrict, hmarked.l2Cache, hmarked.next, hmarked.blocks⟩, rfl,
          hsound, ⟨?_, ?_⟩, ?_⟩
        · exact htable.upper_max hoff hmarked.header hmarked.length
        · right
          left
          have hnext : q'.nextAllocOffset ≤ q.nextAllocOffset + q.header.clusterSize + q.header.clusterSize :=
            hmarked.next_le
          have hindex : q.tableIndex q.nextAllocOffset + 1 ≤ q'.refcountTable.length := by
            rw [hmarked.length]
            exact Nat.le_max_right _ _
          have hspan := Nat.mul_le_mul_right (span q.header) hindex
          have hcover := lt_tableIndex_span h.fits h.nextAligned
          rw [hmarked.header]
          calc q'.nextAllocOffset ≤ q'.refcountTable.length * span q.header + 1 * q.header.clusterSize := by omega
            _ ≤ _ := Nat.add_le_add_left (Nat.mul_le_mul_right _ (Nat.le_add_left_of_le (Nat.le_succ 1))) _
        · intro k hk
          rw [hmarked.bytes (.reserved rs.length) _ place_snoc_last rfl k hk, hdata]
          apply q.file.zero_beyond
          have := h.lenLe
          omega
      · intro e q' hrefused
        refine ⟨hgrown.trans ⟨hrefused.toFrame.restrict, hrefused.l2Cache, hrefused.next, hrefused.blocks⟩,
          hrefused.refused, hrefused.limit, ?_, ⟨?_, ?_⟩⟩
        · exact hrefused.sound.forget
        · exact htable.upper_max hoff hrefused.header hrefused.length
        · exact Or.inr (Or.inr hrefused.limit)
    · intro _ q' hq'
      exact wp_pure hq'
  · intro hlimit
    refine ⟨⟨.of_data rfl rfl rfl rfl rfl, rfl, hle, fun _ _ => rfl⟩, rfl, hlimit, ?_, ⟨htable.upper, ?_⟩⟩
    · exact h.bump hle (Nat.dvd_add h.nextAligned (Nat.dvd_refl _))
    · exact Or.inr (Or.inr hlimit)

end Qcow2File

end CloneVmm.Storage
