import CloneVmm.Storage.Backing
import CloneVmm.Storage.FlatDisk

namespace CloneVmm.Storage

open CloneVmm.Lib CloneVmm.Lib.Prog

namespace Qcow2File

variable {B : Type} {host : Host} {rs rs' : List Nat} {q q' q'' : Qcow2File B}

def Tally (rs : List Nat) (q : Qcow2File B) : Prop := ∀ o off, q.place rs o = some off → q.Counted off

/-- The ranges of the next `n` clusters have blocks of reference counts, or get one behind these clusters
that covers itself, or none because the host refuses it. -/
def Covered (host : Host) (n : Nat) (q : Qcow2File B) : Prop :=
  ∀ j, q.tableIndex q.nextAllocOffset ≤ j → j ≤ q.tableIndex (q.nextAllocOffset + (n - 1) * q.header.clusterSize) →
    q.block j ≠ 0 ∨ host.limit < q.nextAllocOffset + (n + 1) * q.header.clusterSize ∨
      q.tableIndex (q.nextAllocOffset + n * q.header.clusterSize) = j

theorem tableIndex_congr (hheader : q'.header = q.header) (off : Nat) : q'.tableIndex off = q.tableIndex off := by
  rw [tableIndex, tableIndex, hheader]

theorem Covered.congr {n : Nat} (h : Covered host n q) (hheader : q'.header = q.header)
    (hnext : q'.nextAllocOffset = q.nextAllocOffset) (hblock : ∀ j, q.block j ≠ 0 → q'.block j ≠ 0) :
    Covered host n q' := by
  intro j
  rw [hnext, hheader, tableIndex_congr hheader, tableIndex_congr hheader, tableIndex_congr hheader]
  intro hlo hhi
  exact (h j hlo hhi).imp_left (hblock j)

theorem Covered.quiet {n : Nat} {P : Owner → Prop} (h : Covered host n q) (hquiet : Quiet P rs q q') :
    Covered host n q' := by
  refine h.congr hquiet.header hquiet.nextAllocOffset fun j hj => ?_
  rwa [block, hquiet.refcountTable]

theorem covered_one : Covered host 1 q ↔ q.block (q.tableIndex q.nextAllocOffset) ≠ 0 ∨
    host.limit < q.nextAllocOffset + q.header.clusterSize + q.header.clusterSize ∨
      q.tableIndex (q.nextAllocOffset + q.header.clusterSize) = q.tableIndex q.nextAllocOffset := by
  unfold Covered
  rw [Nat.sub_self, Nat.zero_mul, Nat.add_zero, Nat.one_mul, Nat.add_mul, Nat.one_mul, ← Nat.add_assoc]
  constructor
  · exact fun h => h _ (Nat.le_refl _) (Nat.le_refl _)
  · intro h j hlo hhi
    obtain rfl := Nat.le_antisymm hlo hhi
    exact h

theorem tableIndex_next (h : q.header.Fits) {off : Nat}
    (hne : q.tableIndex (off + q.header.clusterSize) ≠ q.tableIndex off) :
    q.tableIndex (off + q.header.clusterSize + q.header.clusterSize) = q.tableIndex (off + q.header.clusterSize) := by
  have hcs := clusterSize_bounds h
  have hmul := refcountsPerBlock_mul h
  unfold tableIndex at hne ⊢
  rw [Nat.add_div_right _ (by omega)] at hne ⊢
  rw [Nat.add_div_right _ (by omega)]
  generalize off / q.header.clusterSize = c at hne ⊢
  generalize refcountsPerBlock q.header.clusterSize = m at hne hmul ⊢
  have hdvd : m ∣ c + 1 := by
    by_contra hnot
    rw [Nat.succ_div_of_not_dvd hnot] at hne
    exact hne rfl
  apply Nat.succ_div_of_not_dvd
  intro hdvd'
  have := Nat.le_of_dvd Nat.one_pos ((Nat.dvd_add_right hdvd).mp hdvd')
  omega

theorem place_refcountBlock {i off : Nat} :
    q.place rs (.refcountBlock i) = some off ↔ q.block i ≠ 0 ∧ q.block i = off := by
  simp only [place]
  split
  · simp [*]
  · simp [*]

theorem Marked.restrict {j : Nat} (h : Marked (rs ++ rs') j q q') : Marked rs j q q' :=
  ⟨⟨⟨h.toFrame.restrict, h.l2Cache, h.next, h.blocks⟩, h.length, h.there, h.fresh, h.others, h.counts⟩, h.counted⟩

theorem Marked.fits {j : Nat} (h : Marked rs j q q') (hsound : Sound host rs q') (hnext : q.nextAllocOffset ≠ 0)
    (hzero : q.block j = 0) : q.nextAllocOffset + q.header.clusterSize ≤ host.limit := by
  obtain ⟨hfresh, -⟩ := h.fresh hzero
  have hin := hsound.placed.inside (place_refcountBlock.mpr ⟨h.block_ne_zero hnext, hfresh⟩)
  rw [h.header] at hin
  exact hin.trans hsound.lenLimit

namespace Tally

theorem of_place (h : Tally rs q) (hplace : ∀ o off, q'.place rs' o = some off → ∃ o', q.place rs o' = some off)
    (hcounts : ∀ off, q.Counted off → q'.Counted off) : Tally rs' q' := by
  intro o off ho
  obtain ⟨o', ho'⟩ := hplace o off ho
  exact hcounts off (h o' off ho')

theorem quiet {P : Owner → Prop} (h : Tally rs q) (hfits : q.header.Fits) (hquiet : Quiet P rs q q')
    (hP : ∀ i, P (.refcountBlock i)) : Tally rs q' := by
  refine h.of_place (fun o off ho => ⟨o, hquiet.place ▸ ho⟩) fun off hoff => ?_
  refine hoff.of_frame hfits hquiet.toFrame (hP _) ?_
  rw [block, block, hquiet.refcountTable]

theorem forget (h : Tally (rs ++ rs') q) : Tally rs q := by
  refine h.of_place (fun o off ho => ⟨o, ?_⟩) fun _ hoff => hoff
  rw [place_append, ho]
  rintro i rfl
  exact (List.getElem?_eq_some_iff.mp ho).1

theorem snoc (h : Tally rs q) {off : Nat} (hoff : q.Counted off) : Tally (rs ++ [off]) q := by
  intro o off' ho
  by_cases hlast : o = .reserved rs.length
  · subst hlast
    rw [place_snoc_last] at ho
    cases ho
    exact hoff
  · rw [place_snoc hlast] at ho
    exact h o off' ho

theorem marked {j : Nat} (h : Tally rs q) (hsound : Sound host rs q') (hmarked : Marked rs j q q')
    (hself : q.block j = 0 → host.limit < q.nextAllocOffset + q.header.clusterSize ∨
      q.tableIndex q.nextAllocOffset = j) : Tally rs q' := by
  intro o off ho
  cases hblock : o.isBlock with
  | false =>
    rw [hmarked.toFrame.place hblock] at ho
    exact hmarked.counts off (h o off ho)
  | true =>
    cases o with
    | refcountBlock i =>
      by_cases hnew : i = j ∧ q.block j = 0
      · obtain ⟨rfl, hzero⟩ := hnew
        obtain ⟨hfresh, -⟩ := hmarked.fresh hzero
        obtain ⟨hne, rfl⟩ := place_refcountBlock.mp ho
        rw [hfresh] at hne ⊢
        exact hmarked.counted hzero ((hself hzero).resolve_left (hmarked.fits hsound hne hzero).not_gt)
      · have hsame : q'.block i = q.block i := by
          by_cases hij : i = j
          · subst hij
            exact hmarked.blocks i fun hzero => hnew ⟨rfl, hzero⟩
          · exact hmarked.others i hij
        rw [place, hsame] at ho
        exact hmarked.counts off (h (.refcountBlock i) off ho)
    | header | l1 i | refcountTable i | l2 i | data g | reserved i => cases hblock

theorem refused {n : Nat} {e : Qcow2Error} (h : Tally rs q) (hrefused : Refused host (rs ++ rs') n q e q') :
    Tally rs q' := by
  refine h.of_place (fun o off ho => ⟨o, ?_⟩) hrefused.counts
  cases hblock : o.isBlock with
  | false => rwa [hrefused.toFrame.restrict.place hblock] at ho
  | true =>
    cases o with
    | refcountBlock i => rwa [place, hrefused.same] at ho
    | header | l1 i | refcountTable i | l2 i | data g | reserved i => cases hblock

theorem hand {o : Owner} {off : Nat} (h : Tally (rs ++ [off]) q) (ho : q'.place rs o = some off)
    (hother : ∀ o', o' ≠ o → o' ≠ .reserved rs.length → q'.place rs o' = q.place (rs ++ [off]) o')
    (hcounts : ∀ off, q.Counted off → q'.Counted off) : Tally rs q' := by
  refine h.of_place (fun o' off' ho' => ?_) hcounts
  by_cases heq : o' = o
  · subst heq
    rw [ho] at ho'
    cases ho'
    exact ⟨_, place_snoc_last⟩
  · by_cases hr : o' = .reserved rs.length
    · subst hr
      rw [place_reserved_none] at ho'
      cases ho'
    · exact ⟨o', hother o' heq hr ▸ ho'⟩

theorem extended (h : Tally rs q) (hsound : Sound host rs q) {n : Nat} (hn : q.nextAllocOffset ≤ n) :
    Tally rs (q.extended n) := by
  have hdata := hsound.extended_data hn
  have hframe : Frame (fun _ => True) rs q (q.extended n) := .of_data rfl rfl rfl rfl hdata
  refine h.of_place (fun o off ho => ⟨o, hframe.place_eq rfl ▸ ho⟩) fun off hoff => ?_
  exact hoff.congr rfl rfl fun k _ => congrFun hdata _

end Tally

theorem covered_of_last (h : q.header.Fits) (off : Nat) (hnext : q.nextAllocOffset = off + q.header.clusterSize)
    (hblock : q.block (q.tableIndex off) ≠ 0) : Covered host 1 q := by
  rw [covered_one, hnext]
  by_cases hsame : q.tableIndex (off + q.header.clusterSize) = q.tableIndex off
  · left
    rwa [hsame]
  · right
    right
    exact tableIndex_next h hsame

theorem Marked.covered {off : Nat} (h : Marked rs (q.tableIndex off) q q') (hsound : Sound host rs q')
    (hoff : q.nextAllocOffset = off + q.header.clusterSize)
    (hself : q.block (q.tableIndex off) = 0 → host.limit < q.nextAllocOffset + q.header.clusterSize ∨
      q.tableIndex q.nextAllocOffset = q.tableIndex off) : Covered host 1 q' := by
  have hnext : q.nextAllocOffset ≠ 0 := by
    have := clusterSize_pos q.header
    omega
  have hblock := h.block_ne_zero hnext
  by_cases hzero : q.block (q.tableIndex off) = 0
  · apply covered_of_last hsound.fits q.nextAllocOffset
    · rw [(h.fresh hzero).2, h.header]
    · rwa [tableIndex_congr h.header, (hself hzero).resolve_left (h.fits hsound hnext hzero).not_gt]
  · apply covered_of_last hsound.fits off
    · rw [h.there hzero, hoff, h.header]
    · rwa [tableIndex_congr h.header]

theorem wp_allocCluster_tally (h : Sound host rs q) (htally : Tally rs q) (hcovered : Covered host 1 q) :
    (allocCluster host).Wp (fun off q' => Tally (rs ++ [off]) q' ∧ Covered host 1 q') (fun _ q' => Tally rs q') q := by
  have hle := Nat.le_add_right q.nextAllocOffset q.header.clusterSize
  unfold allocCluster
  apply wp_get_bind
  apply wp_get_bind
  apply wp_modifyGet_bind
  apply Wp.bind
  apply wp_setLen
  · intro hlimit
    have hextend := h.extend 1 (by rwa [Nat.one_mul])
    rw [Nat.one_mul, show q.newClusters 1 = [q.nextAllocOffset] by simp [newClusters]] at hextend
    have htally₁ := htally.extended h hle
    refine Wp.seq (Q := fun _ q' => Tally (rs ++ [q.nextAllocOffset]) q' ∧ Covered host 1 q') ?_ ?_
    · apply (wp_setRefcount hextend q.nextAllocOffset).mono
      · rintro _ q' ⟨hsound, hmarked, hcounted⟩
        have hself : q.block (q.tableIndex q.nextAllocOffset) = 0 →
            host.limit < q.nextAllocOffset + q.header.clusterSize + q.header.clusterSize ∨
              q.tableIndex (q.nextAllocOffset + q.header.clusterSize) = q.tableIndex q.nextAllocOffset :=
          fun hzero => (covered_one.mp hcovered).resolve_left fun hne => hne hzero
        exact ⟨(htally₁.marked hsound.forget hmarked.restrict hself).snoc hcounted,
          hmarked.covered hsound rfl hself⟩
      · exact fun _ q' hrefused => htally₁.refused hrefused
    · exact fun _ q' hq' => wp_pure hq'
  · intro hlimit
    exact htally

section Mapping

variable {i off : Nat}

theorem wp_newL2Table_tally (hlimit : host.limit ≤ 2 ^ 54) (h : Sound host rs q) (htable : TableOk host q)
    (htally : Tally rs q) (hcovered : Covered host 1 q) (hi : i < q.header.l1Size) (hnone : q.l2Offset i = none) :
    (newL2Table host i).Wp (fun _ q' => Tally rs q' ∧ Covered host 1 q') (fun _ q' => Tally rs q') q := by
  have hmod : i % 2 ^ 32 = i := Nat.mod_eq_of_lt (hi.trans h.fits.l1Size)
  unfold newL2Table
  rw [hmod]
  refine Wp.seq (Q := fun off q' => Allocated host rs q off q' ∧ Tally (rs ++ [off]) q' ∧ Covered host 1 q') ?_ ?_
  · apply ((wp_allocCluster h htable).and (wp_allocCluster_tally h htally hcovered)).mono
    · exact fun _ _ hq' => hq'
    · exact fun _ _ hq' => hq'.2
  · rintro off q' ⟨halloc, htally', hcovered'⟩
    have hnone' : q'.l2Offset i = none := by rw [halloc.toFrame.l2Offset, hnone]
    have hi' : i < q'.l1Table.length := by rwa [halloc.l1Table, h.l1Length]
    obtain ⟨hdvd, hlt, hne⟩ := halloc.sound.reserved_bounds hlimit
    have hself := withL2Table_l2Offset_self hi' ((dvd_clusterSize halloc.sound.fits).trans hdvd) hlt hne
    apply wp_modifyGet
    change Tally rs (q'.withL2Table i off) ∧ Covered host 1 (q'.withL2Table i off)
    refine ⟨htally'.hand (o := .l2 i) hself (fun o ho hr => withL2Table_place hnone' ho hr) fun _ hoff => hoff, ?_⟩
    exact hcovered'.congr rfl rfl fun _ hj => hj

theorem wp_ensureL2Table_tally (hlimit : host.limit ≤ 2 ^ 54) (h : Sound host rs q) (htable : TableOk host q)
    (htally : Tally rs q) (hcovered : Covered host 1 q) {e : Nat} (he : q.l1Table[i]? = some e) :
    (ensureL2Table host i e).Wp (fun _ q' => Tally rs q' ∧ Covered host 1 q') (fun _ q' => Tally rs q') q := by
  have hi : i < q.header.l1Size := by
    rw [← h.l1Length]
    exact (List.getElem?_eq_some_iff.mp he).1
  have hmod : i % 2 ^ 32 = i := Nat.mod_eq_of_lt (hi.trans h.fits.l1Size)
  unfold ensureL2Table
  split
  · rename_i hzero
    apply wp_newL2Table_tally hlimit h htable htally hcovered hi
    rw [l2Offset, he, Option.bind_some, if_pos hzero]
  · rename_i hne
    have hoff : q.l2Offset i = some (e &&& l1OffsetMask) := by rw [l2Offset, he, Option.bind_some, if_neg hne]
    rw [hmod]
    apply (wp_ensureL2Cached h hoff).mono
    · rintro _ q' ⟨-, hquiet, -⟩
      exact ⟨htally.quiet h.fits hquiet fun _ => rfl, hcovered.quiet hquiet⟩
    · exact fun _ _ hfalse => hfalse.elim

theorem wp_setL2Entry_tally (hlimit : host.limit ≤ 2 ^ 54) (h : Sound host (rs ++ [off]) q) (htable : TableOk host q)
    (htally : Tally (rs ++ [off]) q) (hcovered : Covered host 1 q) {pos : Nat}
    (hpos : l1IndexOf q.header pos < q.header.l1Size) :
    (setL2Entry host pos (off ||| l2FlagCopied)).Wp (fun _ q' => Tally rs q' ∧ Covered host 1 q')
      (fun _ q' => Tally rs q') q := by
  have hmod : l1IndexOf q.header pos % 2 ^ 32 = l1IndexOf q.header pos := Nat.mod_eq_of_lt (hpos.trans h.fits.l1Size)
  have hentry : q.l1Table[l1IndexOf q.header pos]? = some _ :=
    List.getElem?_eq_getElem (by rwa [h.l1Length])
  unfold setL2Entry
  apply wp_get_bind
  dsimp only
  rw [hmod]
  apply Wp.bind
  apply wp_orFail hentry
  refine Wp.seq (Q := fun _ q' => Ready host (rs ++ [off]) (l1IndexOf q.header pos) q q' ∧ Tally (rs ++ [off]) q' ∧
    Covered host 1 q') ?_ ?_
  · apply ((wp_ensureL2Table hlimit h htable hentry).and
      (wp_ensureL2Table_tally hlimit h htable htally hcovered hentry)).mono
    · exact fun _ _ hq' => hq'
    · exact fun _ _ hq' => hq'.2.forget
  · rintro _ q' ⟨hready, htally', hcovered'⟩
    obtain ⟨entry, hlookup⟩ := hready.cached
    rw [← hready.header] at hlookup
    have hupdate := wp_updateL2Entry hready.sound hlookup (off ||| l2FlagCopied)
    rw [hready.header] at hupdate
    apply hupdate.mono
    · rintro _ _ rfl
      have hlookup' : q'.l2Cache.lookup (pos / q.header.clusterSize / q'.header.l2EntriesPerTable) = some entry := by
        rw [← hlookup, hready.header]
        rfl
      have hself : (q'.withEntry (pos / q.header.clusterSize) entry (off ||| l2FlagCopied)).place rs
          (.data (pos / q.header.clusterSize)) = some off :=
        (congrFun (withEntry_dataOffset hready.sound hlimit hlookup') _).trans (Function.update_self ..)
      refine ⟨htally'.hand hself (fun o ho hr => withEntry_place hready.sound hlimit hlookup' ho hr)
        fun _ hoff => hoff, ?_⟩
      exact hcovered'.congr rfl rfl fun _ hj => hj
    · exact fun _ _ hfalse => hfalse.elim

end Mapping

section Fills

variable [Backing B]

def Fills (host : Host) (B : Type) [Backing B] : Prop :=
  ∀ (b : B) offset n bytes, (Backing.readAt host b offset n).1 = .ok bytes → bytes.length = n

theorem ends_readBacking (hfills : Fills host B) (offset n : Nat) :
    (readBacking host offset n).Ends (fun q' => ∃ b, q' = { q with backing := b }) (fun bytes => bytes.length = n)
      q := by
  unfold readBacking
  apply wp_get_bind
  cases hbacking : q.backing with
  | none => exact ends_pure ⟨none, by rw [← hbacking]⟩ List.length_replicate
  | some b =>
    apply wp_modifyGet_bind
    cases hread : (Backing.readAt host b offset n).1 with
    | error e => exact ends_throw ⟨_, rfl⟩
    | ok bytes => exact ends_pure ⟨_, rfl⟩ (hfills b offset n bytes hread)

theorem length_readLoop (hfills : Fills host B) (clusterBits pos remaining : Nat) :
    (readLoop host clusterBits pos remaining).Keeps (fun _ : Qcow2File B => True)
      fun bytes => bytes.length = remaining := by
  induction remaining using Nat.strong_induction_on generalizing pos with
  | h remaining ih =>
    unfold readLoop
    split
    · rename_i hpos
      have hchunk := chunkLen_pos clusterBits pos remaining hpos
      have hle := chunkLen_le clusterBits pos remaining
      have hread : (readChunk host clusterBits pos (chunkLen clusterBits pos remaining)).Keeps
          (fun _ : Qcow2File B => True) fun bytes => bytes.length = chunkLen clusterBits pos remaining := by
        refine (keeps_true _).bind fun hostOffset _ => ?_
        cases hostOffset with
        | none =>
          exact fun q _ => (ends_readBacking hfills _ _).imp fun _ _ => trivial
        | some hostOff =>
          refine keeps_get.bind fun q _ => ?_
          cases hbytes : q.file.readExact (hostOff + pos % 2 ^ clusterBits) (chunkLen clusterBits pos remaining) with
          | none => exact keeps_throw
          | some bytes => exact keeps_pure (readExact_length hbytes)
      refine hread.bind fun chunk hlen => (ih _ (by omega) _).bind fun rest hrest => keeps_pure ?_
      rw [List.length_append, hlen, hrest]
      omega
    · exact keeps_pure (by rw [List.length_nil]; omega)

theorem Fills.backingFile (hfills : Fills host B) : Fills host (BackingFile B) := by
  intro b offset n bytes hread
  cases b with
  | raw file size =>
    change (BackingFile.readAt host (.raw file size) offset n).1 = _ at hread
    simp only [BackingFile.readAt] at hread
    split at hread
    · cases hread
      exact List.length_replicate
    · split at hread
      · cases hread
      · rename_i hbytes
        cases hread
        rw [List.length_append, List.length_replicate, readExact_length hbytes]
        omega
  | qcow2 image =>
    have hkeeps : (readAt host offset n).Keeps (fun _ : Qcow2File B => True) fun bytes => bytes.length = n :=
      keeps_get.bind fun q _ => Keeps.ite keeps_throw (Keeps.ite (length_readLoop hfills _ _ _) keeps_throw)
    exact (Wp.ok (hkeeps image trivial) (Prod.ext hread rfl)).2

end Fills

theorem fills_images (host : Host) (n : Nat) : Fills host (Images n) := by
  induction n with
  | zero => exact fun b => b.elim
  | succ n ih => exact Fills.backingFile ih

theorem Sound.rebacked (h : Sound host rs q) (b : Option B) : Sound host rs { q with backing := b } :=
  h.of_data rfl rfl rfl rfl (Nat.le_refl _) (fun _ _ => rfl) h.placed h.lenLe h.nextAligned h.lenLimit

theorem TableOk.rebacked (h : TableOk host q) (b : Option B) : TableOk host { q with backing := b } :=
  ⟨h.upper, h.lower⟩

structure Balanced (host : Host) (rs : List Nat) (q : Qcow2File B) : Prop where
  sound : Sound host rs q
  tableOk : TableOk host q
  tally : Tally rs q

structure Onward (host : Host) (q q' : Qcow2File B) : Prop where
  header : q'.header = q.header
  covered : Covered host 1 q → Covered host 1 q'
  mapped : ∀ g, q.dataOffset g ≠ none → q'.dataOffset g ≠ none

namespace Onward

theorem refl (q : Qcow2File B) : Onward host q q := ⟨rfl, id, fun _ => id⟩

theorem trans (h : Onward host q q') (h' : Onward host q' q'') : Onward host q q'' :=
  ⟨h'.header.trans h.header, fun hq => h'.covered (h.covered hq), fun g hg => h'.mapped g (h.mapped g hg)⟩

theorem of_quiet {P : Owner → Prop} (h : Quiet P rs q q') : Onward host q q' :=
  ⟨h.header, fun hq => hq.quiet h, fun g hg => by rwa [h.toFrame.dataOffset]⟩

end Onward

namespace Balanced

theorem quiet {P : Owner → Prop} (h : Balanced host rs q) (hsound : Sound host rs q') (hquiet : Quiet P rs q q')
    (hP : ∀ i, P (.refcountBlock i)) : Balanced host rs q' :=
  ⟨hsound, h.tableOk.quiet hquiet, h.tally.quiet h.sound.fits hquiet hP⟩

theorem rebacked (h : Balanced host rs q) (b : Option B) : Balanced host rs { q with backing := b } where
  sound := h.sound.rebacked b
  tableOk := h.tableOk.rebacked b
  tally := h.tally

theorem forget (h : Balanced host (rs ++ rs') q) : Balanced host rs q :=
  ⟨h.sound.forget, h.tableOk, h.tally.forget⟩

end Balanced

section Access

variable {pos : Nat}

theorem wp_translateCluster_balanced (h : Balanced host rs q) (hpos : l1IndexOf q.header pos < q.header.l1Size) :
    (translateCluster host pos).Wp (fun r q' => r = q.dataOffset (pos / q.header.clusterSize) ∧ Balanced host rs q' ∧
      Onward host q q' ∧ q'.dataOffset = q.dataOffset) (fun _ _ => False) q := by
  apply (wp_translateCluster h.sound hpos).mono
  · rintro r q' ⟨hr, hsound, hquiet⟩
    exact ⟨hr, h.quiet hsound hquiet fun _ => rfl, .of_quiet hquiet, hquiet.toFrame.dataOffset⟩
  · exact fun _ _ hfalse => hfalse

theorem wp_allocCluster_balanced (h : Balanced host rs q) (hcovered : Covered host 1 q) :
    (allocCluster host).Wp (fun off q' => Balanced host (rs ++ [off]) q' ∧ Onward host q q' ∧ Covered host 1 q')
      (fun _ q' => Balanced host rs q' ∧ q'.header = q.header) q := by
  apply ((wp_allocCluster h.sound h.tableOk).and (wp_allocCluster_tally h.sound h.tally hcovered)).mono
  · rintro off q' ⟨halloc, htally, hcovered'⟩
    refine ⟨⟨halloc.sound, halloc.tableOk, htally⟩, ⟨halloc.header, fun _ => hcovered', fun g hg => ?_⟩, hcovered'⟩
    rwa [halloc.toFrame.dataOffset]
  · rintro e q' ⟨hfailed, htally⟩
    exact ⟨⟨hfailed.sound, hfailed.tableOk, htally⟩, hfailed.header⟩

theorem wp_setL2Entry_balanced (hlimit : host.limit ≤ 2 ^ 54) {off : Nat} (h : Balanced host (rs ++ [off]) q)
    (hcovered : Covered host 1 q) (hpos : l1IndexOf q.header pos < q.header.l1Size) :
    (setL2Entry host pos (off ||| l2FlagCopied)).Wp (fun _ q' => Balanced host rs q' ∧ Onward host q q' ∧
      q'.dataOffset (pos / q.header.clusterSize) = some off)
      (fun _ q' => Balanced host rs q' ∧ q'.header = q.header) q := by
  apply ((wp_setL2Entry hlimit h.sound h.tableOk hpos).and
    (wp_setL2Entry_tally hlimit h.sound h.tableOk h.tally hcovered hpos)).mono
  · rintro _ q' ⟨hmapped, htally, hcovered'⟩
    refine ⟨⟨hmapped.sound, hmapped.tableOk, htally⟩, ⟨hmapped.header, fun _ => hcovered', fun g hg => ?_⟩, ?_⟩
    · rw [hmapped.dataOffset, Function.update_apply]
      split
      · exact fun hnone => by cases hnone
      · exact hg
    · rw [hmapped.dataOffset, Function.update_self]
  · rintro e q' ⟨hlost, htally⟩
    exact ⟨⟨hlost.sound, hlost.tableOk, htally⟩, hlost.header⟩

variable [Backing B]

theorem wp_fillCluster_balanced (hfills : Fills host B) {len off : Nat} (h : Balanced host (rs ++ [off]) q) :
    (fillCluster host q.header.clusterBits pos len off).Wp
      (fun _ q' => Balanced host (rs ++ [off]) q' ∧ Onward host q q')
      (fun _ q' => Balanced host (rs ++ [off]) q' ∧ Onward host q q') q := by
  have hbacked : ∀ b, Balanced host (rs ++ [off]) { q with backing := b } ∧ Onward host q { q with backing := b } :=
    fun b => ⟨h.rebacked b, rfl, fun hq => hq.congr rfl rfl fun _ hj => hj, fun _ hg => hg⟩
  unfold fillCluster
  split
  · refine Wp.seq (Wp.mono (ends_readBacking hfills _ _) (fun _ _ hq' => hq') ?_) ?_
    · rintro _ _ ⟨b, rfl⟩
      exact hbacked b
    · rintro bytes _ ⟨⟨b, rfl⟩, hlen⟩
      obtain ⟨hb, honward⟩ := hbacked b
      obtain ⟨hin, hsound, hquiet⟩ := hb.sound.writeReserved bytes hlen.le
      apply wp_writeAll (hin.trans hb.sound.lenLimit)
      exact ⟨hb.quiet hsound hquiet (by simp), honward.trans (.of_quiet hquiet)⟩
  · exact wp_pure ⟨h, .refl q⟩

theorem wp_clusterForWrite_balanced (hlimit : host.limit ≤ 2 ^ 54) (hfills : Fills host B) (h : Balanced host [] q)
    (hpos : l1IndexOf q.header pos < q.header.l1Size)
    (hnew : q.dataOffset (pos / q.header.clusterSize) = none → Covered host 1 q) (len : Nat) :
    (clusterForWrite host q.header.clusterBits pos len).Wp (fun off q' => Balanced host [] q' ∧ Onward host q q' ∧
      q'.dataOffset (pos / q.header.clusterSize) = some off)
      (fun _ q' => Balanced host [] q' ∧ q'.header = q.header) q := by
  unfold clusterForWrite
  refine Wp.seq ((wp_translateCluster_balanced h hpos).mono (fun _ _ hq' => hq') fun _ _ hfalse => hfalse.elim) ?_
  rintro r q₁ ⟨rfl, hq₁, honward₁, hdata₁⟩
  cases hoff : q.dataOffset (pos / q.header.clusterSize) with
  | some off => exact wp_pure ⟨hq₁, honward₁, by rw [hdata₁, hoff]⟩
  | none =>
    refine Wp.seq ((wp_allocCluster_balanced hq₁ (honward₁.covered (hnew hoff))).mono (fun _ _ hq' => hq') ?_) ?_
    · exact fun _ _ hq' => ⟨hq'.1, hq'.2.trans honward₁.header⟩
    rintro off q₂ ⟨hq₂, honward₂, hcovered₂⟩
    have hheader₂ := honward₂.header.trans honward₁.header
    have hfill : (fillCluster host q₂.header.clusterBits pos len off).Wp _ _ q₂ := wp_fillCluster_balanced hfills hq₂
    rw [hheader₂] at hfill
    refine Wp.seq (hfill.mono (fun _ _ hq' => hq') fun _ _ hq' => ⟨hq'.1.forget, hq'.2.header.trans hheader₂⟩) ?_
    rintro _ q₃ ⟨hq₃, honward₃⟩
    have hheader₃ := honward₃.header.trans hheader₂
    have hset : (setL2Entry host pos (off ||| l2FlagCopied)).Wp _ _ q₃ :=
      wp_setL2Entry_balanced hlimit hq₃ (honward₃.covered hcovered₂) (by rwa [hheader₃])
    rw [hheader₃] at hset
    refine Wp.seq (hset.mono (fun _ _ hq' => hq') fun _ _ hq' => hq') ?_
    rintro _ q₄ ⟨hq₄, honward₄, hdata₄⟩
    exact wp_pure ⟨hq₄, ((honward₁.trans honward₂).trans honward₃).trans honward₄, hdata₄⟩

theorem wp_writeChunk_balanced (hlimit : host.limit ≤ 2 ^ 54) (hfills : Fills host B) (h : Balanced host [] q)
    (hpos : l1IndexOf q.header pos < q.header.l1Size)
    (hnew : q.dataOffset (pos / q.header.clusterSize) = none → Covered host 1 q) {chunk : Bytes}
    (hfits : pos % q.header.clusterSize + chunk.length ≤ q.header.clusterSize) :
    (writeChunk host q.header.clusterBits pos chunk).Wp (fun _ q' => Balanced host [] q' ∧ Onward host q q')
      (fun _ q' => Balanced host [] q' ∧ q'.header = q.header) q := by
  unfold writeChunk
  apply Wp.seq (wp_clusterForWrite_balanced hlimit hfills h hpos hnew chunk.length)
  rintro off q' ⟨hq', honward, hoff⟩
  obtain ⟨hin, hsound, hquiet⟩ := hq'.sound.writeData hoff chunk (by rwa [honward.header])
  apply wp_writeAll (hin.trans hq'.sound.lenLimit)
  exact ⟨hq'.quiet hsound hquiet (by simp), honward.trans (.of_quiet hquiet)⟩

def Maps (offset n : Nat) (q : Qcow2File B) : Prop :=
  ∀ p, offset ≤ p → p < offset + n → q.dataOffset (p / q.header.clusterSize) ≠ none

theorem wp_writeLoop_balanced (hlimit : host.limit ≤ 2 ^ 54) (hfills : Fills host B) (h : Balanced host [] q)
    (hcovers : q.header.size ≤ q.header.l1Size * q.header.l2EntriesPerTable * q.header.clusterSize) {data : Bytes}
    (hend : pos + data.length ≤ q.header.size) (hroom : q.Maps pos data.length ∨ Covered host 1 q) :
    (writeLoop host q.header.clusterBits pos data).Wp (fun _ q' => Balanced host [] q' ∧ q'.header = q.header)
      (fun _ q' => Balanced host [] q' ∧ q'.header = q.header) q := by
  -- on what is left to write: where a cluster is new, the end of the file is covered, and stays so
  induction hlen : data.length using Nat.strong_induction_on generalizing pos data q with
  | h remaining ih =>
    subst hlen
    unfold writeLoop
    split
    · rename_i hpos
      have hchunk := chunkLen_pos q.header.clusterBits pos data.length hpos
      have hle := chunkLen_le q.header.clusterBits pos data.length
      have htake : (data.take (chunkLen q.header.clusterBits pos data.length)).length =
          chunkLen q.header.clusterBits pos data.length := List.length_take_of_le hle
      have hnew : q.dataOffset (pos / q.header.clusterSize) = none → Covered host 1 q :=
        fun hnone => hroom.resolve_left fun hmaps => hmaps pos (Nat.le_refl _) (by omega) hnone
      apply Wp.seq (wp_writeChunk_balanced hlimit hfills h (l1IndexOf_lt hcovers (by omega)) hnew
        (by rw [htake]; exact chunkLen_fits q.header.clusterBits pos data.length))
      rintro _ q' ⟨hq', honward⟩
      have hheader := honward.header
      have hend' : pos + chunkLen q.header.clusterBits pos data.length
          + (data.drop (chunkLen q.header.clusterBits pos data.length)).length ≤ q'.header.size := by
        rw [hheader, List.length_drop]
        omega
      have hroom' : q'.Maps (pos + chunkLen q.header.clusterBits pos data.length)
          (data.drop (chunkLen q.header.clusterBits pos data.length)).length ∨ Covered host 1 q' := by
        refine hroom.imp (fun hmaps p hlo hhi => ?_) honward.covered
        rw [hheader]
        rw [List.length_drop] at hhi
        exact honward.mapped _ (hmaps p (by omega) (by omega))
      have hrest := ih _ (by rw [List.length_drop]; omega) hq' (by rwa [hheader]) hend' hroom' rfl
      rw [hheader] at hrest
      exact hrest
    · exact wp_pure ⟨h, rfl⟩

theorem ends_writeAt_balanced (hlimit : host.limit ≤ 2 ^ 54) (hfills : Fills host B) (h : Balanced host [] q)
    (hcovers : q.header.size ≤ q.header.l1Size * q.header.l2EntriesPerTable * q.header.clusterSize) {offset : Nat}
    {data : Bytes} (hroom : q.Maps offset data.length ∨ Covered host 1 q) :
    (writeAt host offset data).Ends (fun q' => Balanced host [] q' ∧ q'.header = q.header) (fun _ => True) q := by
  unfold writeAt
  apply wp_get_bind
  dsimp only
  split
  · exact ends_throw ⟨h, rfl⟩
  · split
    · exact (wp_writeLoop_balanced hlimit hfills h hcovers ‹_› hroom).mono (fun _ _ hq' => ⟨hq', trivial⟩)
        fun _ _ hq' => hq'
    · exact ends_throw ⟨h, rfl⟩

theorem keeps_readAt_balanced (hfills : Fills host B) (h : Qcow2Header) (offset n : Nat) :
    (readAt host offset n).Keeps (fun q : Qcow2File B => Balanced host [] q ∧ q.header = h) fun _ => True := by
  refine keeps_readAt (fun pos => ?_) (fun offset n => ?_) offset n
  · rintro q ⟨hq, rfl⟩
    apply (ends_translateCluster hq.sound pos).imp
    rintro q' ⟨hsound, hquiet⟩
    exact ⟨hq.quiet hsound hquiet fun _ => rfl, hquiet.header⟩
  · rintro q ⟨hq, rfl⟩
    refine Ends.mono (R := fun bytes => bytes.length = n) ((ends_readBacking hfills offset n).imp ?_) fun _ _ => trivial
    rintro _ ⟨b, rfl⟩
    exact ⟨hq.rebacked b, rfl⟩

end Access

end Qcow2File

end CloneVmm.Storage
