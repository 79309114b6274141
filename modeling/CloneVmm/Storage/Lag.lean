import CloneVmm.Storage.FlatDisk
import CloneVmm.Storage.Flush

namespace CloneVmm.Storage

open CloneVmm.Lib CloneVmm.Lib.Prog

def Lags (older newer : List Nat) : Prop := ∀ k e : Nat, older[k]? = some e → e = 0 ∨ newer[k]? = some e

namespace Lags

variable {a b c : List Nat}

theorem refl (a : List Nat) : Lags a a := fun _ _ he => Or.inr he

theorem trans (h : Lags a b) (h' : Lags b c) : Lags a c := by
  intro k e he
  rcases h k e he with hzero | hb
  · exact Or.inl hzero
  · exact h' k e hb

theorem of_zero (h : ∀ k e : Nat, a[k]? = some e → e = 0) : Lags a b := fun k e he => Or.inl (h k e he)

theorem set (h : Lags a b) {k : Nat} (hk : b[k]? = some 0) (v : Nat) : Lags a (b.set k v) := by
  intro k' e he
  rcases h k' e he with hzero | hb
  · exact Or.inl hzero
  · by_cases hkk : k' = k
    · subst hkk
      exact Or.inl (Option.some.inj (hb.symm.trans hk))
    · right
      rw [List.getElem?_set_ne (Ne.symm hkk), hb]

theorem mem (h : Lags a b) {e : Nat} (he : e ∈ a) : e = 0 ∨ e ∈ b := by
  obtain ⟨k, hk⟩ := List.mem_iff_getElem?.mp he
  exact (h k e hk).imp_right List.mem_of_getElem?

end Lags

theorem GoodEntry.eq_zero {cs e mask : Nat} (h : GoodEntry cs e) (hcs : 2 ^ 9 ∣ cs)
    (hmask : mask = l1OffsetMask ∨ mask = l2OffsetMask) (hzero : e &&& mask = 0) : e = 0 := by
  rcases h with rfl | ⟨off, hpos, hlt, hdvd, rfl⟩
  · rfl
  · rcases hmask with rfl | rfl
    · rw [and_l1OffsetMask (hcs.trans hdvd) hlt] at hzero
      omega
    · rw [and_l2OffsetMask (hcs.trans hdvd) hlt] at hzero
      omega

namespace Qcow2File

variable {B : Type} {host : Host} {rs rs' : List Nat} {q q' q'' : Qcow2File B} {i off : Nat}

def storedL1 (q : Qcow2File B) : List Nat := tableAt q.file.data q.header.l1TableOffset q.header.l1Size

def storedL2 (q : Qcow2File B) (off : Nat) : List Nat := tableAt q.file.data off q.header.l2EntriesPerTable

structure Lagging (q : Qcow2File B) : Prop where
  l1 : Lags q.storedL1 q.l1Table
  l2 : ∀ i off, q.l2Offset i = some off → Lags (q.storedL2 off) (q.l2View i off)

def Spills (q q' : Qcow2File B) : Prop :=
  ∀ i off, q.l2Offset i = some off → q'.storedL2 off = q.storedL2 off ∨ q'.storedL2 off = q.l2View i off

theorem Spills.trans {P : Owner → Prop} (h : Spills q q') (h' : Spills q' q'') (hframe : Frame P rs q q') :
    Spills q q'' := by
  intro i off hoff
  have hoff' : q'.l2Offset i = some off := by rwa [hframe.l2Offset]
  rcases h' i off hoff' with hsame | hview
  · rw [hsame]
    exact h i off hoff
  · right
    rw [hview, hframe.view i off hoff]

theorem storedL2_of_data (hheader : q'.header = q.header) (hdata : q'.file.data = q.file.data) :
    q'.storedL2 off = q.storedL2 off := by
  rw [storedL2, storedL2, hheader, hdata]

theorem Spills.of_data (hheader : q'.header = q.header) (hdata : q'.file.data = q.file.data) : Spills q q' :=
  fun _ _ _ => Or.inl (storedL2_of_data hheader hdata)

theorem Sound.storedL2_eq (h : Sound host rs q) (hheader : q'.header = q.header)
    (hdata : ∀ k, k < q.header.clusterSize → q'.file.data (off + k) = q.file.data (off + k)) :
    q'.storedL2 off = q.storedL2 off := by
  rw [storedL2, hheader]
  exact h.tableAt_eq hdata

theorem Spills.of_frame {P : Owner → Prop} (h : Sound host rs q) (hframe : Frame P rs q q') (hP : ∀ i, P (.l2 i)) :
    Spills q q' :=
  fun i off hoff => Or.inl (h.storedL2_eq hframe.header (hframe.bytes (.l2 i) off hoff (hP i)))

theorem wp_flushL2Table_spills (h : Sound host rs q) {entry : L2CacheEntry} (hlookup : q.l2Cache.lookup i = some entry) :
    (flushL2Table host i).Wp (fun _ q' => Spills q q') (fun _ _ => False) q := by
  obtain ⟨hoff, hlength, -⟩ := h.cached i entry hlookup
  have hbytes : (tableBytes entry.entries).length = q.header.clusterSize := by
    rw [tableBytes_length, hlength, l2EntriesPerTable_mul h.fits]
  have hin : entry.hostOffset + (tableBytes entry.entries).length ≤ q.file.len := by
    rw [hbytes]
    exact h.placed.inside (o := .l2 i) hoff
  have hregion : ∀ p, entry.hostOffset ≤ p → p < entry.hostOffset + (tableBytes entry.entries).length →
      ∃ o off, o = .l2 i ∧ q.place rs o = some off ∧ off ≤ p ∧ p < off + q.header.clusterSize :=
    fun p hlo hhi => ⟨_, _, rfl, hoff, hlo, by omega⟩
  unfold flushL2Table
  apply wp_get_bind
  apply Wp.bind
  apply wp_orFail hlookup
  split
  · rename_i hdirty
    obtain ⟨-, hquiet⟩ := h.write (P := (· = .l2 i)) entry.hostOffset (tableBytes entry.entries) hregion (by simp)
      (fun i' hi' => by cases hi'; exact ⟨entry, hlookup, hdirty⟩) (by simp) hin
    have hspills : Spills q (q.wrote entry.hostOffset (tableBytes entry.entries)) := by
      intro i' off' hoff'
      by_cases hi : i' = i
      · subst hi
        cases hoff.symm.trans hoff'
        right
        rw [Sound.l2View_of_lookup _ hlookup, storedL2, wrote, HostFile.write_data,
          tableAt_writeBytes (fun e he => (h.entries_good hlookup e he).lt) hlength.ge, ← hlength, List.take_length]
      · left
        exact h.storedL2_eq rfl (hquiet.bytes (.l2 i') off' hoff' fun heq => hi (Owner.l2.inj heq))
    apply Wp.bind
    apply wp_writeAll (hin.trans h.lenLimit)
    exact wp_modifyGet hspills
  · exact wp_pure (.of_data rfl rfl)

theorem wp_makeRoom_spills (h : Sound host rs q) :
    (makeRoom host).Wp (fun _ q' => Spills q q') (fun _ _ => False) q := by
  unfold makeRoom
  apply wp_get_bind
  split
  · unfold evictL2Entry
    apply wp_get_bind
    dsimp only
    cases hvictim : (host.order q.l2Cache).argmin (lastAccessOf q.l2Cache) with
    | none => exact wp_pure (.of_data rfl rfl)
    | some idx =>
      have hmem : idx ∈ q.l2Cache := (host.order_perm q.l2Cache).mem_iff.mp (List.argmin_mem hvictim)
      obtain ⟨entry, hlookup⟩ := Option.isSome_iff_exists.mp (AList.lookup_isSome.mpr hmem)
      exact (wp_flushL2Table_spills h hlookup).seq fun _ _ hspills => wp_modifyGet hspills
  · exact wp_pure (.of_data rfl rfl)

theorem wp_ensureL2Cached_spills (h : Sound host rs q) (hoff : q.l2Offset i = some off) :
    (ensureL2Cached host i off).Wp (fun _ q' => Spills q q') (fun _ _ => False) q := by
  unfold ensureL2Cached
  apply wp_get_bind
  cases q.l2Cache.lookup i with
  | some entry => exact wp_modifyGet (.of_data rfl rfl)
  | none =>
    unfold loadL2Table
    apply Wp.seq ((wp_makeRoom h).and_of_ok (wp_makeRoom_spills h))
    rintro _ q' ⟨⟨hsound, hquiet, -⟩, hspills⟩
    have hoff' : q'.l2Offset i = some off := by rwa [hquiet.toFrame.l2Offset]
    have hin : off + q'.header.l2EntriesPerTable * 8 ≤ q'.file.len := by
      rw [l2EntriesPerTable_mul hsound.fits]
      exact hsound.placed.inside (o := .l2 i) hoff'
    apply wp_get_bind
    rw [readTable_eq hin]
    exact wp_modifyGet hspills

theorem wp_getL2Entry_spills (h : Sound host rs q) (hoff : q.l2Offset i = some off) {l2Index : Nat}
    (hindex : l2Index < q.header.l2EntriesPerTable) :
    (getL2Entry host i off l2Index).Wp (fun _ q' => Spills q q') (fun _ _ => False) q := by
  unfold getL2Entry
  apply Wp.seq ((wp_ensureL2Cached h hoff).and_of_ok (wp_ensureL2Cached_spills h hoff))
  rintro _ q' ⟨⟨-, -, entry, hlookup, hentries⟩, hspills⟩
  have hlt : l2Index < entry.entries.length := by rwa [hentries, h.l2View_length]
  apply wp_get_bind
  apply Wp.bind
  apply wp_orFail hlookup
  exact wp_orFail (List.getElem?_eq_getElem hlt) hspills

theorem wp_translateCluster_spills (h : Sound host rs q) {pos : Nat} (hpos : l1IndexOf q.header pos < q.header.l1Size) :
    (translateCluster host pos).Wp (fun _ q' => Spills q q') (fun _ _ => False) q := by
  have hmod : l1IndexOf q.header pos % 2 ^ 32 = l1IndexOf q.header pos := Nat.mod_eq_of_lt (hpos.trans h.fits.l1Size)
  have hin : l1IndexOf q.header pos < q.l1Table.length := by rwa [h.l1Length]
  have hindex : l2IndexOf q.header pos < q.header.l2EntriesPerTable := Nat.mod_lt _ (l2EntriesPerTable_pos h.fits)
  have hentry := List.getElem?_eq_getElem hin
  unfold translateCluster
  apply wp_get_bind
  dsimp only
  rw [hmod, if_pos hpos]
  apply Wp.bind
  apply wp_orFail hentry
  split
  · exact wp_pure (.of_data rfl rfl)
  · rename_i hne
    have hoff : q.l2Offset (l1IndexOf q.header pos) = some (q.l1Table[l1IndexOf q.header pos] &&& l1OffsetMask) := by
      rw [l2Offset, hentry, Option.bind_some, if_neg hne]
    apply Wp.seq ((wp_getL2Entry h hoff hindex).and_of_ok (wp_getL2Entry_spills h hoff hindex))
    rintro e q' ⟨⟨he, -, -⟩, hspills⟩
    have hgood := h.l2Good _ _ hoff e (List.mem_of_getElem? he)
    rw [hgood.hostOffsetOf (dvd_clusterSize h.fits)]
    exact wp_pure hspills

structure Recorded (q q' : Qcow2File B) : Prop where
  lagging : Lagging q'
  entries : q'.header.l2EntriesPerTable = q.header.l2EntriesPerTable
  l1 : Lags q.storedL1 q'.storedL1
  l2 : ∀ i off, q.l2Offset i = some off → q'.l2Offset i = some off ∧ Lags (q.storedL2 off) (q'.storedL2 off)
  dataOffset : ∀ g off, q.dataOffset g = some off → q'.dataOffset g = some off

theorem storedL1_eq (hoffset : q'.header.l1TableOffset = q.header.l1TableOffset)
    (hsize : q'.header.l1Size = q.header.l1Size)
    (hbytes : ∀ i off, q.place rs (.l1 i) = some off →
      ∀ k, k < q.header.clusterSize → q'.file.data (off + k) = q.file.data (off + k)) :
    q'.storedL1 = q.storedL1 := by
  have hmul := q.l1Clusters_mul
  unfold storedL1
  rw [hoffset, hsize]
  apply tableAt_congr
  intro p hlo hhi
  obtain ⟨i, hi, k, hk, rfl⟩ := exists_row_index (n := q.l1Clusters) (clusterSize_pos q.header) hlo (by omega)
  exact hbytes i _ (if_pos hi) k hk

theorem Sound.l1Entry_zero (h : Sound host rs q) (hi : i < q.header.l1Size) (hnone : q.l2Offset i = none) :
    q.l1Table[i]? = some 0 := by
  have hin : i < q.l1Table.length := by rwa [h.l1Length]
  have hentry := List.getElem?_eq_getElem hin
  rw [l2Offset, hentry, Option.bind_some, ite_eq_left_iff] at hnone
  have hzero : q.l1Table[i] &&& l1OffsetMask = 0 := by
    by_contra hne
    cases hnone hne
  rw [hentry, (h.l1Good _ (List.getElem_mem hin)).eq_zero (dvd_clusterSize h.fits) (Or.inl rfl) hzero]

theorem Sound.l2Entry_zero (h : Sound host rs q) {g : Nat} {entry : L2CacheEntry}
    (hlookup : q.l2Cache.lookup (g / q.header.l2EntriesPerTable) = some entry) (hnone : q.dataOffset g = none) :
    entry.entries[g % q.header.l2EntriesPerTable]? = some 0 := by
  obtain ⟨hoff, hlength, -⟩ := h.cached _ entry hlookup
  have hin : g % q.header.l2EntriesPerTable < entry.entries.length := by
    rw [hlength]
    exact Nat.mod_lt _ (l2EntriesPerTable_pos h.fits)
  have hentry := List.getElem?_eq_getElem hin
  rw [dataOffset_of_entry hoff (by rw [Sound.l2View_of_lookup _ hlookup, hentry]), ite_eq_left_iff] at hnone
  have hzero : entry.entries[g % q.header.l2EntriesPerTable] &&& l2OffsetMask = 0 := by
    by_contra hne
    cases hnone hne
  have hgood := h.entries_good hlookup _ (List.getElem_mem hin)
  rw [hentry, hgood.eq_zero (dvd_clusterSize h.fits) (Or.inr rfl) hzero]

namespace Recorded

theorem refl (h : Lagging q) : Recorded q q := ⟨h, rfl, .refl _, fun _ _ hoff => ⟨hoff, .refl _⟩, fun _ _ hoff => hoff⟩

theorem trans (h : Recorded q q') (h' : Recorded q' q'') : Recorded q q'' where
  lagging := h'.lagging
  entries := h'.entries.trans h.entries
  l1 := h.l1.trans h'.l1
  l2 i off hoff := by
    obtain ⟨hoff', hlags⟩ := h.l2 i off hoff
    obtain ⟨hoff'', hlags'⟩ := h'.l2 i off hoff'
    exact ⟨hoff'', hlags.trans hlags'⟩
  dataOffset g off hoff := h'.dataOffset g off (h.dataOffset g off hoff)

theorem of_spills (h : Lagging q) (hentries : q'.header.l2EntriesPerTable = q.header.l2EntriesPerTable)
    (hl1 : q'.l1Table = q.l1Table) (hstored : q'.storedL1 = q.storedL1)
    (hview : ∀ i off, q.l2Offset i = some off → q'.l2View i off = q.l2View i off)
    (hdata : q'.dataOffset = q.dataOffset) (hspills : Spills q q') : Recorded q q' := by
  have hoffset : q'.l2Offset = q.l2Offset := by
    funext i
    rw [l2Offset, l2Offset, hl1]
  refine ⟨⟨?_, ?_⟩, hentries, ?_, ?_, ?_⟩
  · rw [hl1, hstored]
    exact h.l1
  · intro i off hoff
    rw [hoffset] at hoff
    rw [hview i off hoff]
    rcases hspills i off hoff with hsame | hwritten
    · rw [hsame]
      exact h.l2 i off hoff
    · rw [hwritten]
      exact .refl _
  · rw [hstored]
    exact .refl _
  · intro i off hoff
    refine ⟨by rwa [hoffset], ?_⟩
    rcases hspills i off hoff with hsame | hwritten
    · rw [hsame]
      exact .refl _
    · rw [hwritten]
      exact h.l2 i off hoff
  · intro g off hoff
    rwa [hdata]

theorem of_frame {P : Owner → Prop} (h : Lagging q) (hframe : Frame P rs q q') (hP : ∀ i, P (.l1 i))
    (hspills : Spills q q') : Recorded q q' := by
  have hstored : q'.storedL1 = q.storedL1 :=
    storedL1_eq (by rw [hframe.header]) (by rw [hframe.header]) fun i off hoff => hframe.bytes (.l1 i) off hoff (hP i)
  exact of_spills h (by rw [hframe.header]) hframe.l1Table hstored hframe.view hframe.dataOffset hspills

theorem of_data {P : Owner → Prop} (h : Lagging q) (hsound : Sound host rs q) (hframe : Frame P rs q q')
    (hl1 : ∀ i, P (.l1 i)) (hl2 : ∀ i, P (.l2 i)) : Recorded q q' :=
  of_frame h hframe hl1 (.of_frame hsound hframe hl2)

theorem of_moves (h : Lagging q) (hsound : Sound host [] q) (hmoves : Moves q q') : Recorded q q' := by
  obtain ⟨off', n, hheader⟩ := hmoves.header
  have hentries : q'.header.l2EntriesPerTable = q.header.l2EntriesPerTable := by
    rw [hheader]
    rfl
  have hstored : q'.storedL1 = q.storedL1 :=
    storedL1_eq (by rw [hheader]; rfl) (by rw [hheader]; rfl) fun i off hoff => hmoves.bytes (.l1 i) off rfl hoff
  refine of_spills h hentries hmoves.l1Table hstored (fun i off => hmoves.l2View hsound.fits)
    (hmoves.dataOffset hsound.fits) fun i off hoff => Or.inl ?_
  rw [storedL2, hentries]
  exact hsound.tableAt_eq (hmoves.bytes (.l2 i) off rfl hoff)

theorem withL2Table (h : Lagging q) (hsound : Sound host (rs ++ [off]) q) (hlimit : host.limit ≤ 2 ^ 54)
    (hi : i < q.header.l1Size) (hnone : q.l2Offset i = none)
    (hblank : ∀ k, k < q.header.clusterSize → q.file.data (off + k) = 0) : Recorded q (q.withL2Table i off) := by
  obtain ⟨hdvd, hlt, hne⟩ := hsound.reserved_bounds hlimit
  have hself : (q.withL2Table i off).l2Offset i = some off :=
    withL2Table_l2Offset_self (by rwa [hsound.l1Length]) ((dvd_clusterSize hsound.fits).trans hdvd) hlt hne
  have hzero : ∀ k e : Nat, (q.storedL2 off)[k]? = some e → e = 0 := by
    intro k e he
    have hmul := l2EntriesPerTable_mul hsound.fits
    have hblank' : ∀ p, off ≤ p → p < off + q.header.l2EntriesPerTable * 8 → q.file.data p = 0 := by
      intro p hlo hhi
      obtain ⟨d, rfl⟩ := Nat.exists_eq_add_of_le hlo
      exact hblank d (by omega)
    have hget := tableAt_zero hblank' k
    rw [List.getD_eq_getElem?_getD] at hget
    rw [storedL2] at he
    rwa [he, Option.getD_some] at hget
  refine ⟨⟨h.l1.set (hsound.l1Entry_zero hi hnone) _, fun i' off' hoff' => ?_⟩, rfl, .refl _,
    fun i' off' hoff' => ⟨?_, .refl _⟩, fun g off' hoff' => ?_⟩
  · by_cases hii : i' = i
    · subst hii
      cases hself.symm.trans hoff'
      exact .of_zero hzero
    · rw [withL2Table_l2View_ne hii]
      exact h.l2 i' off' (by rwa [withL2Table_l2Offset_ne hii] at hoff')
  · have hii : i' ≠ i := by
      rintro rfl
      rw [hnone] at hoff'
      cases hoff'
    rwa [withL2Table_l2Offset_ne hii]
  · rwa [withL2Table_dataOffset hnone]

theorem withEntry (h : Lagging q) (hsound : Sound host (rs ++ [off]) q) (hlimit : host.limit ≤ 2 ^ 54) {g : Nat}
    {entry : L2CacheEntry} (hlookup : q.l2Cache.lookup (g / q.header.l2EntriesPerTable) = some entry)
    (hnone : q.dataOffset g = none) : Recorded q (q.withEntry g entry (off ||| l2FlagCopied)) := by
  refine ⟨⟨h.l1, fun i' off' hoff' => ?_⟩, rfl, .refl _, fun i' off' hoff' => ⟨hoff', .refl _⟩, fun g' off' hoff' => ?_⟩
  · by_cases hi : i' = g / q.header.l2EntriesPerTable
    · subst hi
      rw [withEntry_l2View_self]
      have hlags := h.l2 _ off' hoff'
      rw [Sound.l2View_of_lookup _ hlookup] at hlags
      exact hlags.set (hsound.l2Entry_zero hlookup hnone) _
    · rw [withEntry_l2View_ne hi]
      exact h.l2 i' off' hoff'
  · have hg : g' ≠ g := by
      rintro rfl
      rw [hnone] at hoff'
      cases hoff'
    rw [withEntry_dataOffset hsound hlimit hlookup, Function.update_of_ne hg, hoff']

end Recorded

end Qcow2File

end CloneVmm.Storage
