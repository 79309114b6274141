import CloneVmm.Storage.L2Cache

namespace CloneVmm.Storage

open CloneVmm.Lib CloneVmm.Lib.Prog

def Owner.isContent : Owner → Bool
  | header | data _ | reserved _ => true
  | _ => false

namespace Qcow2File

variable {B : Type} {host : Host} {rs rs' : List Nat} {q q' q'' : Qcow2File B} {i off : Nat}

structure Kept (rs : List Nat) (q q' : Qcow2File B) : Prop where
  header : q'.header = q.header
  backing : q'.backing = q.backing
  bytes : ∀ o off, o.isContent = true → q.place rs o = some off →
    ∀ k, k < q.header.clusterSize → q'.file.data (off + k) = q.file.data (off + k)

structure Same (rs : List Nat) (q q' : Qcow2File B) : Prop extends Kept rs q q' where
  dataOffset : q'.dataOffset = q.dataOffset

namespace Same

theorem refl (rs : List Nat) (q : Qcow2File B) : Same rs q q := ⟨⟨rfl, rfl, fun _ _ _ _ _ _ => rfl⟩, rfl⟩

theorem place (h : Same rs q q') {o : Owner} (ho : o.isContent = true) : q'.place rs o = q.place rs o := by
  cases o with
  | header | reserved i => rfl
  | data g => exact congrFun h.dataOffset g
  | l1 i | refcountTable i | refcountBlock i | l2 i => cases ho

theorem kept_trans (h : Same rs q q') (h' : Kept rs q' q'') : Kept rs q q'' where
  header := h'.header.trans h.header
  backing := h'.backing.trans h.backing
  bytes o off ho hoff k hk := by
    rw [h'.bytes o off ho (by rw [h.place ho, hoff]) k (by rwa [h.header]), h.bytes o off ho hoff k hk]

theorem trans (h : Same rs q q') (h' : Same rs q' q'') : Same rs q q'' :=
  ⟨h.kept_trans h'.toKept, h'.dataOffset.trans h.dataOffset⟩

theorem restrict (h : Same (rs ++ rs') q q') : Same rs q q' where
  header := h.header
  backing := h.backing
  bytes o off ho hoff := by
    apply h.bytes o off ho
    rw [place_append, hoff]
    rintro i rfl
    exact (List.getElem?_eq_some_iff.mp hoff).1
  dataOffset := h.dataOffset

theorem of_frame {P : Owner → Prop} (h : Frame P rs q q')
    (hP : ∀ o off, o.isContent = true → q.place rs o = some off → P o) : Same rs q q' :=
  ⟨⟨h.header, h.backing, fun o off ho hoff => h.bytes o off hoff (hP o off ho hoff)⟩, h.dataOffset⟩

theorem of_grown (h : Grown rs q q') : Same rs q q' := by
  apply of_frame h.toFrame
  intro o off ho _
  cases o with
  | refcountBlock i => cases ho
  | header | l1 i | refcountTable i | l2 i | data g | reserved i => rfl

theorem of_quiet (h : Quiet (fun o => o.isL2 = false) rs q q') : Same rs q q' := by
  apply of_frame h.toFrame
  intro o off ho _
  cases o with
  | l2 i => cases ho
  | header | l1 i | refcountTable i | refcountBlock i | data g | reserved i => rfl

theorem byteAt (h : Same rs q q') (base : ByteStore) : q'.byteAt base = q.byteAt base := by
  funext pos
  unfold Qcow2File.byteAt
  rw [h.header, h.dataOffset]
  cases hoff : q.dataOffset (pos / q.header.clusterSize) with
  | none => rfl
  | some off => exact h.bytes (.data _) off rfl hoff _ (Nat.mod_lt _ (clusterSize_pos _))

end Same

structure Start (q q' : Qcow2File B) : Prop where
  header : q'.header = q.header
  backing : q'.backing = q.backing
  bytes : ∀ k, k < q.header.clusterSize → q'.file.data k = q.file.data k

namespace Start

theorem refl (q : Qcow2File B) : Start q q := ⟨rfl, rfl, fun _ _ => rfl⟩

theorem trans (h : Start q q') (h' : Start q' q'') : Start q q'' where
  header := h'.header.trans h.header
  backing := h'.backing.trans h.backing
  bytes k hk := by rw [h'.bytes k (by rwa [h.header]), h.bytes k hk]

theorem of_kept (h : Kept rs q q') : Start q q' where
  header := h.header
  backing := h.backing
  bytes k hk := by
    have := h.bytes .header 0 rfl rfl k hk
    rwa [Nat.zero_add] at this

end Start

structure Lost (host : Host) (rs : List Nat) (q : Qcow2File B) (e : Qcow2Error) (q' : Qcow2File B) : Prop
    extends Same rs q q' where
  refused : e = .refused
  full : host.limit < q'.nextAllocOffset
  sound : Sound host rs q'
  tableOk : TableOk host q'

theorem Failed.lost {e : Qcow2Error} (h : Failed host rs q e q') : Lost host rs q e q' :=
  ⟨.of_grown h.toGrown, h.refused, h.full, h.sound, h.tableOk⟩

def withL2Table (q : Qcow2File B) (i off : Nat) : Qcow2File B :=
  { q with
    l1Table := q.l1Table.set i (off ||| l2FlagCopied)
    accessCounter := q.accessCounter + 1
    l2Cache := q.l2Cache.insert i
      ⟨List.replicate q.header.l2EntriesPerTable 0, true, off, q.accessCounter + 1⟩ }

section NewTable

theorem withL2Table_l2Offset_ne {i' : Nat} (h : i' ≠ i) : (q.withL2Table i off).l2Offset i' = q.l2Offset i' := by
  simp only [withL2Table, l2Offset, List.getElem?_set_ne (Ne.symm h)]

theorem withL2Table_l2Offset_self (hi : i < q.l1Table.length) (hdvd : 2 ^ 9 ∣ off) (hlt : off < 2 ^ 56) (hne : off ≠ 0) :
    (q.withL2Table i off).l2Offset i = some off := by
  simp only [withL2Table, l2Offset, List.getElem?_set_self hi, Option.bind_some, and_l1OffsetMask hdvd hlt, if_neg hne]

theorem withL2Table_lookup_ne {i' : Nat} (h : i' ≠ i) :
    (q.withL2Table i off).l2Cache.lookup i' = q.l2Cache.lookup i' := AList.lookup_insert_ne h

theorem withL2Table_lookup_self :
    (q.withL2Table i off).l2Cache.lookup i =
      some ⟨List.replicate q.header.l2EntriesPerTable 0, true, off, q.accessCounter + 1⟩ := AList.lookup_insert _

theorem withL2Table_l2View_ne {i' off' : Nat} (h : i' ≠ i) : (q.withL2Table i off).l2View i' off' = q.l2View i' off' := by
  rw [l2View, l2View, withL2Table_lookup_ne h]
  rfl

theorem withL2Table_l2View_self {off' : Nat} :
    (q.withL2Table i off).l2View i off' = List.replicate q.header.l2EntriesPerTable 0 := by
  rw [l2View, withL2Table_lookup_self]

theorem withL2Table_dataOffset (hnone : q.l2Offset i = none) : (q.withL2Table i off).dataOffset = q.dataOffset := by
  funext g
  unfold dataOffset
  change ((q.withL2Table i off).l2Offset (g / q.header.l2EntriesPerTable)).bind (fun off' =>
    (((q.withL2Table i off).l2View (g / q.header.l2EntriesPerTable) off')[g % q.header.l2EntriesPerTable]?).bind _) = _
  by_cases hi : g / q.header.l2EntriesPerTable = i
  · rw [hi, hnone]
    cases (q.withL2Table i off).l2Offset i with
    | none => rfl
    | some off' =>
      rw [Option.bind_some, withL2Table_l2View_self, List.getElem?_replicate]
      split
      · rfl
      · rfl
  · rw [withL2Table_l2Offset_ne hi]
    cases q.l2Offset (g / q.header.l2EntriesPerTable) with
    | none => rfl
    | some off' => rw [Option.bind_some, Option.bind_some, withL2Table_l2View_ne hi]

theorem withL2Table_place (hnone : q.l2Offset i = none) {o : Owner} (ho : o ≠ .l2 i) (hr : o ≠ .reserved rs.length) :
    (q.withL2Table i off).place rs o = q.place (rs ++ [off]) o := by
  rw [place_snoc hr]
  cases o with
  | l2 i' => exact withL2Table_l2Offset_ne fun heq => ho (by rw [heq])
  | data g => exact congrFun (withL2Table_dataOffset hnone) g
  | header | l1 i | refcountTable i | refcountBlock i | reserved i => rfl

theorem Sound.reserved_bounds (h : Sound host (rs ++ [off]) q) (hlimit : host.limit ≤ 2 ^ 54) :
    q.header.clusterSize ∣ off ∧ off < 2 ^ 56 ∧ off ≠ 0 := by
  have hplace : q.place (rs ++ [off]) (.reserved rs.length) = some off := place_snoc_last
  have hin := h.placed.inside hplace
  have hlen := h.lenLimit
  have hcs := clusterSize_pos q.header
  exact ⟨h.placed.aligned hplace, by omega, h.reserved_ne_zero⟩

theorem goodEntry_flagged (hdvd : q.header.clusterSize ∣ off) (hlt : off < 2 ^ 56) (hne : off ≠ 0) :
    GoodEntry q.header.clusterSize (off ||| l2FlagCopied) :=
  Or.inr ⟨off, Nat.pos_of_ne_zero hne, hlt, hdvd, rfl⟩

theorem Sound.withL2Table (h : Sound host (rs ++ [off]) q) (hlimit : host.limit ≤ 2 ^ 54) (hi : i < q.header.l1Size)
    (hnone : q.l2Offset i = none) : Sound host rs (q.withL2Table i off) := by
  obtain ⟨hdvd, hlt, hne⟩ := h.reserved_bounds hlimit
  have hi' : i < q.l1Table.length := by rwa [h.l1Length]
  have hself := withL2Table_l2Offset_self hi' ((dvd_clusterSize h.fits).trans hdvd) hlt hne
  refine ⟨h.fits, h.onDisk, ?_, ?_, ?_, ?_, h.l1Inside, h.tableInside, h.stored, ?_, h.lenLe, h.nextAligned, h.lenLimit⟩
  · exact (List.length_set).trans h.l1Length
  · intro e he
    rcases List.mem_or_eq_of_mem_set he with he | rfl
    · exact h.l1Good e he
    · exact goodEntry_flagged hdvd hlt hne
  · intro i' off' hoff' e he
    by_cases hii : i' = i
    · subst hii
      rw [withL2Table_l2View_self] at he
      exact Or.inl (List.eq_of_mem_replicate he)
    · rw [withL2Table_l2Offset_ne hii] at hoff'
      rw [withL2Table_l2View_ne hii] at he
      exact h.l2Good i' off' hoff' e he
  · intro i' entry hentry
    by_cases hii : i' = i
    · subst hii
      rw [withL2Table_lookup_self] at hentry
      cases hentry
      exact ⟨hself, List.length_replicate, fun hdirty => by cases hdirty⟩
    · rw [withL2Table_lookup_ne hii] at hentry
      obtain ⟨hoff', hlength, hclean⟩ := h.cached i' entry hentry
      exact ⟨by rw [withL2Table_l2Offset_ne hii, hoff'], hlength, hclean⟩
  · apply h.placed.hand (o := .l2 i) (r := .reserved rs.length)
    · rw [place_snoc_last]
      exact hself
    · exact place_reserved_none
    · exact fun o ho hr => withL2Table_place hnone ho hr

end NewTable

theorem Lost.restrict {e : Qcow2Error} (h : Lost host (rs ++ rs') q e q') : Lost host rs q e q' :=
  ⟨h.toSame.restrict, h.refused, h.full, h.sound.forget, h.tableOk⟩

theorem Same.lost {e : Qcow2Error} (h : Same rs q q') (h' : Lost host rs q' e q'') : Lost host rs q e q'' :=
  ⟨h.trans h'.toSame, h'.refused, h'.full, h'.sound, h'.tableOk⟩

structure Ready (host : Host) (rs : List Nat) (i : Nat) (q q' : Qcow2File B) : Prop extends Same rs q q' where
  sound : Sound host rs q'
  tableOk : TableOk host q'
  cached : ∃ entry, q'.l2Cache.lookup i = some entry

theorem wp_newL2Table (hlimit : host.limit ≤ 2 ^ 54) (h : Sound host rs q) (htable : TableOk host q)
    (hi : i < q.header.l1Size) (hnone : q.l2Offset i = none) :
    (newL2Table host i).Wp (fun _ => Ready host rs i q) (Lost host rs q) q := by
  have hmod : i % 2 ^ 32 = i := Nat.mod_eq_of_lt (hi.trans h.fits.l1Size)
  unfold newL2Table
  rw [hmod]
  refine Wp.seq (Q := Allocated host rs q) ?_ ?_
  · apply (wp_allocCluster h htable).mono
    · exact fun _ _ hq' => hq'
    · exact fun _ _ hq' => hq'.lost
  · intro off q' hq'
    have hnone' : q'.l2Offset i = none := by rw [hq'.toFrame.l2Offset, hnone]
    have hi' : i < q'.header.l1Size := by rwa [hq'.header]
    have hsame : Same rs q' (q'.withL2Table i off) :=
      ⟨⟨rfl, rfl, fun _ _ _ _ _ _ => rfl⟩, withL2Table_dataOffset hnone'⟩
    apply wp_modifyGet
    exact ⟨(Same.of_grown hq'.toGrown).trans hsame, hq'.sound.withL2Table hlimit hi' hnone',
      ⟨hq'.tableOk.upper, hq'.tableOk.lower⟩, _, withL2Table_lookup_self⟩

theorem wp_ensureL2Table (hlimit : host.limit ≤ 2 ^ 54) (h : Sound host rs q) (htable : TableOk host q) {e : Nat}
    (he : q.l1Table[i]? = some e) : (ensureL2Table host i e).Wp (fun _ => Ready host rs i q) (Lost host rs q) q := by
  have hi : i < q.header.l1Size := by
    rw [← h.l1Length]
    exact (List.getElem?_eq_some_iff.mp he).1
  have hmod : i % 2 ^ 32 = i := Nat.mod_eq_of_lt (hi.trans h.fits.l1Size)
  unfold ensureL2Table
  split
  · rename_i hzero
    apply wp_newL2Table hlimit h htable hi
    rw [l2Offset, he, Option.bind_some, if_pos hzero]
  · rename_i hne
    have hoff : q.l2Offset i = some (e &&& l1OffsetMask) := by rw [l2Offset, he, Option.bind_some, if_neg hne]
    rw [hmod]
    apply (wp_ensureL2Cached h hoff).mono
    · rintro _ q' ⟨hsound, hquiet, entry, hlookup, -⟩
      exact ⟨.of_quiet hquiet, hsound, htable.quiet hquiet, entry, hlookup⟩
    · exact fun _ _ hfalse => hfalse.elim

def withEntry (q : Qcow2File B) (g : Nat) (entry : L2CacheEntry) (value : Nat) : Qcow2File B :=
  q.withCache (q.l2Cache.insert (g / q.header.l2EntriesPerTable)
    { entry with entries := entry.entries.set (g % q.header.l2EntriesPerTable) value, dirty := true }) q.accessCounter

section Entry

variable {g : Nat} {entry : L2CacheEntry} {value : Nat}

theorem withEntry_l2View_ne {i' off' : Nat} (h : i' ≠ g / q.header.l2EntriesPerTable) :
    (q.withEntry g entry value).l2View i' off' = q.l2View i' off' := by
  unfold l2View withEntry withCache
  dsimp only
  rw [AList.lookup_insert_ne h]

theorem withEntry_l2View_self {off' : Nat} :
    (q.withEntry g entry value).l2View (g / q.header.l2EntriesPerTable) off' =
      entry.entries.set (g % q.header.l2EntriesPerTable) value := by
  unfold l2View withEntry withCache
  dsimp only
  rw [AList.lookup_insert]

theorem withEntry_dataOffset (h : Sound host (rs ++ [off]) q) (hlimit : host.limit ≤ 2 ^ 54)
    (hlookup : q.l2Cache.lookup (g / q.header.l2EntriesPerTable) = some entry) :
    (q.withEntry g entry (off ||| l2FlagCopied)).dataOffset = Function.update q.dataOffset g (some off) := by
  obtain ⟨hdvd, hlt, hne⟩ := h.reserved_bounds hlimit
  obtain ⟨hoff, hlength, -⟩ := h.cached _ entry hlookup
  have hmask := and_l2OffsetMask ((dvd_clusterSize h.fits).trans hdvd) hlt
  have hpos := l2EntriesPerTable_pos h.fits
  have hview := fun off' => Sound.l2View_of_lookup off' hlookup
  funext g'
  by_cases hi : g' / q.header.l2EntriesPerTable = g / q.header.l2EntriesPerTable
  · have hoff'' : q.l2Offset (g' / q.header.l2EntriesPerTable) = some entry.hostOffset := by rw [hi, hoff]
    have hoff' : (q.withEntry g entry (off ||| l2FlagCopied)).l2Offset (g' / q.header.l2EntriesPerTable) =
        some entry.hostOffset := hoff''
    have hlt' : g' % q.header.l2EntriesPerTable < entry.entries.length := by
      rw [hlength]
      exact Nat.mod_lt _ hpos
    by_cases hg : g' = g
    · subst hg
      rw [Function.update_self]
      have hnew : ((q.withEntry g' entry (off ||| l2FlagCopied)).l2View (g' / q.header.l2EntriesPerTable)
          entry.hostOffset)[g' % q.header.l2EntriesPerTable]? = some (off ||| l2FlagCopied) := by
        rw [withEntry_l2View_self, List.getElem?_set_self hlt']
      refine (dataOffset_of_entry hoff' hnew).trans ?_
      rw [hmask, if_neg hne]
    · have hmod : g % q.header.l2EntriesPerTable ≠ g' % q.header.l2EntriesPerTable := by
        intro hmod
        apply hg
        rw [← Nat.div_add_mod g' q.header.l2EntriesPerTable, ← Nat.div_add_mod g q.header.l2EntriesPerTable, hi, hmod]
      rw [Function.update_of_ne hg]
      have he := List.getElem?_eq_getElem hlt'
      have hold : (q.l2View (g' / q.header.l2EntriesPerTable) entry.hostOffset)[g' % q.header.l2EntriesPerTable]? =
          some entry.entries[g' % q.header.l2EntriesPerTable] := by
        rw [hi, hview, he]
      have hnew : ((q.withEntry g entry (off ||| l2FlagCopied)).l2View (g' / q.header.l2EntriesPerTable)
          entry.hostOffset)[g' % q.header.l2EntriesPerTable]? =
            some entry.entries[g' % q.header.l2EntriesPerTable] := by
        rw [hi, withEntry_l2View_self, List.getElem?_set_ne hmod, he]
      exact (dataOffset_of_entry hoff' hnew).trans (dataOffset_of_entry hoff'' hold).symm
  · have hg : g' ≠ g := fun heq => hi (by rw [heq])
    rw [Function.update_of_ne hg]
    unfold dataOffset
    change (q.l2Offset (g' / q.header.l2EntriesPerTable)).bind (fun off' =>
      (((q.withEntry g entry _).l2View (g' / q.header.l2EntriesPerTable) off')[g' % q.header.l2EntriesPerTable]?).bind _) = _
    cases q.l2Offset (g' / q.header.l2EntriesPerTable) with
    | none => rfl
    | some off' => rw [Option.bind_some, Option.bind_some, withEntry_l2View_ne hi]

theorem withEntry_place (h : Sound host (rs ++ [off]) q) (hlimit : host.limit ≤ 2 ^ 54)
    (hlookup : q.l2Cache.lookup (g / q.header.l2EntriesPerTable) = some entry) {o : Owner} (ho : o ≠ .data g)
    (hr : o ≠ .reserved rs.length) :
    (q.withEntry g entry (off ||| l2FlagCopied)).place rs o = q.place (rs ++ [off]) o := by
  rw [place_snoc hr]
  cases o with
  | data g' =>
    have hg : g' ≠ g := fun heq => ho (by rw [heq])
    exact (congrFun (withEntry_dataOffset h hlimit hlookup) g').trans (Function.update_of_ne hg ..)
  | header | l1 i | refcountTable i | refcountBlock i | l2 i | reserved i => rfl

theorem Sound.withEntry (h : Sound host (rs ++ [off]) q) (hlimit : host.limit ≤ 2 ^ 54)
    (hlookup : q.l2Cache.lookup (g / q.header.l2EntriesPerTable) = some entry) :
    Sound host rs (q.withEntry g entry (off ||| l2FlagCopied)) := by
  obtain ⟨hdvd, hlt, hne⟩ := h.reserved_bounds hlimit
  obtain ⟨hoff, hlength, -⟩ := h.cached _ entry hlookup
  have hdata := withEntry_dataOffset h hlimit hlookup
  refine ⟨h.fits, h.onDisk, h.l1Length, h.l1Good, ?_, ?_, h.l1Inside, h.tableInside, h.stored, ?_, h.lenLe,
    h.nextAligned, h.lenLimit⟩
  · intro i' off' hoff' e he
    by_cases hi : i' = g / q.header.l2EntriesPerTable
    · subst hi
      rw [withEntry_l2View_self] at he
      rcases List.mem_or_eq_of_mem_set he with he | rfl
      · exact h.entries_good hlookup e he
      · exact goodEntry_flagged hdvd hlt hne
    · rw [withEntry_l2View_ne hi] at he
      exact h.l2Good i' off' hoff' e he
  · intro i' entry' hentry'
    by_cases hi : i' = g / q.header.l2EntriesPerTable
    · subst hi
      cases (AList.lookup_insert _).symm.trans hentry'
      exact ⟨hoff, (List.length_set).trans hlength, fun hdirty => by cases hdirty⟩
    · exact h.cached i' entry' ((AList.lookup_insert_ne hi).symm.trans hentry')
  · apply h.placed.hand (o := .data g) (r := .reserved rs.length)
    · rw [place_snoc_last]
      exact (congrFun hdata g).trans (Function.update_self ..)
    · exact place_reserved_none
    · exact fun o ho hr => withEntry_place h hlimit hlookup ho hr

end Entry

structure Mapped (host : Host) (rs : List Nat) (g off : Nat) (q q' : Qcow2File B) : Prop extends Kept (rs ++ [off]) q q' where
  dataOffset : q'.dataOffset = Function.update q.dataOffset g (some off)
  sound : Sound host rs q'
  tableOk : TableOk host q'

namespace Mapped

variable {g : Nat} {base : ByteStore} {p : Nat}

theorem byteAt_ne (h : Mapped host rs g off q q') (hp : p / q.header.clusterSize ≠ g) :
    q'.byteAt base p = q.byteAt base p := by
  have hoff' : q'.dataOffset (p / q'.header.clusterSize) = q.dataOffset (p / q.header.clusterSize) := by
    rw [h.header, h.dataOffset, Function.update_of_ne hp]
  cases hoff : q.dataOffset (p / q.header.clusterSize) with
  | none => rw [byteAt_none hoff, byteAt_none (hoff'.trans hoff)]
  | some off' =>
    rw [byteAt_some hoff, byteAt_some (hoff'.trans hoff), h.header]
    exact h.bytes (.data _) off' rfl hoff _ (Nat.mod_lt _ (clusterSize_pos _))

theorem byteAt_self (h : Mapped host rs g off q q') (hp : p / q.header.clusterSize = g) :
    q'.byteAt base p = q.file.data (off + p % q.header.clusterSize) := by
  have hoff' : q'.dataOffset (p / q'.header.clusterSize) = some off := by
    rw [h.header, hp, h.dataOffset, Function.update_self]
  rw [byteAt_some hoff', h.header]
  exact h.bytes (.reserved rs.length) off rfl place_snoc_last _ (Nat.mod_lt _ (clusterSize_pos _))

end Mapped

theorem wp_updateL2Entry (h : Sound host rs q) {pos : Nat} {entry : L2CacheEntry}
    (hlookup : q.l2Cache.lookup (l1IndexOf q.header pos) = some entry) (value : Nat) :
    (updateL2Entry (l1IndexOf q.header pos) (l2IndexOf q.header pos) value).Wp
      (fun _ q' => q' = q.withEntry (pos / q.header.clusterSize) entry value) (fun _ _ => False) q := by
  have hindex : l2IndexOf q.header pos < entry.entries.length := by
    rw [(h.cached _ entry hlookup).2.1]
    exact Nat.mod_lt _ (l2EntriesPerTable_pos h.fits)
  unfold updateL2Entry
  apply wp_get_bind
  apply Wp.bind
  apply wp_orFail hlookup
  rw [if_pos hindex]
  exact wp_modifyGet rfl

theorem wp_setL2Entry (hlimit : host.limit ≤ 2 ^ 54) (h : Sound host (rs ++ [off]) q) (htable : TableOk host q) {pos : Nat}
    (hpos : l1IndexOf q.header pos < q.header.l1Size) :
    (setL2Entry host pos (off ||| l2FlagCopied)).Wp
      (fun _ => Mapped host rs (pos / q.header.clusterSize) off q) (Lost host rs q) q := by
  have hmod : l1IndexOf q.header pos % 2 ^ 32 = l1IndexOf q.header pos := Nat.mod_eq_of_lt (hpos.trans h.fits.l1Size)
  have hentry : q.l1Table[l1IndexOf q.header pos]? = some _ :=
    List.getElem?_eq_getElem (by rwa [h.l1Length])
  unfold setL2Entry
  apply wp_get_bind
  dsimp only
  rw [hmod]
  apply Wp.bind
  apply wp_orFail hentry
  refine Wp.seq (Q := fun _ => Ready host (rs ++ [off]) (l1IndexOf q.header pos) q) ?_ ?_
  · apply (wp_ensureL2Table hlimit h htable hentry).mono
    · exact fun _ _ hq' => hq'
    · exact fun _ _ hq' => hq'.restrict
  · intro _ q' hq'
    obtain ⟨entry, hlookup⟩ := hq'.cached
    rw [← hq'.header] at hlookup
    have hupdate := wp_updateL2Entry hq'.sound hlookup (off ||| l2FlagCopied)
    rw [hq'.header] at hupdate
    apply hupdate.mono
    · rintro _ _ rfl
      have hkept : Kept (rs ++ [off]) q' (q'.withEntry (pos / q.header.clusterSize) entry (off ||| l2FlagCopied)) :=
        ⟨rfl, rfl, fun _ _ _ _ _ _ => rfl⟩
      have hlookup' : q'.l2Cache.lookup (pos / q.header.clusterSize / q'.header.l2EntriesPerTable) = some entry := by
        rw [← hlookup, hq'.header]
        rfl
      refine ⟨hq'.toSame.kept_trans hkept, ?_, hq'.sound.withEntry hlimit hlookup',
        ⟨hq'.tableOk.upper, hq'.tableOk.lower⟩⟩
      rw [withEntry_dataOffset hq'.sound hlimit hlookup', hq'.dataOffset]
    · exact fun _ _ hfalse => hfalse.elim

theorem byteAt_wrote (base : ByteStore) {pos : Nat} {chunk : Bytes} (hoff : q.dataOffset (pos / q.header.clusterSize) = some off)
    (hquiet : Quiet (fun o => ¬ o = .data (pos / q.header.clusterSize)) [] q
      (q.wrote (off + pos % q.header.clusterSize) chunk))
    (hfits : pos % q.header.clusterSize + chunk.length ≤ q.header.clusterSize) :
    (q.wrote (off + pos % q.header.clusterSize) chunk).byteAt base = writeBytes (q.byteAt base) pos chunk := by
  have hframe := hquiet.toFrame
  have hinside : ∀ k, k < chunk.length → (pos + k) / q.header.clusterSize = pos / q.header.clusterSize ∧
      (pos + k) % q.header.clusterSize = pos % q.header.clusterSize + k :=
    fun k hk => div_mod_add q.header.clusterSize pos k (by omega)
  funext p
  by_cases hg : p / q.header.clusterSize = pos / q.header.clusterSize
  · have hp : q.dataOffset (p / q.header.clusterSize) = some off := by rw [hg, hoff]
    have hleft : (q.wrote (off + pos % q.header.clusterSize) chunk).byteAt base p =
        writeBytes q.file.data (off + pos % q.header.clusterSize) chunk (off + p % q.header.clusterSize) :=
      byteAt_some ((congrFun hframe.dataOffset _).trans hp)
    rw [hleft]
    by_cases hin : pos ≤ p ∧ p < pos + chunk.length
    · obtain ⟨k, rfl⟩ := Nat.exists_eq_add_of_le hin.1
      have hk : k < chunk.length := by omega
      rw [(hinside k hk).2, ← Nat.add_assoc, writeBytes_inside hk, writeBytes_inside hk]
    · have hsplit := Nat.div_add_mod pos q.header.clusterSize
      have hsplit' := Nat.div_add_mod p q.header.clusterSize
      rw [hg] at hsplit'
      rw [writeBytes_outside (by omega), writeBytes_outside (by omega), byteAt_some hp]
  · have hout : p < pos ∨ pos + chunk.length ≤ p := by
      by_contra hin
      obtain ⟨k, rfl⟩ := Nat.exists_eq_add_of_le (show pos ≤ p by omega)
      exact hg (hinside k (by omega)).1
    have hoff' := congrFun hframe.dataOffset (p / q.header.clusterSize)
    rw [writeBytes_outside hout]
    cases hp : q.dataOffset (p / q.header.clusterSize) with
    | none => rw [byteAt_none hp, byteAt_none (hoff'.trans hp)]
    | some off' =>
      rw [byteAt_some hp, byteAt_some (hoff'.trans hp)]
      apply hframe.bytes (.data _) off' hp _ _ (Nat.mod_lt _ (clusterSize_pos _))
      exact fun heq => hg (Owner.data.inj heq)

end Qcow2File

end CloneVmm.Storage
