import CloneVmm.Storage.Allocation

namespace CloneVmm.Storage

open CloneVmm.Lib CloneVmm.Lib.Prog

namespace GoodEntry

variable {clusterSize e : Nat}

theorem cases (h : GoodEntry clusterSize e) (hcs : 2 ^ 9 ∣ clusterSize) :
    e = 0 ∨ e &&& l1OffsetMask = e &&& l2OffsetMask ∧ e &&& l2OffsetMask ≠ 0 ∧ e &&& l2FlagCompressed = 0 := by
  rcases h with rfl | ⟨off, hpos, hlt, hdvd, rfl⟩
  · exact Or.inl rfl
  · right
    have hdvd' := hcs.trans hdvd
    rw [and_l1OffsetMask hdvd' hlt, and_l2OffsetMask hdvd' hlt, and_l2FlagCompressed hdvd' hlt]
    exact ⟨rfl, by omega, rfl⟩

theorem hostOffsetOf (h : GoodEntry clusterSize e) (hcs : 2 ^ 9 ∣ clusterSize) :
    Qcow2File.hostOffsetOf e = .ok (if e &&& l2OffsetMask = 0 then none else some (e &&& l2OffsetMask)) := by
  rcases h.cases hcs with rfl | ⟨-, hne, hflag⟩
  · rfl
  · have hzero : e ≠ 0 := by
      rintro rfl
      exact hne rfl
    rw [Qcow2File.hostOffsetOf, if_neg hzero, if_neg (not_not.mpr hflag), if_neg hne, if_neg hne]

theorem lt (h : GoodEntry clusterSize e) : e < 2 ^ 64 := by
  rcases h with rfl | ⟨off, -, hlt, -, rfl⟩
  · decide
  · apply Nat.or_lt_two_pow (hlt.trans (by decide))
    decide

end GoodEntry

namespace Qcow2File

variable {B : Type} {host : Host} {rs : List Nat} {q q' q'' : Qcow2File B} {i off : Nat}

def withCache (q : Qcow2File B) (cache : L2Cache) (counter : Nat) : Qcow2File B :=
  { q with l2Cache := cache, accessCounter := counter }

namespace Sound

theorem recache (h : Sound host rs q) {cache : L2Cache} (counter : Nat)
    (hcached : ∀ i entry, cache.lookup i = some entry → q.Cached i entry)
    (hview : ∀ i off, q.l2Offset i = some off → (q.withCache cache counter).l2View i off = q.l2View i off) :
    Sound host rs (q.withCache cache counter) ∧ Quiet (fun _ => True) rs q (q.withCache cache counter) := by
  have hquiet : Quiet (fun _ => True) rs q (q.withCache cache counter) :=
    ⟨⟨rfl, rfl, rfl, hview, fun _ _ _ _ _ _ => rfl⟩, rfl, rfl, rfl⟩
  refine ⟨⟨h.fits, h.onDisk, h.l1Length, h.l1Good, ?_, hcached, h.l1Inside, h.tableInside, h.stored, ?_, h.lenLe,
    h.nextAligned, h.lenLimit⟩, hquiet⟩
  · intro i off hoff e he
    rw [hview i off hoff] at he
    exact h.l2Good i off hoff e he
  · rw [hquiet.place]
    exact h.placed

theorem cacheInsert (h : Sound host rs q) (entry : L2CacheEntry) (counter : Nat) (hentry : q.Cached i entry)
    (hview : entry.entries = q.l2View i entry.hostOffset) :
    Sound host rs (q.withCache (q.l2Cache.insert i entry) counter) ∧
      Quiet (fun _ => True) rs q (q.withCache (q.l2Cache.insert i entry) counter) := by
  apply h.recache
  · intro i' entry' hlookup
    by_cases hi : i' = i
    · subst hi
      rw [AList.lookup_insert] at hlookup
      cases hlookup
      exact hentry
    · rw [AList.lookup_insert_ne hi] at hlookup
      exact h.cached i' entry' hlookup
  · intro i' off' hoff'
    unfold l2View withCache
    dsimp only
    by_cases hi : i' = i
    · subst hi
      cases hentry.1.symm.trans hoff'
      rw [AList.lookup_insert]
      exact hview
    · rw [AList.lookup_insert_ne hi]

theorem cacheErase (h : Sound host rs q) {entry : L2CacheEntry} (counter : Nat)
    (hlookup : q.l2Cache.lookup i = some entry) (hclean : entry.dirty = false) :
    Sound host rs (q.withCache (q.l2Cache.erase i) counter) ∧
      Quiet (fun _ => True) rs q (q.withCache (q.l2Cache.erase i) counter) := by
  apply h.recache
  · intro i' entry' hlookup'
    by_cases hi : i' = i
    · subst hi
      rw [AList.lookup_erase] at hlookup'
      cases hlookup'
    · rw [AList.lookup_erase_ne hi] at hlookup'
      exact h.cached i' entry' hlookup'
  · intro i' off' hoff'
    unfold l2View withCache
    dsimp only
    by_cases hi : i' = i
    · subst hi
      obtain ⟨hoff, -, htable⟩ := h.cached i' entry hlookup
      cases hoff.symm.trans hoff'
      rw [AList.lookup_erase, hlookup]
      exact (htable hclean).symm
    · rw [AList.lookup_erase_ne hi]

theorem l2View_of_lookup {entry : L2CacheEntry} (off : Nat) (hlookup : q.l2Cache.lookup i = some entry) :
    q.l2View i off = entry.entries := by
  rw [l2View, hlookup]

theorem entries_good (h : Sound host rs q) {entry : L2CacheEntry} (hlookup : q.l2Cache.lookup i = some entry) :
    ∀ e ∈ entry.entries, GoodEntry q.header.clusterSize e := by
  rw [← l2View_of_lookup entry.hostOffset hlookup]
  exact h.l2Good i _ (h.cached i entry hlookup).1

end Sound

theorem wp_flushL2Table (h : Sound host rs q) {entry : L2CacheEntry} (hlookup : q.l2Cache.lookup i = some entry) :
    (flushL2Table host i).Wp (fun _ q' => Sound host rs q' ∧ Quiet (fun o => o.isL2 = false) rs q q' ∧
      ∀ i', q'.l2Cache.lookup i' = if i' = i then some { entry with dirty := false } else q.l2Cache.lookup i')
      (fun _ _ => False) q := by
  unfold flushL2Table
  apply wp_get_bind
  apply Wp.bind
  apply wp_orFail hlookup
  obtain ⟨hoff, hlength, -⟩ := h.cached i entry hlookup
  split
  · rename_i hdirty
    have hmul := l2EntriesPerTable_mul h.fits
    have hbytes : (tableBytes entry.entries).length = q.header.clusterSize := by
      rw [tableBytes_length, hlength, hmul]
    have hin : entry.hostOffset + (tableBytes entry.entries).length ≤ q.file.len := by
      rw [hbytes]
      exact h.placed.inside (o := .l2 i) hoff
    obtain ⟨hsound, hquiet⟩ := h.write (P := (· = .l2 i)) entry.hostOffset (tableBytes entry.entries)
      (fun p hlo hhi => ⟨_, _, rfl, hoff, hlo, by omega⟩) (by simp)
      (fun i' hi' => by cases hi'; exact ⟨entry, hlookup, hdirty⟩) (by simp) hin
    have hcached : (q.wrote entry.hostOffset (tableBytes entry.entries)).Cached i { entry with dirty := false } := by
      have htable : tableAt (writeBytes q.file.data entry.hostOffset (tableBytes entry.entries)) entry.hostOffset
          q.header.l2EntriesPerTable = entry.entries := by
        rw [tableAt_writeBytes (fun e he => (h.entries_good hlookup e he).lt) hlength.ge, ← hlength, List.take_length]
      exact ⟨hoff, hlength, fun _ => htable.symm⟩
    have hview : entry.entries = (q.wrote entry.hostOffset (tableBytes entry.entries)).l2View i entry.hostOffset := by
      rw [l2View, wrote]
      dsimp only
      rw [hlookup]
    obtain ⟨hsound', hquiet'⟩ := hsound.cacheInsert { entry with dirty := false } q.accessCounter hcached hview
    apply Wp.bind
    apply wp_writeAll (hin.trans h.lenLimit)
    apply wp_modifyGet
    refine ⟨hsound', ?_, ?_⟩
    · refine (hquiet.weaken ?_).trans (hquiet'.weaken fun _ _ => trivial)
      rintro o ho rfl
      cases ho
    · intro i'
      by_cases hi : i' = i
      · rw [if_pos hi, hi]
        exact AList.lookup_insert _
      · rw [if_neg hi]
        exact AList.lookup_insert_ne hi
  · rename_i hdirty
    refine wp_pure ⟨h, .refl _ _ _, fun i' => ?_⟩
    by_cases hi : i' = i
    · rw [if_pos hi, hi, hlookup]
      cases entry
      simp only [Bool.not_eq_true] at hdirty
      rw [hdirty]
    · rw [if_neg hi]

theorem wp_makeRoom (h : Sound host rs q) :
    (makeRoom host).Wp (fun _ q' => Sound host rs q' ∧ Quiet (fun o => o.isL2 = false) rs q q' ∧
      ∀ i, q.l2Cache.lookup i = none → q'.l2Cache.lookup i = none) (fun _ _ => False) q := by
  unfold makeRoom
  apply wp_get_bind
  split
  · unfold evictL2Entry
    apply wp_get_bind
    dsimp only
    cases hvictim : (host.order q.l2Cache).argmin (lastAccessOf q.l2Cache) with
    | none => exact wp_pure ⟨h, .refl _ _ _, fun _ hi => hi⟩
    | some idx =>
      have hmem : idx ∈ q.l2Cache := (host.order_perm q.l2Cache).mem_iff.mp (List.argmin_mem hvictim)
      obtain ⟨entry, hlookup⟩ := Option.isSome_iff_exists.mp (AList.lookup_isSome.mpr hmem)
      apply Wp.seq (wp_flushL2Table h hlookup)
      rintro _ q' ⟨hsound, hquiet, hcache⟩
      have hlookup' : q'.l2Cache.lookup idx = some { entry with dirty := false } := by rw [hcache, if_pos rfl]
      obtain ⟨hsound', hquiet'⟩ := hsound.cacheErase q'.accessCounter hlookup' rfl
      apply wp_modifyGet
      refine ⟨hsound', hquiet.trans (hquiet'.weaken fun _ _ => trivial), fun i hi => ?_⟩
      have hne : i ≠ idx := by
        rintro rfl
        rw [hlookup] at hi
        cases hi
      rw [AList.lookup_erase_ne hne, hcache, if_neg hne, hi]
  · exact wp_pure ⟨h, .refl _ _ _, fun _ hi => hi⟩

def Loaded (host : Host) (rs : List Nat) (i off : Nat) (q q' : Qcow2File B) : Prop :=
  Sound host rs q' ∧ Quiet (fun o => o.isL2 = false) rs q q' ∧
    ∃ entry, q'.l2Cache.lookup i = some entry ∧ entry.entries = q.l2View i off

theorem wp_loadL2Table (h : Sound host rs q) (hoff : q.l2Offset i = some off) (hlookup : q.l2Cache.lookup i = none) :
    (loadL2Table host i off).Wp (fun _ => Loaded host rs i off q) (fun _ _ => False) q := by
  unfold loadL2Table
  apply Wp.seq (wp_makeRoom h)
  rintro _ q' ⟨hsound, hquiet, hcache⟩
  have hoff' : q'.l2Offset i = some off := by rwa [hquiet.toFrame.l2Offset]
  have hin : off + q'.header.l2EntriesPerTable * 8 ≤ q'.file.len := by
    rw [l2EntriesPerTable_mul hsound.fits]
    exact hsound.placed.inside (o := .l2 i) hoff'
  have hview : q.l2View i off = tableAt q'.file.data off q'.header.l2EntriesPerTable := by
    rw [← hquiet.view i off hoff, l2View, hcache i hlookup]
  apply wp_get_bind
  rw [readTable_eq hin]
  have hview' : q'.l2View i off = tableAt q'.file.data off q'.header.l2EntriesPerTable := by
    rw [l2View, hcache i hlookup]
  obtain ⟨hsound', hquiet'⟩ := hsound.cacheInsert
    ⟨tableAt q'.file.data off q'.header.l2EntriesPerTable, false, off, q'.accessCounter + 1⟩
    (q'.accessCounter + 1) ⟨hoff', tableAt_length _ _ _, fun _ => rfl⟩ hview'.symm
  apply wp_modifyGet
  exact ⟨hsound', hquiet.trans (hquiet'.weaken fun _ _ => trivial), _, AList.lookup_insert _, hview.symm⟩

theorem wp_ensureL2Cached (h : Sound host rs q) (hoff : q.l2Offset i = some off) :
    (ensureL2Cached host i off).Wp (fun _ => Loaded host rs i off q) (fun _ _ => False) q := by
  unfold ensureL2Cached
  apply wp_get_bind
  cases hlookup : q.l2Cache.lookup i with
  | none => exact wp_loadL2Table h hoff hlookup
  | some entry =>
    have hcached := h.cached i entry hlookup
    obtain ⟨hsound, hquiet⟩ := h.cacheInsert { entry with lastAccess := q.accessCounter + 1 }
      (q.accessCounter + 1) hcached (Sound.l2View_of_lookup _ hlookup).symm
    apply wp_modifyGet
    exact ⟨hsound, hquiet.weaken fun _ _ => trivial, _, AList.lookup_insert _, (Sound.l2View_of_lookup _ hlookup).symm⟩

theorem wp_getL2Entry (h : Sound host rs q) (hoff : q.l2Offset i = some off) {l2Index : Nat}
    (hindex : l2Index < q.header.l2EntriesPerTable) :
    (getL2Entry host i off l2Index).Wp (fun e q' => (q.l2View i off)[l2Index]? = some e ∧
      Sound host rs q' ∧ Quiet (fun o => o.isL2 = false) rs q q') (fun _ _ => False) q := by
  unfold getL2Entry
  apply Wp.seq (wp_ensureL2Cached h hoff)
  rintro _ q' ⟨hsound, hquiet, entry, hlookup, hentries⟩
  have hlt : l2Index < (q.l2View i off).length := by rwa [h.l2View_length]
  apply wp_get_bind
  apply Wp.bind
  apply wp_orFail hlookup
  rw [hentries]
  exact wp_orFail (List.getElem?_eq_getElem hlt) ⟨List.getElem?_eq_getElem hlt, hsound, hquiet⟩

theorem dataOffset_of_entry {g e : Nat} (hoff : q.l2Offset (g / q.header.l2EntriesPerTable) = some off)
    (he : (q.l2View (g / q.header.l2EntriesPerTable) off)[g % q.header.l2EntriesPerTable]? = some e) :
    q.dataOffset g = if e &&& l2OffsetMask = 0 then none else some (e &&& l2OffsetMask) := by
  rw [dataOffset, hoff, Option.bind_some, he, Option.bind_some]

theorem wp_translateCluster (h : Sound host rs q) {pos : Nat} (hpos : l1IndexOf q.header pos < q.header.l1Size) :
    (translateCluster host pos).Wp (fun r q' => r = q.dataOffset (pos / q.header.clusterSize) ∧
      Sound host rs q' ∧ Quiet (fun o => o.isL2 = false) rs q q') (fun _ _ => False) q := by
  have hl1 : q.header.l1Size < 2 ^ 32 := h.fits.l1Size
  have hmod : l1IndexOf q.header pos % 2 ^ 32 = l1IndexOf q.header pos := Nat.mod_eq_of_lt (by omega)
  have hin : l1IndexOf q.header pos < q.l1Table.length := by rwa [h.l1Length]
  have hentry := List.getElem?_eq_getElem hin
  unfold translateCluster
  apply wp_get_bind
  dsimp only
  rw [hmod, if_pos hpos]
  apply Wp.bind
  apply wp_orFail hentry
  split
  · rename_i hzero
    refine wp_pure ⟨?_, h, .refl _ _ _⟩
    have hnone : q.l2Offset (l1IndexOf q.header pos) = none := by
      rw [l2Offset, hentry, Option.bind_some, if_pos hzero]
    exact (congrArg (Option.bind · _) hnone).symm
  · rename_i hne
    have hoff : q.l2Offset (l1IndexOf q.header pos) = some (q.l1Table[l1IndexOf q.header pos] &&& l1OffsetMask) := by
      rw [l2Offset, hentry, Option.bind_some, if_neg hne]
    apply Wp.seq (wp_getL2Entry h hoff (Nat.mod_lt _ (l2EntriesPerTable_pos h.fits)))
    rintro e q' ⟨he, hsound, hquiet⟩
    have hgood := h.l2Good _ _ hoff e (List.mem_of_getElem? he)
    rw [hgood.hostOffsetOf (dvd_clusterSize h.fits)]
    exact wp_pure ⟨(dataOffset_of_entry hoff he).symm, hsound, hquiet⟩

theorem wp_translateCluster_outside (hlength : q.l1Table.length = q.header.l1Size)
    (hpos : ¬ l1IndexOf q.header pos < q.header.l1Size) :
    (translateCluster host pos).Wp (fun _ _ => False) (fun _ q' => q' = q) q := by
  unfold translateCluster
  apply wp_get_bind
  dsimp only
  split
  · rw [List.getElem?_eq_none (by omega)]
    exact wp_throw rfl
  · exact wp_throw rfl

theorem ends_translateCluster (h : Sound host rs q) (pos : Nat) :
    (translateCluster host pos).Ends (fun q' => Sound host rs q' ∧ Quiet (fun o => o.isL2 = false) rs q q')
      (fun _ => True) q := by
  by_cases hpos : l1IndexOf q.header pos < q.header.l1Size
  · exact (wp_translateCluster h hpos).mono (fun _ _ hq' => ⟨hq'.2, trivial⟩) fun _ _ hfalse => hfalse.elim
  · apply (wp_translateCluster_outside h.l1Length hpos).mono
    · exact fun _ _ hfalse => hfalse.elim
    · rintro _ q' rfl
      exact ⟨h, .refl _ _ _⟩

end Qcow2File

end CloneVmm.Storage
