import CloneVmm.Storage.CreateLayout
import CloneVmm.Storage.Refinement

namespace CloneVmm.Storage

open CloneVmm.Lib CloneVmm.Lib.Prog

namespace Qcow2File

variable {B : Type} {host : Host} {h : Qcow2Header} {q : Qcow2File B}

/-- The lengths of the tables in memory, for an image that was opened with the header `h`. -/
structure Shaped (h : Qcow2Header) (q : Qcow2File B) : Prop where
  clusterBits : q.header.clusterBits = h.clusterBits
  l1Size : q.header.l1Size = h.l1Size
  l1Length : q.l1Table.length = h.l1Size
  cached : ∀ i entry, q.l2Cache.lookup i = some entry → entry.entries.length = h.l2EntriesPerTable

namespace Shaped

theorem clusterSize (hq : Shaped h q) : q.header.clusterSize = h.clusterSize := by
  rw [Qcow2Header.clusterSize, hq.clusterBits, Qcow2Header.clusterSize]

theorem l2EntriesPerTable (hq : Shaped h q) : q.header.l2EntriesPerTable = h.l2EntriesPerTable := by
  rw [Qcow2Header.l2EntriesPerTable, hq.clusterSize, Qcow2Header.l2EntriesPerTable]

theorem insert (hq : Shaped h q) (i : Nat) {entry : L2CacheEntry} (hentry : entry.entries.length = h.l2EntriesPerTable) :
    Shaped h { q with l2Cache := q.l2Cache.insert i entry } := by
  refine ⟨hq.clusterBits, hq.l1Size, hq.l1Length, fun j found hfound => ?_⟩
  by_cases hij : j = i
  · subst hij
    rw [AList.lookup_insert] at hfound
    cases hfound
    exact hentry
  · rw [AList.lookup_insert_ne hij] at hfound
    exact hq.cached j found hfound

theorem erase (hq : Shaped h q) (i : Nat) : Shaped h { q with l2Cache := q.l2Cache.erase i } := by
  refine ⟨hq.clusterBits, hq.l1Size, hq.l1Length, fun j found hfound => ?_⟩
  by_cases hij : j = i
  · subst hij
    rw [AList.lookup_erase] at hfound
    cases hfound
  · rw [AList.lookup_erase_ne hij] at hfound
    exact hq.cached j found hfound

end Shaped

theorem stable_shaped [Backing B] :
    Stable host (fun entry => entry.entries.length = h.l2EntriesPerTable) (Shaped (B := B) h) where
  file _ hq := ⟨hq.clusterBits, hq.l1Size, hq.l1Length, hq.cached⟩
  nextAllocOffset _ hq := ⟨hq.clusterBits, hq.l1Size, hq.l1Length, hq.cached⟩
  refcountTable _ hq := ⟨hq.clusterBits, hq.l1Size, hq.l1Length, hq.cached⟩
  header _ _ hq := ⟨hq.clusterBits, hq.l1Size, hq.l1Length, hq.cached⟩
  l1Table _ _ hq := ⟨hq.clusterBits, hq.l1Size, List.length_set.trans hq.l1Length, hq.cached⟩
  accessCounter _ hq := ⟨hq.clusterBits, hq.l1Size, hq.l1Length, hq.cached⟩
  insert i hq hentry := hq.insert i hentry
  erase i hq := hq.erase i
  lookup hq hentry := hq.cached _ _ hentry
  resize hentry hlen := hlen.trans hentry
  fresh hq hlen := hlen.trans hq.l2EntriesPerTable
  backing _ _ hq _ := ⟨hq.clusterBits, hq.l1Size, hq.l1Length, hq.cached⟩

def Missed (e : Qcow2Error) : Prop := e = .l1OutOfBounds ∨ e = .panicked

theorem wp_writeAll_found {off : Nat} {bs : Bytes} :
    (writeAll host off bs : Io B Unit).Wp (fun _ t => t = { q with file := q.file.write off bs })
      (fun e _ => ¬ Missed e) q := by
  unfold writeAll
  split
  · rfl
  · exact wp_throw (by rintro (h | h) <;> cases h)

theorem wp_flushL2Table_found (hq : Shaped h q) {i : Nat} {entry : L2CacheEntry}
    (hentry : q.l2Cache.lookup i = some entry) :
    (flushL2Table host i).Wp (fun _ t => Shaped h t) (fun e _ => ¬ Missed e) q := by
  unfold flushL2Table
  apply wp_get_bind
  apply Wp.bind
  apply wp_orFail hentry
  split
  · apply Wp.seq wp_writeAll_found
    rintro _ t rfl
    have hgood : ({ entry with dirty := false } : L2CacheEntry).entries.length = h.l2EntriesPerTable :=
      hq.cached i entry hentry
    have hwritten : Shaped h { q with file := q.file.write entry.hostOffset (tableBytes entry.entries) } :=
      ⟨hq.clusterBits, hq.l1Size, hq.l1Length, hq.cached⟩
    exact wp_modifyGet (hwritten.insert i hgood)
  · exact wp_pure hq

theorem wp_makeRoom_found (hq : Shaped h q) : (makeRoom host).Wp (fun _ t => Shaped h t) (fun e _ => ¬ Missed e) q := by
  unfold makeRoom
  apply wp_get_bind
  split
  · unfold evictL2Entry
    apply wp_get_bind
    dsimp only
    cases hvictim : (host.order q.l2Cache).argmin (lastAccessOf q.l2Cache) with
    | none => exact wp_pure hq
    | some i =>
      have hmem : i ∈ q.l2Cache := (host.order_perm q.l2Cache).mem_iff.mp (List.argmin_mem hvictim)
      obtain ⟨entry, hentry⟩ := Option.isSome_iff_exists.mp (AList.lookup_isSome.mpr hmem)
      apply Wp.seq (wp_flushL2Table_found hq hentry)
      intro _ t ht
      exact wp_modifyGet (ht.erase i)
  · exact wp_pure hq

theorem readTable_found {file : HostFile} {offset count : Nat} {e : Qcow2Error}
    (herr : readTable file offset count = .error e) :
    ¬ Missed e := by
  unfold readTable at herr
  split at herr
  · cases herr
  · split at herr
    · cases herr
      rintro (h | h) <;> cases h
    · cases herr

theorem wp_ensureL2Cached_found (hq : Shaped h q) (i offset : Nat) :
    (ensureL2Cached host i offset).Wp
      (fun _ t => ∃ entry, t.l2Cache.lookup i = some entry ∧ entry.entries.length = h.l2EntriesPerTable)
      (fun e _ => ¬ Missed e) q := by
  unfold ensureL2Cached
  apply wp_get_bind
  cases hentry : q.l2Cache.lookup i with
  | some entry => exact wp_modifyGet ⟨_, AList.lookup_insert _, hq.cached i entry hentry⟩
  | none =>
    apply Wp.seq (wp_makeRoom_found hq)
    intro _ t ht
    apply wp_get_bind
    cases htable : readTable t.file offset t.header.l2EntriesPerTable with
    | error e => exact wp_throw (readTable_found htable)
    | ok entries =>
      exact wp_modifyGet ⟨_, AList.lookup_insert _, (readTable_length htable).trans ht.l2EntriesPerTable⟩

theorem hostOffsetOf_found {l2Entry : Nat} {e : Qcow2Error} (herr : hostOffsetOf l2Entry = .error e) : ¬ Missed e := by
  unfold hostOffsetOf at herr
  split at herr
  · cases herr
  · split at herr
    · cases herr
      rintro (h | h) <;> cases h
    · split at herr
      · cases herr
      · cases herr

theorem wp_translateCluster_found (hq : Shaped h q) (hpos : 0 < h.l2EntriesPerTable) (hsize : h.l1Size ≤ 2 ^ 32) {off : Nat}
    (hindex : l1IndexOf h off < h.l1Size) : (translateCluster host off).Wp (fun _ _ => True) (fun e _ => ¬ Missed e) q := by
  have hsame : l1IndexOf q.header off = l1IndexOf h off := by
    rw [l1IndexOf, hq.clusterSize, hq.l2EntriesPerTable, l1IndexOf]
  have hl2 : l2IndexOf q.header off < h.l2EntriesPerTable := by
    rw [l2IndexOf, hq.l2EntriesPerTable]
    exact Nat.mod_lt _ hpos
  unfold translateCluster
  apply wp_get_bind
  dsimp only
  rw [hsame, Nat.mod_eq_of_lt (by omega), hq.l1Size, if_pos hindex]
  apply Wp.bind
  apply wp_orFail (List.getElem?_eq_getElem (by rw [hq.l1Length]; exact hindex))
  split
  · exact wp_pure trivial
  · apply Wp.bind
    apply Wp.seq (wp_ensureL2Cached_found hq _ _)
    rintro _ t ⟨entry, hentry, hlen⟩
    apply wp_get_bind
    apply Wp.bind
    apply wp_orFail hentry
    apply wp_orFail (List.getElem?_eq_getElem (by rw [hlen]; exact hl2))
    generalize entry.entries[l2IndexOf q.header off] = l2Entry
    cases hhost : hostOffsetOf l2Entry with
    | ok hostOffset => exact wp_pure trivial
    | error e => exact wp_throw (hostOffsetOf_found hhost)

structure Covers [Backing B] (host : Host) (v b : Nat) (q : Qcow2File B) : Prop where
  l1Size : q.header.l1Size = v ⌈/⌉ (2 ^ b * (2 ^ b / 8))
  index : ∀ off < v, l1IndexOf q.header off % 2 ^ 32 = l1IndexOf q.header off
  translates : ∀ (ops : List Op) (off : Nat), off < v → ∀ e,
    ((translateCluster host off).exec (ops.foldl (Op.apply host) q)).1 = .error e → ¬ Missed e

section Create

variable {openBacking : PathBuf → Except Qcow2Error B} {path : PathBuf} {name : Option String} {v b : Nat}

theorem l1Size_of_not_sizesFit (hb : 9 ≤ b ∧ b ≤ 21) (hv : v < 2 ^ 64) (hfit : ¬ SizesFit v b) :
    createL1Size v b < v ⌈/⌉ (2 ^ b * (2 ^ b / 8)) := by
  have hcs := pow_bounds hb
  by_cases hround : v + 2 ^ b - 1 < 2 ^ 64
  · have hlarge : 2 ^ 32 ≤ v ⌈/⌉ (2 ^ b * (2 ^ b / 8)) := by
      by_contra hlt
      exact hfit ⟨hround, Nat.lt_of_not_le hlt⟩
    exact (Nat.mod_lt _ (by decide)).trans_le hlarge
  · -- the sum wraps to less than a cluster
    have hwrap : (v + 2 ^ b - 1) % 2 ^ 64 < 2 ^ b := by
      rw [Nat.mod_eq_sub_mod (by omega), Nat.mod_eq_of_lt (by omega)]
      omega
    have hclusters : divRoundUp v (2 ^ b) = 0 := Nat.div_eq_of_lt hwrap
    have hzero : createL1Size v b = 0 := by
      rw [createL1Size, hclusters, divRoundUp_eq (by omega), zero_ceilDiv]
      rfl
    rw [hzero]
    by_contra hle
    have hempty : v ⌈/⌉ (2 ^ b * (2 ^ b / 8)) ≤ 0 := Nat.le_of_not_lt hle
    rw [ceilDiv_le_iff_le_mul (Nat.mul_pos (by omega) (by omega))] at hempty
    omega

theorem Created.shaped {q : Qcow2File B} (h : Created v b name q) : Shaped q.header q := by
  refine ⟨rfl, rfl, ?_, fun i entry hentry => ?_⟩
  · rw [h.l1Table, tableAt_length]
  · rw [h.l2Cache] at hentry
    cases hentry

/-- A new image is covered by its first level exactly when the sizes that are computed for it fit. -/
theorem create_covers_iff [Backing B] (hv : v < 2 ^ 64) {q : Qcow2File B}
    (hcreate : create v b host openBacking path name = .ok q) : Covers host v b q ↔ SizesFit v b := by
  obtain ⟨hlo, hhi, -, -, -⟩ := create_eq_ok hcreate
  have hb : 9 ≤ b ∧ b ≤ 21 := ⟨hlo, hhi⟩
  have hcs := pow_bounds hb
  obtain ⟨hcreated, -, -⟩ := create_opened hv (createFileEnd_le hb) hcreate
  have hsize : q.header.l1Size = createL1Size v b := by
    rw [hcreated.header]
    rfl
  constructor
  · intro h
    by_contra hfit
    have hlt := l1Size_of_not_sizesFit hb hv hfit
    rw [← hsize, h.l1Size] at hlt
    exact Nat.lt_irrefl _ hlt
  · intro hfit
    have hl1 : q.header.l1Size = v ⌈/⌉ (2 ^ b * (2 ^ b / 8)) := hsize.trans (createL1Size_eq hb hfit)
    have hindex : ∀ off < v, l1IndexOf q.header off < q.header.l1Size := by
      intro off hoff
      have hpos : 0 < 2 ^ b * (2 ^ b / 8) := Nat.mul_pos (by omega) (by omega)
      have hcover : v ≤ 2 ^ b * (2 ^ b / 8) * q.header.l1Size := by
        rw [hl1]
        exact (ceilDiv_le_iff_le_mul hpos).mp (Nat.le_refl _)
      rw [l1IndexOf, Qcow2Header.l2EntriesPerTable, hcreated.clusterSize_eq, Nat.div_div_eq_div_mul,
        Nat.div_lt_iff_lt_mul hpos, Nat.mul_comm]
      omega
    have hsmall : q.header.l1Size < 2 ^ 32 := hl1 ▸ hfit.2
    refine ⟨hl1, fun off hoff => Nat.mod_eq_of_lt ((hindex off hoff).trans hsmall), ?_⟩
    intro ops off hoff e he
    have hshaped : Shaped q.header (ops.foldl (Op.apply host) q) := stable_shaped.ops ops hcreated.shaped
    have hpos : 0 < q.header.l2EntriesPerTable := by
      rw [Qcow2Header.l2EntriesPerTable, hcreated.clusterSize_eq]
      omega
    exact (wp_translateCluster_found hshaped hpos hsmall.le (hindex off hoff)).error (Prod.ext he rfl)

end Create

theorem create_covers_new : Covers baseHost 4096 9 newImage := by
  have hcreate : create 4096 9 baseHost (openBackingFile baseHost fun _ _ => .error .noSuchFile) basePath none =
      .ok newImage := newImage_create
  exact (create_covers_iff (by decide) hcreate).mpr ⟨by decide, by decide⟩

theorem create_covers_fails : ∃ q : Qcow2File (BackingFile Empty),
    create (2 ^ 47 + 1) 9 baseHost (openBackingFile baseHost fun _ _ => .error .noSuchFile) basePath none = .ok q ∧
      ¬ Covers baseHost (2 ^ 47 + 1) 9 q := by
  have hlen : (createFile (2 ^ 47 + 1) 9 none).len = 2048 := by decide
  refine ⟨_, create_alone (by decide) (by decide) (by decide) (by rw [hlen]; decide), fun h => ?_⟩
  exact h.translates [] (2 ^ 47) (by decide) .panicked (by decide) (Or.inr rfl)

end Qcow2File

end CloneVmm.Storage
