import CloneVmm.Storage.Relocation

namespace CloneVmm.Storage

open CloneVmm.Lib CloneVmm.Lib.Prog

namespace Qcow2File

variable {B : Type} {host : Host} {rs rs' : List Nat} {q q' q'' : Qcow2File B}

def Clean (q : Qcow2File B) : Prop := ∀ i entry, q.l2Cache.lookup i = some entry → entry.dirty = false

def L1Stored (q : Qcow2File B) : Prop :=
  tableAt q.file.data q.header.l1TableOffset q.header.l1Size = q.l1Table

theorem wp_flushL2Tables (h : Sound host rs q) {indices : List Nat}
    (hkeys : ∀ i ∈ indices, (q.l2Cache.lookup i).isSome = true) :
    (flushL2Tables host indices).Wp (fun _ q' => Sound host rs q' ∧ Quiet (fun o => o.isL2 = false) rs q q' ∧
      ∀ i entry, q'.l2Cache.lookup i = some entry → entry.dirty = true →
        q.l2Cache.lookup i = some entry ∧ i ∉ indices) (fun _ _ => False) q := by
  induction indices generalizing q with
  | nil => exact wp_pure ⟨h, .refl _ _ _, fun i entry hentry _ => ⟨hentry, List.not_mem_nil⟩⟩
  | cons i indices ih =>
    obtain ⟨entry, hlookup⟩ := Option.isSome_iff_exists.mp (hkeys i List.mem_cons_self)
    unfold flushL2Tables
    apply Wp.seq (wp_flushL2Table h hlookup)
    rintro _ q' ⟨hsound, hquiet, hcache⟩
    have hkeys' : ∀ i' ∈ indices, (q'.l2Cache.lookup i').isSome = true := by
      intro i' hi'
      rw [hcache]
      split
      · rfl
      · exact hkeys i' (List.mem_cons_of_mem _ hi')
    apply (ih hsound hkeys').mono
    · rintro _ q'' ⟨hsound', hquiet', hdirty⟩
      refine ⟨hsound', hquiet.trans hquiet', fun i' entry' hentry' hd => ?_⟩
      obtain ⟨hold, hnot⟩ := hdirty i' entry' hentry' hd
      rw [hcache] at hold
      split at hold
      · cases hold
        cases hd
      · exact ⟨hold, List.not_mem_cons_of_ne_of_not_mem ‹_› hnot⟩
    · exact fun _ _ hfalse => hfalse

theorem mem_dirtyIndices {i : Nat} {entry : L2CacheEntry} (hlookup : q.l2Cache.lookup i = some entry)
    (hdirty : entry.dirty = true) : i ∈ dirtyIndices host q := by
  have hmem : i ∈ q.l2Cache.keys := AList.lookup_isSome.mp (by rw [hlookup]; rfl)
  refine List.mem_filter.mpr ⟨(host.order_perm q.l2Cache).mem_iff.mpr hmem, ?_⟩
  rw [hlookup]
  exact hdirty

theorem wp_flushDirty (h : Sound host rs q) :
    (flushL2Tables host (dirtyIndices host q)).Wp (fun _ q' => Sound host rs q' ∧
      Quiet (fun o => o.isL2 = false) rs q q' ∧ q'.Clean) (fun _ _ => False) q := by
  have hkeys : ∀ i ∈ dirtyIndices host q, (q.l2Cache.lookup i).isSome = true := by
    intro i hi
    exact AList.lookup_isSome.mpr ((host.order_perm q.l2Cache).mem_iff.mp (List.mem_filter.mp hi).1)
  apply (wp_flushL2Tables h hkeys).mono
  · rintro _ q' ⟨hsound, hquiet, hdirty⟩
    refine ⟨hsound, hquiet, fun i entry hentry => ?_⟩
    by_contra hnot
    rw [Bool.not_eq_false] at hnot
    obtain ⟨hold, hmem⟩ := hdirty i entry hentry hnot
    exact hmem (mem_dirtyIndices hold hnot)
  · exact fun _ _ hfalse => hfalse

theorem l1Clusters_mul (q : Qcow2File B) : q.header.l1Size * 8 ≤ q.l1Clusters * q.header.clusterSize := by
  have hcs := clusterSize_pos q.header
  have hlt := Nat.lt_div_mul_add (a := q.header.l1Size * 8 + q.header.clusterSize - 1) hcs
  unfold l1Clusters
  omega

theorem wp_writeL1Table (h : Sound host rs q) :
    (writeL1Table host).Wp (fun _ q' => Sound host rs q' ∧ Quiet (fun o => ∀ i, o ≠ .l1 i) rs q q' ∧
      q'.l2Cache = q.l2Cache ∧ q'.L1Stored) (fun _ _ => False) q := by
  have hlen : (tableBytes q.l1Table).length = q.header.l1Size * 8 := by rw [tableBytes_length, h.l1Length]
  have hin : q.header.l1TableOffset + (tableBytes q.l1Table).length ≤ q.file.len := by
    rw [hlen]
    exact h.l1Inside
  have hregion : ∀ p, q.header.l1TableOffset ≤ p → p < q.header.l1TableOffset + (tableBytes q.l1Table).length →
      ∃ o off, (∃ i, o = .l1 i) ∧ q.place rs o = some off ∧ off ≤ p ∧ p < off + q.header.clusterSize := by
    intro p hlo hhi
    have hmul := q.l1Clusters_mul
    obtain ⟨i, hi, k, hk, rfl⟩ := exists_row_index (n := q.l1Clusters) (clusterSize_pos q.header) hlo (by omega)
    exact ⟨_, _, ⟨i, rfl⟩, if_pos hi, by omega, by omega⟩
  obtain ⟨hsound, hquiet⟩ := h.write _ _ hregion (by simp) (by simp) (by simp) hin
  unfold writeL1Table
  apply wp_get_bind
  apply wp_writeAll (hin.trans h.lenLimit)
  refine ⟨hsound, hquiet.weaken fun o ho hex => hex.elim ho, rfl, ?_⟩
  refine (tableAt_writeBytes (fun e he => (h.l1Good e he).lt) h.l1Length.ge).trans ?_
  rw [← h.l1Length, List.take_length]
  rfl

structure Turns (q q' : Qcow2File B) : Prop where
  header : ∃ off n, q'.header = (q.moved off n).header
  backing : q'.backing = q.backing
  dataOffset : q'.dataOffset = q.dataOffset
  bytes : ∀ g off, q.dataOffset g = some off →
    ∀ k, k < q.header.clusterSize → q'.file.data (off + k) = q.file.data (off + k)
  name : ∀ k, qcow2V3HeaderSize ≤ k → k < q.header.clusterSize → q'.file.data k = q.file.data k

namespace Turns

theorem clusterSize (h : Turns q q') : q'.header.clusterSize = q.header.clusterSize := by
  obtain ⟨off, n, hheader⟩ := h.header
  rw [hheader]
  rfl

theorem trans (h : Turns q q') (h' : Turns q' q'') : Turns q q'' where
  header := by
    obtain ⟨off, n, hheader⟩ := h.header
    obtain ⟨off', n', hheader'⟩ := h'.header
    exact ⟨off', n', by rw [hheader', moved, hheader]; rfl⟩
  backing := h'.backing.trans h.backing
  dataOffset := h'.dataOffset.trans h.dataOffset
  bytes g off hoff k hk := by
    rw [h'.bytes g off (by rw [h.dataOffset, hoff]) k (by rwa [h.clusterSize]), h.bytes g off hoff k hk]
  name k hlo hhi := by rw [h'.name k hlo (by rwa [h.clusterSize]), h.name k hlo hhi]

theorem of_frame {P : Owner → Prop} (h : Frame P rs q q') (hdata : ∀ g, P (.data g)) (hheader : P .header) : Turns q q' where
  header := ⟨q.header.refcountTableOffset, q.header.refcountTableClusters, h.header⟩
  backing := h.backing
  dataOffset := h.dataOffset
  bytes g off hoff := h.bytes (.data g) off hoff (hdata g)
  name k _ hk := by
    have := h.bytes .header 0 rfl hheader k hk
    rwa [Nat.zero_add] at this

theorem of_moves (h : Moves q q') (hfits : q.header.Fits) : Turns q q' :=
  ⟨h.header, h.backing, h.dataOffset hfits, fun g off hoff => h.bytes (.data g) off rfl hoff, h.name⟩

theorem byteAt (h : Turns q q') (base : ByteStore) : q'.byteAt base = q.byteAt base := by
  funext pos
  have hoff' : q'.dataOffset (pos / q'.header.clusterSize) = q.dataOffset (pos / q.header.clusterSize) := by
    rw [h.clusterSize, h.dataOffset]
  cases hoff : q.dataOffset (pos / q.header.clusterSize) with
  | none => rw [byteAt_none hoff, byteAt_none (hoff'.trans hoff)]
  | some off =>
    rw [byteAt_some hoff, byteAt_some (hoff'.trans hoff), h.clusterSize]
    exact h.bytes _ off hoff _ (Nat.mod_lt _ (clusterSize_pos _))

end Turns

theorem Moves.l1Stored (h : Moves q q') (hstored : q.L1Stored) : q'.L1Stored := by
  obtain ⟨off, n, hheader⟩ := h.header
  have hmul := q.l1Clusters_mul
  unfold L1Stored
  rw [hheader, h.l1Table, ← hstored]
  apply tableAt_congr
  intro p hlo hhi
  change q.header.l1TableOffset ≤ p at hlo
  change p < q.header.l1TableOffset + q.header.l1Size * 8 at hhi
  obtain ⟨i, hi, k, hk, rfl⟩ := exists_row_index (n := q.l1Clusters) (clusterSize_pos q.header) hlo (by omega)
  exact h.bytes (.l1 i) _ rfl (if_pos hi) k hk

structure Flushed (host : Host) (q q' : Qcow2File B) : Prop extends Turns q q' where
  sound : Sound host [] q'
  tableOk : TableOk host q'
  clean : q'.Clean
  l1Stored : q'.L1Stored

theorem wp_flush (hlimit : host.limit ≤ 2 ^ 54) (h : Sound host [] q) (htable : TableOk host q) :
    (flush host).Wp (fun _ q' => Flushed host q q')
      (fun e q' => e = .refused ∧ host.limit < q'.nextAllocOffset ∧ Flushed host q q') q := by
  unfold flush
  apply wp_get_bind
  refine Wp.seq ((wp_flushDirty h).mono (fun _ _ hq' => hq') fun _ _ hfalse => hfalse.elim) ?_
  rintro _ q₁ ⟨hsound₁, hquiet₁, hclean⟩
  refine Wp.seq ((wp_writeL1Table hsound₁).mono (fun _ _ hq' => hq') fun _ _ hfalse => hfalse.elim) ?_
  rintro _ q₂ ⟨hsound₂, hquiet₂, hcache, hstored⟩
  have htable₂ : TableOk host q₂ := (htable.quiet hquiet₁).quiet hquiet₂
  have hturns : Turns q q₂ :=
    (Turns.of_frame hquiet₁.toFrame (fun _ => rfl) rfl).trans (.of_frame hquiet₂.toFrame (by simp) (by simp))
  have hclean₂ : q₂.Clean := by
    unfold Clean
    rw [hcache]
    exact hclean
  have hfinal : ∀ q₃, Grew host q₂ q₃ → Flushed host q q₃ := by
    intro q₃ hgrew
    refine ⟨hturns.trans (.of_moves hgrew.toMoves hsound₂.fits), hgrew.sound, hgrew.tableOk, ?_, hgrew.l1Stored hstored⟩
    unfold Clean
    rw [hgrew.l2Cache]
    exact hclean₂
  apply (wp_writeRefcountTable hlimit hsound₂ htable₂).mono
  · exact fun _ q₃ hq₃ => hfinal q₃ hq₃
  · exact fun e q₃ hq₃ => ⟨hq₃.1, hq₃.2.1, hfinal q₃ hq₃.2.2⟩

theorem flushed_exec (hlimit : host.limit ≤ 2 ^ 54) (h : Sound host [] q) (htable : TableOk host q) :
    Flushed host q ((flush host).exec q).2 := by
  have hends : (flush host).Ends (Flushed host q) (fun _ => True) q :=
    (wp_flush hlimit h htable).mono (fun _ _ hq' => ⟨hq', trivial⟩) fun _ _ hq' => hq'.2.2
  exact hends.state

end Qcow2File

end CloneVmm.Storage
