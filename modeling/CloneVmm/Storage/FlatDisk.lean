import CloneVmm.Storage.Mapping

namespace CloneVmm.Storage

open CloneVmm.Lib CloneVmm.Lib.Prog

namespace Qcow2File

variable {B : Type} [Backing B] {host : Host} {base content : ByteStore} {q q' : Qcow2File B}

/-- What an image rests on reads as `base`, and reading does not change it. -/
def Rests (host : Host) (base : ByteStore) : Option B → Prop
  | none => base = fun _ => 0
  | some b => ∀ offset n, Backing.readAt host b offset n = (.ok (readBytes base offset n), b)

theorem wp_readBacking {offset n : Nat} {Q : Bytes → Qcow2File B → Prop} {E : Qcow2Error → Qcow2File B → Prop}
    (h : Rests host base q.backing) (hQ : Q (readBytes base offset n) q) : (readBacking host offset n).Wp Q E q := by
  unfold readBacking
  apply wp_get_bind
  cases hbacking : q.backing with
  | none =>
    rw [hbacking] at h
    have hzero : readBytes base offset n = List.replicate n 0 := by
      rw [h, readBytes, List.map_const', List.length_range]
    apply wp_pure
    rwa [← hzero]
  | some b =>
    rw [hbacking] at h
    have hsame : { q with backing := some b } = q := by rw [← hbacking]
    apply wp_modifyGet_bind
    rw [h offset n]
    dsimp only
    rw [hsame]
    exact wp_pure hQ

structure Holds (host : Host) (base content : ByteStore) (q : Qcow2File B) : Prop where
  sound : Sound host [] q
  tableOk : TableOk host q
  rests : Rests host base q.backing
  covers : q.header.size ≤ q.header.l1Size * q.header.l2EntriesPerTable * q.header.clusterSize
  content : q.byteAt base = content

theorem l1IndexOf_lt {h : Qcow2Header} {pos : Nat} (hcovers : h.size ≤ h.l1Size * h.l2EntriesPerTable * h.clusterSize)
    (hpos : pos < h.size) : l1IndexOf h pos < h.l1Size := by
  apply Nat.div_lt_of_lt_mul
  apply Nat.div_lt_of_lt_mul
  calc pos < h.l1Size * h.l2EntriesPerTable * h.clusterSize := hpos.trans_le hcovers
    _ = h.clusterSize * (h.l2EntriesPerTable * h.l1Size) := by ring

namespace Holds

theorem index_lt (h : Holds host base content q) {pos : Nat} (hpos : pos < q.header.size) :
    l1IndexOf q.header pos < q.header.l1Size := l1IndexOf_lt h.covers hpos

theorem of_same (h : Holds host base content q) (hsame : Same [] q q') (hsound : Sound host [] q')
    (htable : TableOk host q') : Holds host base content q' := by
  refine ⟨hsound, htable, ?_, ?_, ?_⟩
  · rw [hsame.backing]
    exact h.rests
  · rw [hsame.header]
    exact h.covers
  · rw [hsame.byteAt, h.content]

theorem of_quiet (h : Holds host base content q) (hquiet : Quiet (fun o => o.isL2 = false) [] q q')
    (hsound : Sound host [] q') : Holds host base content q' :=
  h.of_same (.of_quiet hquiet) hsound (h.tableOk.quiet hquiet)

end Holds

structure Reading (host : Host) (base content : ByteStore) (q q' : Qcow2File B) : Prop extends Start q q' where
  holds : Holds host base content q'

theorem wp_readChunk (h : Holds host base content q) {pos len : Nat} (hpos : pos < q.header.size)
    (hlen : pos % q.header.clusterSize + len ≤ q.header.clusterSize) :
    (readChunk host q.header.clusterBits pos len).Wp
      (fun bytes q' => bytes = readBytes content pos len ∧ Reading host base content q q') (fun _ _ => False) q := by
  unfold readChunk
  apply Wp.seq (wp_translateCluster h.sound (h.index_lt hpos))
  rintro r q' ⟨rfl, hsound, hquiet⟩
  have hholds := h.of_quiet hquiet hsound
  have hreading : Reading host base content q q' := ⟨.of_kept (Same.of_quiet hquiet).toKept, hholds⟩
  have hframe := hquiet.toFrame
  cases hoff : q.dataOffset (pos / q.header.clusterSize) with
  | none =>
    have hbytes : readBytes base pos len = readBytes content pos len := by
      apply List.map_congr_left
      intro k hk
      rw [List.mem_range] at hk
      obtain ⟨hdiv, -⟩ := div_mod_add q.header.clusterSize pos k (by omega)
      rw [← h.content, byteAt_none (by rw [hdiv, hoff])]
    exact wp_readBacking hholds.rests ⟨hbytes, hreading⟩
  | some off =>
    have hoff' : q'.dataOffset (pos / q.header.clusterSize) = some off := by rw [hframe.dataOffset, hoff]
    have hin : off + pos % q.header.clusterSize + len ≤ q'.file.len := by
      have := hsound.placed.inside (o := .data _) hoff'
      rw [hframe.header] at this
      omega
    have hbytes : readBytes q'.file.data (off + pos % q.header.clusterSize) len = readBytes content pos len := by
      apply List.map_congr_left
      intro k hk
      rw [List.mem_range] at hk
      obtain ⟨hdiv, hmod⟩ := div_mod_add q.header.clusterSize pos k (by omega)
      have hbyte : q'.byteAt base (pos + k) = q'.file.data (off + (pos + k) % q'.header.clusterSize) :=
        byteAt_some (by rw [hframe.header, hdiv, hoff'])
      rw [← hholds.content, hbyte, hframe.header, hmod, Nat.add_assoc]
    apply wp_get_bind
    exact wp_orFail (q'.file.readExact_eq hin) ⟨hbytes, hreading⟩

theorem wp_readLoop (h : Holds host base content q) {pos remaining : Nat} (hend : pos + remaining ≤ q.header.size) :
    (readLoop host q.header.clusterBits pos remaining).Wp
      (fun bytes q' => bytes = readBytes content pos remaining ∧ Reading host base content q q') (fun _ _ => False) q := by
  -- on what is left to read: one pass reads a part of it, and the disk is the same afterwards
  induction remaining using Nat.strong_induction_on generalizing pos q with
  | h remaining ih =>
    unfold readLoop
    split
    · rename_i hpos
      have hchunk := chunkLen_pos q.header.clusterBits pos remaining hpos
      have hle := chunkLen_le q.header.clusterBits pos remaining
      apply Wp.seq (wp_readChunk h (by omega) (chunkLen_fits _ pos remaining))
      rintro chunk q' ⟨rfl, hstart, hholds⟩
      have hheader := hstart.header
      have hend' : pos + chunkLen q.header.clusterBits pos remaining
          + (remaining - chunkLen q.header.clusterBits pos remaining) ≤ q'.header.size := by
        rw [hheader]
        omega
      have hrest := ih _ (by omega) hholds hend'
      rw [hheader] at hrest
      apply Wp.seq hrest
      rintro rest q'' ⟨rfl, hstart', hholds'⟩
      refine wp_pure ⟨?_, hstart.trans hstart', hholds'⟩
      rw [← readBytes_append, Nat.add_sub_cancel' hle]
    · have hzero : remaining = 0 := by omega
      subst hzero
      exact wp_pure ⟨rfl, .refl q, h⟩

theorem wp_readAt (h : Holds host base content q) {offset n : Nat} (hend : offset + n ≤ q.header.size) :
    (readAt host offset n).Wp
      (fun bytes q' => bytes = readBytes content offset n ∧ Reading host base content q q') (fun _ _ => False) q := by
  have hsize := h.sound.fits.size
  unfold readAt
  apply wp_get_bind
  dsimp only
  rw [if_neg (by omega), if_pos hend]
  exact wp_readLoop h hend

theorem wp_fillCluster {off pos len : Nat} (h : Sound host ([] ++ [off]) q) (htable : TableOk host q)
    (hrests : Rests host base q.backing) :
    (fillCluster host q.header.clusterBits pos len off).Wp (fun _ q' => Sound host ([] ++ [off]) q' ∧ TableOk host q' ∧
      Same [] q q' ∧ (len < q.header.clusterSize → ∀ k, k < q.header.clusterSize →
        q'.file.data (off + k) = base (pos - pos % q.header.clusterSize + k))) (fun _ _ => False) q := by
  unfold fillCluster
  split
  · have hlen : (readBytes base (pos - pos % 2 ^ q.header.clusterBits) (2 ^ q.header.clusterBits)).length =
        q.header.clusterSize := readBytes_length _ _ _
    obtain ⟨hin, hsound, hquiet⟩ := h.writeReserved _ hlen.le
    apply Wp.bind
    apply wp_readBacking hrests
    apply wp_writeAll
    · exact hin.trans h.lenLimit
    · refine ⟨hsound, htable.quiet hquiet, ?_, fun _ k hk => ?_⟩
      · apply Same.of_frame hquiet.toFrame.restrict
        rintro o off' - hoff' rfl
        cases hoff'
      · rw [wrote, HostFile.write_data, writeBytes_inside (by rw [hlen]; exact hk)]
        simp only [readBytes, List.getElem_map, List.getElem_range]
        rfl
  · rename_i hfull
    exact wp_pure ⟨h, htable, .refl _ _, fun hlt => absurd hlt hfull⟩

structure Assigned (host : Host) (base : ByteStore) (pos len : Nat) (q : Qcow2File B) (off : Nat) (q' : Qcow2File B) :
    Prop extends Start q q' where
  sound : Sound host [] q'
  tableOk : TableOk host q'
  offset : q'.dataOffset (pos / q.header.clusterSize) = some off
  byteAt : ∀ p, (p / q.header.clusterSize = pos / q.header.clusterSize → len < q.header.clusterSize) →
    q'.byteAt base p = q.byteAt base p

theorem wp_clusterForWrite (hlimit : host.limit ≤ 2 ^ 54) (h : Holds host base content q) {pos len : Nat}
    (hpos : pos < q.header.size) :
    (clusterForWrite host q.header.clusterBits pos len).Wp (Assigned host base pos len q) (Lost host [] q) q := by
  unfold clusterForWrite
  refine Wp.seq (Q := fun r q' => r = q.dataOffset (pos / q.header.clusterSize) ∧ Sound host [] q' ∧
    Quiet (fun o => o.isL2 = false) [] q q') ?_ ?_
  · apply (wp_translateCluster h.sound (h.index_lt hpos)).mono
    · exact fun _ _ hq' => hq'
    · exact fun _ _ hfalse => hfalse.elim
  rintro r q₁ ⟨rfl, hsound₁, hquiet⟩
  have hsame₁ := Same.of_quiet hquiet
  have htable₁ := h.tableOk.quiet hquiet
  cases hoff : q.dataOffset (pos / q.header.clusterSize) with
  | some off =>
    refine wp_pure ⟨.of_kept hsame₁.toKept, hsound₁, htable₁, ?_, fun p _ => ?_⟩
    · rw [hsame₁.dataOffset, hoff]
    · rw [hsame₁.byteAt]
  | none =>
    refine Wp.seq (Q := Allocated host [] q₁) ?_ ?_
    · apply (wp_allocCluster hsound₁ htable₁).mono
      · exact fun _ _ hq' => hq'
      · exact fun _ _ hq' => hsame₁.lost hq'.lost
    intro off q₂ halloc
    have hsame₂ := hsame₁.trans (.of_grown halloc.toGrown)
    have hfill : (fillCluster host q₂.header.clusterBits pos len off).Wp _ _ q₂ :=
      wp_fillCluster halloc.sound halloc.tableOk (by rw [hsame₂.backing]; exact h.rests)
    rw [hsame₂.header] at hfill
    refine Wp.seq (hfill.mono (fun _ _ hq' => hq') fun _ _ hfalse => hfalse.elim) ?_
    rintro _ q₃ ⟨hsound₃, htable₃, hsame, hfilled⟩
    have hsame₃ := hsame₂.trans hsame
    have hset : (setL2Entry host pos (off ||| l2FlagCopied)).Wp _ _ q₃ :=
      wp_setL2Entry hlimit hsound₃ htable₃ (by rw [hsame₃.header]; exact h.index_lt hpos)
    refine Wp.seq (hset.mono (fun _ _ hq' => hq') fun _ _ hq' => hsame₃.lost hq') ?_
    intro _ q₄ hmapped
    rw [hsame₃.header] at hmapped
    have hstart : Start q q₄ := (Start.of_kept hsame₃.toKept).trans (.of_kept hmapped.toKept)
    refine wp_pure ⟨hstart, hmapped.sound, hmapped.tableOk, ?_, fun p hp => ?_⟩
    · rw [hmapped.dataOffset, Function.update_self]
    · by_cases hg : p / q.header.clusterSize = pos / q.header.clusterSize
      · have hbase : q.byteAt base p = base p := byteAt_none (by rw [hg, hoff])
        have hstart : pos - pos % q.header.clusterSize + p % q.header.clusterSize = p := by
          have hsplit := Nat.div_add_mod pos q.header.clusterSize
          have hsplit' := Nat.div_add_mod p q.header.clusterSize
          rw [hg] at hsplit'
          omega
        rw [hmapped.byteAt_self (by rw [hsame₃.header, hg]), hsame₃.header,
          hfilled (hp hg) _ (Nat.mod_lt _ (clusterSize_pos _)), hstart, hbase]
      · rw [hmapped.byteAt_ne (by rwa [hsame₃.header]), hsame₃.byteAt]

def Unwritten (host : Host) (base content : ByteStore) (q : Qcow2File B) (e : Qcow2Error) (q' : Qcow2File B) : Prop :=
  e = .refused ∧ host.limit < q'.nextAllocOffset ∧ Reading host base content q q'

theorem wp_writeChunk (hlimit : host.limit ≤ 2 ^ 54) (h : Holds host base content q) {pos : Nat} {chunk : Bytes}
    (hpos : pos < q.header.size) (hfits : pos % q.header.clusterSize + chunk.length ≤ q.header.clusterSize) :
    (writeChunk host q.header.clusterBits pos chunk).Wp
      (fun _ => Reading host base (writeBytes content pos chunk) q) (Unwritten host base content q) q := by
  unfold writeChunk
  refine Wp.seq (Q := Assigned host base pos chunk.length q) ?_ ?_
  · apply (wp_clusterForWrite hlimit h hpos).mono
    · exact fun _ _ hq' => hq'
    · exact fun _ _ hq' => ⟨hq'.refused, hq'.full, .of_kept hq'.toKept, h.of_same hq'.toSame hq'.sound hq'.tableOk⟩
  · intro off q' hq'
    have hoff : q'.dataOffset (pos / q'.header.clusterSize) = some off := by rw [hq'.header, hq'.offset]
    obtain ⟨hin, hsound, hquiet⟩ := hq'.sound.writeData (k := pos % q'.header.clusterSize) hoff chunk
      (by rwa [hq'.header])
    have hstart : Start q' (q'.wrote (off + pos % q'.header.clusterSize) chunk) := by
      refine ⟨rfl, rfl, fun k hk => ?_⟩
      have := hquiet.bytes .header 0 rfl (by simp) k hk
      rwa [Nat.zero_add] at this
    have hbytes := byteAt_wrote base hoff hquiet (by rwa [hq'.header])
    have hcontent : writeBytes (q'.byteAt base) pos chunk = writeBytes content pos chunk := by
      apply writeBytes_congr
      intro p hout
      rw [← h.content]
      -- a chunk of a whole cluster leaves no byte of its cluster outside
      refine hq'.byteAt p fun hg => Nat.lt_of_not_le fun hfull => ?_
      have hsplit := Nat.div_add_mod pos q.header.clusterSize
      have hsplit' := Nat.div_add_mod p q.header.clusterSize
      have hlt := Nat.mod_lt p (clusterSize_pos q.header)
      rw [hg] at hsplit'
      omega
    have hwrite : (writeAll host (off + pos % q'.header.clusterSize) chunk).Wp
        (fun _ => Reading host base (writeBytes content pos chunk) q) (Unwritten host base content q) q' := by
      apply wp_writeAll (hin.trans hq'.sound.lenLimit)
      refine ⟨hq'.toStart.trans hstart, hsound, hq'.tableOk.quiet hquiet, ?_, ?_, hbytes.trans hcontent⟩
      · exact hq'.backing ▸ h.rests
      · exact hq'.header ▸ h.covers
    rw [hq'.header] at hwrite
    exact hwrite

def Cut (host : Host) (base content : ByteStore) (pos : Nat) (data : Bytes) (q : Qcow2File B) (e : Qcow2Error)
    (q' : Qcow2File B) : Prop :=
  e = .refused ∧ host.limit < q'.nextAllocOffset ∧ ∃ k, Reading host base (writeBytes content pos (data.take k)) q q'

theorem wp_writeLoop (hlimit : host.limit ≤ 2 ^ 54) (h : Holds host base content q) {pos : Nat} {data : Bytes}
    (hend : pos + data.length ≤ q.header.size) :
    (writeLoop host q.header.clusterBits pos data).Wp
      (fun _ => Reading host base (writeBytes content pos data) q) (Cut host base content pos data q) q := by
  -- on what is left to write: one pass writes a first part of it to the disk, or nothing
  induction hlen : data.length using Nat.strong_induction_on generalizing content pos data q with
  | h remaining ih =>
    subst hlen
    unfold writeLoop
    split
    · rename_i hpos
      have hchunk := chunkLen_pos q.header.clusterBits pos data.length hpos
      have hle := chunkLen_le q.header.clusterBits pos data.length
      have hfits := chunkLen_fits q.header.clusterBits pos data.length
      have htake : (data.take (chunkLen q.header.clusterBits pos data.length)).length =
          chunkLen q.header.clusterBits pos data.length := List.length_take_of_le hle
      have hsplit : ∀ k, writeBytes (writeBytes content pos (data.take (chunkLen q.header.clusterBits pos data.length)))
          (pos + chunkLen q.header.clusterBits pos data.length)
          ((data.drop (chunkLen q.header.clusterBits pos data.length)).take k) =
            writeBytes content pos (data.take (chunkLen q.header.clusterBits pos data.length + k)) := by
        intro k
        rw [List.take_add, writeBytes_append, htake]
      refine Wp.seq (Q := fun _ => Reading host base
        (writeBytes content pos (data.take (chunkLen q.header.clusterBits pos data.length))) q) ?_ ?_
      · apply (wp_writeChunk hlimit h (by omega) (by rw [htake]; exact hfits)).mono
        · exact fun _ _ hq' => hq'
        · rintro e q' ⟨he, hfull, hq'⟩
          refine ⟨he, hfull, 0, ?_⟩
          rwa [List.take_zero, writeBytes_nil]
      · rintro _ q' ⟨hstart, hholds⟩
        have hheader := hstart.header
        have hend' : pos + chunkLen q.header.clusterBits pos data.length
            + (data.drop (chunkLen q.header.clusterBits pos data.length)).length ≤ q'.header.size := by
          rw [hheader, List.length_drop]
          omega
        have hrest := ih _ (by rw [List.length_drop]; omega) hholds hend' rfl
        rw [hheader] at hrest
        apply hrest.mono
        · rintro _ q'' ⟨hstart', hholds'⟩
          refine ⟨hstart.trans hstart', ?_⟩
          have hall := hsplit (data.length - chunkLen q.header.clusterBits pos data.length)
          rw [← List.length_drop, List.take_length, List.length_drop, Nat.add_sub_cancel' hle, List.take_length] at hall
          rwa [hall] at hholds'
        · rintro e q'' ⟨he, hfull, k, hstart', hholds'⟩
          refine ⟨he, hfull, chunkLen q.header.clusterBits pos data.length + k, hstart.trans hstart', ?_⟩
          rwa [hsplit] at hholds'
    · have hnil : data = [] := List.length_eq_zero_iff.mp (by omega)
      subst hnil
      apply wp_pure
      rw [writeBytes_nil]
      exact ⟨.refl q, h⟩

theorem wp_writeAt (hlimit : host.limit ≤ 2 ^ 54) (h : Holds host base content q) {offset : Nat} {data : Bytes}
    (hend : offset + data.length ≤ q.header.size) :
    (writeAt host offset data).Wp
      (fun _ => Reading host base (writeBytes content offset data) q) (Cut host base content offset data q) q := by
  have hsize := h.sound.fits.size
  unfold writeAt
  apply wp_get_bind
  dsimp only
  rw [if_neg (by omega), if_pos hend]
  exact wp_writeLoop hlimit h hend

end Qcow2File

end CloneVmm.Storage
