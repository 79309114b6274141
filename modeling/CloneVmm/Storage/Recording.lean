import CloneVmm.Storage.Lag
import CloneVmm.Storage.Stable

namespace CloneVmm.Storage

open CloneVmm.Lib CloneVmm.Lib.Prog

namespace Qcow2File

variable {B : Type} {host : Host} {rs rs' : List Nat} {q q' q'' : Qcow2File B} {i off : Nat}

theorem Recorded.of_grown (h : Lagging q) (hsound : Sound host rs q) (hgrown : Grown rs q q') : Recorded q q' :=
  .of_data h hsound hgrown.toFrame (fun _ => rfl) fun _ => rfl

theorem wp_newL2Table_recorded (hlimit : host.limit ≤ 2 ^ 54) (h : Lagging q) (hsound : Sound host rs q)
    (htable : TableOk host q) (hi : i < q.header.l1Size) (hnone : q.l2Offset i = none) :
    (newL2Table host i).Wp (fun _ => Recorded q) (fun _ => Recorded q) q := by
  have hmod : i % 2 ^ 32 = i := Nat.mod_eq_of_lt (hi.trans hsound.fits.l1Size)
  unfold newL2Table
  rw [hmod]
  apply Wp.seq ((wp_allocCluster hsound htable).mono (fun _ _ hq' => hq') fun _ _ hfailed =>
    .of_grown h hsound hfailed.toGrown)
  intro off q' halloc
  have hrecorded : Recorded q q' := .of_grown h hsound halloc.toGrown
  have hnone' : q'.l2Offset i = none := by rw [halloc.toFrame.l2Offset, hnone]
  apply wp_modifyGet
  refine hrecorded.trans (.withL2Table hrecorded.lagging halloc.sound hlimit (by rwa [halloc.header]) hnone' ?_)
  rw [halloc.header]
  exact halloc.zero

theorem wp_ensureL2Table_recorded (hlimit : host.limit ≤ 2 ^ 54) (h : Lagging q) (hsound : Sound host rs q)
    (htable : TableOk host q) {e : Nat} (he : q.l1Table[i]? = some e) :
    (ensureL2Table host i e).Wp (fun _ => Recorded q) (fun _ => Recorded q) q := by
  have hi : i < q.header.l1Size := by
    rw [← hsound.l1Length]
    exact (List.getElem?_eq_some_iff.mp he).1
  have hmod : i % 2 ^ 32 = i := Nat.mod_eq_of_lt (hi.trans hsound.fits.l1Size)
  unfold ensureL2Table
  split
  · rename_i hzero
    apply wp_newL2Table_recorded hlimit h hsound htable hi
    rw [l2Offset, he, Option.bind_some, if_pos hzero]
  · rename_i hne
    have hoff : q.l2Offset i = some (e &&& l1OffsetMask) := by rw [l2Offset, he, Option.bind_some, if_neg hne]
    rw [hmod]
    apply ((wp_ensureL2Cached hsound hoff).and (wp_ensureL2Cached_spills hsound hoff)).mono
    · rintro _ q' ⟨⟨-, hquiet, -⟩, hspills⟩
      exact .of_frame h hquiet.toFrame (fun _ => rfl) hspills
    · exact fun _ _ hfalse => hfalse.1.elim

theorem wp_setL2Entry_recorded (hlimit : host.limit ≤ 2 ^ 54) (h : Lagging q) (hsound : Sound host (rs ++ [off]) q)
    (htable : TableOk host q) {pos : Nat} (hpos : l1IndexOf q.header pos < q.header.l1Size)
    (hnone : q.dataOffset (pos / q.header.clusterSize) = none) :
    (setL2Entry host pos (off ||| l2FlagCopied)).Wp (fun _ => Recorded q) (fun _ => Recorded q) q := by
  have hmod : l1IndexOf q.header pos % 2 ^ 32 = l1IndexOf q.header pos :=
    Nat.mod_eq_of_lt (hpos.trans hsound.fits.l1Size)
  have hentry : q.l1Table[l1IndexOf q.header pos]? = some _ := List.getElem?_eq_getElem (by rwa [hsound.l1Length])
  unfold setL2Entry
  apply wp_get_bind
  dsimp only
  rw [hmod]
  apply Wp.bind
  apply wp_orFail hentry
  apply Wp.seq (((wp_ensureL2Table hlimit hsound htable hentry).and
    (wp_ensureL2Table_recorded hlimit h hsound htable hentry)).mono (fun _ _ hq' => hq') fun _ _ hq' => hq'.2)
  rintro _ q' ⟨hready, hrecorded⟩
  obtain ⟨entry, hlookup⟩ := hready.cached
  rw [← hready.header] at hlookup
  have hupdate := wp_updateL2Entry hready.sound hlookup (off ||| l2FlagCopied)
  rw [hready.header] at hupdate
  apply hupdate.mono
  · rintro _ _ rfl
    refine hrecorded.trans (.withEntry hrecorded.lagging hready.sound hlimit ?_ (by rw [hready.dataOffset, hnone]))
    rw [← hlookup, hready.header]
    rfl
  · exact fun _ _ hfalse => hfalse.elim

section Content

variable [Backing B] {base content : ByteStore}

structure Looked (host : Host) (base content : ByteStore) (q q' : Qcow2File B) : Prop extends Recorded q q' where
  holds : Holds host base content q'
  same : q'.dataOffset = q.dataOffset

theorem keeps_translateCluster_looked (pos : Nat) :
    (translateCluster host pos).Keeps (Looked host base content q) fun _ => True := by
  intro q' h
  by_cases hpos : l1IndexOf q'.header pos < q'.header.l1Size
  · apply ((wp_translateCluster h.holds.sound hpos).and (wp_translateCluster_spills h.holds.sound hpos)).mono
    · rintro _ q'' ⟨⟨-, hsound, hquiet⟩, hspills⟩
      have hrecorded : Recorded q' q'' := .of_frame h.lagging hquiet.toFrame (fun _ => rfl) hspills
      exact ⟨⟨h.toRecorded.trans hrecorded, h.holds.of_quiet hquiet hsound, hquiet.toFrame.dataOffset.trans h.same⟩,
        trivial⟩
    · exact fun _ _ hfalse => hfalse.1.elim
  · apply (wp_translateCluster_outside h.holds.sound.l1Length hpos).mono
    · exact fun _ _ hfalse => hfalse.elim
    · rintro _ q'' rfl
      exact h

theorem readAt_looked (h : Holds host base content q) (hlag : Lagging q) (offset n : Nat) :
    (readAt host offset n).Ends (Looked host base content q) (fun _ => True) q := by
  have hkeeps : (readAt host offset n).Keeps (Looked host base content q) fun _ => True :=
    keeps_readAt keeps_translateCluster_looked (fun _ _ _ hq' => wp_readBacking hq'.holds.rests ⟨hq', trivial⟩) offset n
  exact hkeeps q ⟨.refl hlag, h, rfl⟩

theorem wp_fillCluster_frame {pos len : Nat} (h : Sound host (rs ++ [off]) q) (hrests : Rests host base q.backing) :
    (fillCluster host q.header.clusterBits pos len off).Wp
      (fun _ q' => Frame (fun o => ¬ o = .reserved rs.length) (rs ++ [off]) q q') (fun _ _ => False) q := by
  unfold fillCluster
  split
  · have hlen : (readBytes base (pos - pos % 2 ^ q.header.clusterBits) (2 ^ q.header.clusterBits)).length =
        q.header.clusterSize := readBytes_length _ _ _
    obtain ⟨hin, -, hquiet⟩ := h.writeReserved _ hlen.le
    apply Wp.bind
    apply wp_readBacking hrests
    exact wp_writeAll (hin.trans h.lenLimit) hquiet.toFrame
  · exact wp_pure (.of_data rfl rfl rfl rfl rfl)

theorem wp_clusterForWrite_recorded (hlimit : host.limit ≤ 2 ^ 54) (h : Holds host base content q) (hlag : Lagging q)
    {pos len : Nat} (hpos : pos < q.header.size) :
    (clusterForWrite host q.header.clusterBits pos len).Wp (fun _ => Recorded q) (fun _ => Recorded q) q := by
  have hindex := h.index_lt hpos
  unfold clusterForWrite
  apply Wp.seq ((wp_translateCluster h.sound hindex).and_of_ok (wp_translateCluster_spills h.sound hindex))
  rintro r q₁ ⟨⟨rfl, hsound₁, hquiet⟩, hspills⟩
  have hrecorded₁ : Recorded q q₁ := .of_frame hlag hquiet.toFrame (fun _ => rfl) hspills
  have htable₁ := h.tableOk.quiet hquiet
  cases hoff : q.dataOffset (pos / q.header.clusterSize) with
  | some off => exact wp_pure hrecorded₁
  | none =>
    apply Wp.seq ((wp_allocCluster hsound₁ htable₁).mono (fun _ _ hq' => hq') fun _ _ hfailed =>
      hrecorded₁.trans (.of_grown hrecorded₁.lagging hsound₁ hfailed.toGrown))
    intro off q₂ halloc
    have hrecorded₂ := hrecorded₁.trans (.of_grown hrecorded₁.lagging hsound₁ halloc.toGrown)
    have hsame₂ := (Same.of_quiet hquiet).trans (.of_grown halloc.toGrown)
    have hrests : Rests host base q₂.backing := by
      rw [hsame₂.backing]
      exact h.rests
    have hfill : (fillCluster host q₂.header.clusterBits pos len off).Wp _ (fun _ => Recorded q) q₂ :=
      (wp_fillCluster halloc.sound halloc.tableOk hrests).and_of_ok (wp_fillCluster_frame halloc.sound hrests)
    rw [hsame₂.header] at hfill
    apply Wp.seq hfill
    rintro _ q₃ ⟨⟨hsound₃, htable₃, hsame, -⟩, hframe⟩
    have hrecorded₃ := hrecorded₂.trans (.of_data hrecorded₂.lagging halloc.sound hframe (by simp) (by simp))
    have hsame₃ := hsame₂.trans hsame
    have hset : (setL2Entry host pos (off ||| l2FlagCopied)).Wp _ _ q₃ :=
      wp_setL2Entry_recorded hlimit hrecorded₃.lagging hsound₃ htable₃ (by rwa [hsame₃.header])
        (by rw [hsame₃.header, hsame₃.dataOffset, hoff])
    apply Wp.seq (hset.mono (fun _ _ hq' => hq') fun _ _ hq' => hrecorded₃.trans hq')
    exact fun _ q₄ hrecorded₄ => wp_pure (hrecorded₃.trans hrecorded₄)

theorem wp_writeChunk_recorded (hlimit : host.limit ≤ 2 ^ 54) (h : Holds host base content q) (hlag : Lagging q)
    {pos : Nat} {chunk : Bytes} (hpos : pos < q.header.size)
    (hfits : pos % q.header.clusterSize + chunk.length ≤ q.header.clusterSize) :
    (writeChunk host q.header.clusterBits pos chunk).Wp (fun _ q' => Recorded q q' ∧
      ∃ off, q'.dataOffset (pos / q.header.clusterSize) = some off) (fun _ => Recorded q) q := by
  unfold writeChunk
  apply Wp.seq (((wp_clusterForWrite hlimit h hpos).and (wp_clusterForWrite_recorded hlimit h hlag hpos)).mono
    (fun _ _ hq' => hq') fun _ _ hq' => hq'.2)
  rintro off q' ⟨hassigned, hrecorded⟩
  have hoff : q'.dataOffset (pos / q'.header.clusterSize) = some off := by rw [hassigned.header, hassigned.offset]
  obtain ⟨hin, -, hquiet⟩ := hassigned.sound.writeData (k := pos % q'.header.clusterSize) hoff chunk
    (by rwa [hassigned.header])
  have hwrite : (writeAll host (off + pos % q'.header.clusterSize) chunk).Wp (fun _ q'' => Recorded q q'' ∧
      ∃ off, q''.dataOffset (pos / q.header.clusterSize) = some off) (fun _ => Recorded q) q' := by
    apply wp_writeAll (hin.trans hassigned.sound.lenLimit)
    refine ⟨hrecorded.trans (.of_data hrecorded.lagging hassigned.sound hquiet.toFrame (by simp) (by simp)), off, ?_⟩
    rw [hquiet.toFrame.dataOffset, hassigned.offset]
  rw [hassigned.header] at hwrite
  exact hwrite

def Touches (pos n : Nat) (q q' : Qcow2File B) : Prop :=
  ∀ p, pos ≤ p → p < pos + n → ∃ off, q'.dataOffset (p / q.header.clusterSize) = some off

theorem wp_writeLoop_recorded (hlimit : host.limit ≤ 2 ^ 54) (h : Holds host base content q) (hlag : Lagging q)
    {pos : Nat} {data : Bytes} (hend : pos + data.length ≤ q.header.size) :
    (writeLoop host q.header.clusterBits pos data).Wp (fun _ q' => Recorded q q' ∧ Touches pos data.length q q')
      (fun _ => Recorded q) q := by
  induction hlen : data.length using Nat.strong_induction_on generalizing content pos data q with
  | h remaining ih =>
    subst hlen
    unfold writeLoop
    split
    · rename_i hpos
      have hle := chunkLen_le q.header.clusterBits pos data.length
      have hchunk := chunkLen_pos q.header.clusterBits pos data.length hpos
      have hfits := chunkLen_fits q.header.clusterBits pos data.length
      have htake : (data.take (chunkLen q.header.clusterBits pos data.length)).length =
          chunkLen q.header.clusterBits pos data.length := List.length_take_of_le hle
      have hin : pos % q.header.clusterSize + (data.take (chunkLen q.header.clusterBits pos data.length)).length ≤
          q.header.clusterSize := by rwa [htake]
      apply Wp.seq (((wp_writeChunk hlimit h (by omega) hin).and
        (wp_writeChunk_recorded hlimit h hlag (by omega) hin)).mono (fun _ _ hq' => hq') fun _ _ hq' => hq'.2)
      rintro _ q' ⟨⟨hstart, hholds⟩, hrecorded, off, hoff⟩
      have hheader := hstart.header
      have hend' : pos + chunkLen q.header.clusterBits pos data.length
          + (data.drop (chunkLen q.header.clusterBits pos data.length)).length ≤ q'.header.size := by
        rw [hheader, List.length_drop]
        omega
      have hrest := ih _ (by rw [List.length_drop]; omega) hholds hrecorded.lagging hend' rfl
      rw [hheader] at hrest
      apply hrest.mono
      · rintro _ q'' ⟨hrecorded', htouched⟩
        refine ⟨hrecorded.trans hrecorded', fun p hlo hhi => ?_⟩
        by_cases hp : p < pos + chunkLen q.header.clusterBits pos data.length
        · obtain ⟨k, rfl⟩ := Nat.exists_eq_add_of_le hlo
          obtain ⟨hdiv, -⟩ := div_mod_add q.header.clusterSize pos k
            (by change pos % q.header.clusterSize + _ ≤ q.header.clusterSize at hfits; omega)
          exact ⟨off, by rw [hdiv]; exact hrecorded'.dataOffset _ _ hoff⟩
        · have htouch := htouched p (by omega) (by rw [List.length_drop]; omega)
          rwa [hheader] at htouch
      · exact fun _ _ hrecorded' => hrecorded.trans hrecorded'
    · exact wp_pure ⟨.refl hlag, fun p hlo hhi => by omega⟩

theorem wp_writeAt_recorded (hlimit : host.limit ≤ 2 ^ 54) (h : Holds host base content q) (hlag : Lagging q)
    {offset : Nat} {data : Bytes} (hend : offset + data.length ≤ q.header.size) :
    (writeAt host offset data).Wp (fun _ q' => Recorded q q' ∧ Touches offset data.length q q')
      (fun _ => Recorded q) q := by
  have hsize := h.sound.fits.size
  unfold writeAt
  apply wp_get_bind
  dsimp only
  rw [if_neg (by omega), if_pos hend]
  exact wp_writeLoop_recorded hlimit h hlag hend

end Content

section Flush

variable (host)

def inOrder : List (Io B Unit) → Io B Unit
  | [] => pure ()
  | m :: ms => do
    m
    inOrder ms

def flushSteps (q : Qcow2File B) : List (Io B Unit) :=
  (dirtyIndices host q).map (flushL2Table host) ++ [writeL1Table host, writeRefcountTable host]

def flushUntil (n : Nat) : Io B Unit := do
  inOrder ((flushSteps host (← get)).take n)

theorem inOrder_flushL2Tables (indices : List Nat) (ms : List (Io B Unit)) :
    inOrder (indices.map (flushL2Table host) ++ ms) = (do flushL2Tables host indices; inOrder ms : Io B Unit) := by
  induction indices with
  | nil => rfl
  | cons i indices ih =>
    rw [List.map_cons, List.cons_append, inOrder, ih, flushL2Tables]
    exact (bind_assoc _ _ _).symm

theorem flush_eq_inOrder : flush host = (do inOrder (flushSteps host (← get)) : Io B Unit) := by
  have hlast : (inOrder [writeL1Table host, writeRefcountTable host] : Io B Unit) = (do
      writeL1Table host
      writeRefcountTable host) := congrArg (writeL1Table host >>= ·) (funext fun _ => bind_pure _)
  unfold flush flushSteps
  congr 1
  funext q
  rw [inOrder_flushL2Tables, hlast]

variable {host}

theorem keeps_inOrder {I : Qcow2File B → Prop} {ms : List (Io B Unit)} (h : ∀ m ∈ ms, m.Keeps I fun _ => True) :
    (inOrder ms).Keeps I fun _ => True := by
  induction ms with
  | nil => exact keeps_pure trivial
  | cons m ms ih =>
    exact (h m List.mem_cons_self).bind fun _ _ => ih fun m' hm' => h m' (List.mem_cons_of_mem m hm')

structure Flushing (host : Host) (q q' : Qcow2File B) : Prop extends Turns q q' where
  sound : Sound host [] q'
  tableOk : TableOk host q'
  recorded : Recorded q q'

theorem Flushing.refl (h : Sound host [] q) (htable : TableOk host q) (hlag : Lagging q) : Flushing host q q := by
  have hframe : Frame (fun _ => True) [] q q := .of_data rfl rfl rfl rfl rfl
  exact ⟨.of_frame hframe (fun _ => trivial) trivial, h, htable, .refl hlag⟩

theorem Flushing.quiet {P : Owner → Prop} (h : Flushing host q q') (hsound : Sound host [] q'')
    (hquiet : Quiet P [] q' q'') (hP : ∀ g, P (.data g)) (hheader : P .header) (hrecorded : Recorded q' q'') :
    Flushing host q q'' :=
  ⟨h.toTurns.trans (.of_frame hquiet.toFrame hP hheader), hsound, h.tableOk.quiet hquiet,
    h.recorded.trans hrecorded⟩

theorem keeps_flushL2Table_flushing (i : Nat) : (flushL2Table host i).Keeps (Flushing (B := B) host q) fun _ => True := by
  intro q' h
  cases hlookup : q'.l2Cache.lookup i with
  | none =>
    apply wp_get_bind
    rw [hlookup]
    exact Wp.fails_bind (wp_throw h)
  | some entry =>
    apply ((wp_flushL2Table h.sound hlookup).and_of_ok (wp_flushL2Table_spills h.sound hlookup)).mono
    · rintro _ q'' ⟨⟨hsound, hquiet, -⟩, hspills⟩
      exact ⟨h.quiet hsound hquiet (fun _ => rfl) rfl (.of_frame h.recorded.lagging hquiet.toFrame (fun _ => rfl) hspills),
        trivial⟩
    · exact fun _ _ hq'' => hq''

theorem recorded_writeL1Table (h : Lagging q) (hsound : Sound host [] q)
    (hquiet : Quiet (fun o => ∀ i, o ≠ .l1 i) [] q q') (hstored : q'.L1Stored) : Recorded q q' := by
  have hl1 : q'.storedL1 = q.l1Table := hstored.trans hquiet.l1Table
  have hl2 : ∀ i off, q.l2Offset i = some off → q'.storedL2 off = q.storedL2 off := fun i off hoff =>
    hsound.storedL2_eq hquiet.header (hquiet.bytes (.l2 i) off hoff fun i' heq => by cases heq)
  refine ⟨⟨?_, fun i off hoff => ?_⟩, by rw [hquiet.header], ?_, fun i off hoff => ⟨?_, ?_⟩, fun g off hoff => ?_⟩
  · rw [hl1, hquiet.l1Table]
    exact .refl _
  · rw [hquiet.toFrame.l2Offset] at hoff
    rw [hl2 i off hoff, hquiet.view i off hoff]
    exact h.l2 i off hoff
  · rw [hl1]
    exact h.l1
  · rwa [hquiet.toFrame.l2Offset]
  · rw [hl2 i off hoff]
    exact .refl _
  · rwa [hquiet.toFrame.dataOffset]

theorem keeps_writeL1Table_flushing : (writeL1Table host).Keeps (Flushing (B := B) host q) fun _ => True := by
  intro q' h
  apply (wp_writeL1Table h.sound).mono
  · rintro _ q'' ⟨hsound, hquiet, -, hstored⟩
    exact ⟨h.quiet hsound hquiet (by simp) (by simp) (recorded_writeL1Table h.recorded.lagging h.sound hquiet hstored),
      trivial⟩
  · exact fun _ _ hfalse => hfalse.elim

theorem keeps_writeRefcountTable_flushing (hlimit : host.limit ≤ 2 ^ 54) :
    (writeRefcountTable host).Keeps (Flushing (B := B) host q) fun _ => True := by
  intro q' h
  have hgrew : ∀ q'', Grew host q' q'' → Flushing host q q'' := fun q'' hq'' =>
    ⟨h.toTurns.trans (.of_moves hq''.toMoves h.sound.fits), hq''.sound, hq''.tableOk,
      h.recorded.trans (.of_moves h.recorded.lagging h.sound hq''.toMoves)⟩
  apply (wp_writeRefcountTable hlimit h.sound h.tableOk).mono
  · exact fun _ q'' hq'' => ⟨hgrew q'' hq'', trivial⟩
  · exact fun _ q'' hq'' => hgrew q'' hq''.2.2

theorem keeps_flushSteps (hlimit : host.limit ≤ 2 ^ 54) {q' : Qcow2File B} {ms : List (Io B Unit)}
    (hsub : ms ⊆ flushSteps host q') : (inOrder ms).Keeps (Flushing (B := B) host q) fun _ => True := by
  refine keeps_inOrder fun m hm => ?_
  rcases List.mem_append.mp (hsub hm) with hl2 | hrest
  · obtain ⟨i, -, rfl⟩ := List.mem_map.mp hl2
    exact keeps_flushL2Table_flushing i
  · rcases List.mem_cons.mp hrest with rfl | hlast
    · exact keeps_writeL1Table_flushing
    · obtain rfl := List.mem_singleton.mp hlast
      exact keeps_writeRefcountTable_flushing hlimit

theorem keeps_flushUntil_flushing (hlimit : host.limit ≤ 2 ^ 54) (n : Nat) :
    (flushUntil host n).Keeps (Flushing (B := B) host q) fun _ => True :=
  keeps_get.bind fun _ _ => keeps_flushSteps hlimit (List.take_subset n _)

theorem keeps_flush_flushing (hlimit : host.limit ≤ 2 ^ 54) : (flush host).Keeps (Flushing (B := B) host q) fun _ => True := by
  rw [flush_eq_inOrder]
  exact keeps_get.bind fun _ _ => keeps_flushSteps hlimit (List.Subset.refl _)

end Flush

end Qcow2File

end CloneVmm.Storage
