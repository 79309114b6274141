import CloneVmm.Lib.Writes
import CloneVmm.Virtio.NetReceive
import CloneVmm.Virtio.Rings
import Mathlib.Data.List.Perm.Subperm

namespace CloneVmm.Virtio.Net

open CloneVmm.Lib Raw

def pieces (l : GuestLayout) : List Descriptor → List UInt8 → List Write
  | [], _ => []
  | desc :: descs, data =>
    if desc.flags &&& vringDescFWrite ≠ 0 then
      ⟨gpaToPtr l desc.addr, data.take desc.len⟩ :: pieces l descs (data.drop desc.len)
    else pieces l descs data

def put (mem : ByteStore) (ws : List Write) : ByteStore := ws.foldl Write.apply mem

theorem room_cons (desc : Descriptor) (descs : List Descriptor) :
    room (desc :: descs) = (if desc.flags &&& vringDescFWrite ≠ 0 then desc.len else 0) + room descs := rfl

theorem pieces_data (l : GuestLayout) (descs : List Descriptor) (data : List UInt8) :
    (pieces l descs data).flatMap Write.data = data.take (room descs) := by
  induction descs generalizing data with
  | nil => rfl
  | cons desc descs ih =>
    rw [pieces, room_cons]
    split
    · rw [List.flatMap_cons, ih, List.take_add]
    · rw [ih, Nat.zero_add]

theorem put_pieces_nil (l : GuestLayout) (descs : List Descriptor) (mem : ByteStore) :
    put mem (pieces l descs []) = mem := by
  induction descs generalizing mem with
  | nil => rfl
  | cons desc descs ih =>
    rw [pieces]
    split
    · have happly : Write.apply mem ⟨gpaToPtr l desc.addr, ([] : List UInt8).take desc.len⟩ = mem := by
        rw [List.take_nil]
        exact writeBytes_nil mem _
      rw [List.drop_nil, put, List.foldl_cons, happly]
      exact ih mem
    · exact ih mem

theorem fill_copy (desc : Descriptor) (offset : Nat) (mem : ByteStore) (filling : Filling)
    (hwrite : desc.flags &&& vringDescFWrite ≠ 0) :
    let data := filling.hdr ++ filling.frame
    ∃ filling', fill.copy offset desc (mem, filling) = (writeBytes mem offset (data.take desc.len), filling') ∧
      filling'.hdr ++ filling'.frame = data.drop desc.len ∧
      filling'.written = filling.written + .ofNat (min data.length desc.len) := by
  obtain ⟨hdr, frame, written⟩ := filling
  simp only [fill, if_pos hwrite]
  rcases Nat.lt_or_ge hdr.length desc.len with hlt | hge
  · -- The buffer takes the whole header, and goes on with the frame.
    rw [Nat.min_eq_left hlt.le, List.take_length, List.drop_length]
    have htake : (hdr ++ frame).take desc.len = hdr ++ frame.take (desc.len - hdr.length) := by
      rw [List.take_append, List.take_of_length_le hlt.le]
    have hdrop : (hdr ++ frame).drop desc.len = frame.drop (desc.len - hdr.length) := by
      rw [List.drop_append, List.drop_eq_nil_of_le hlt.le, List.nil_append]
    by_cases hframe : frame = []
    · subst hframe
      rw [if_neg fun h => h.2 rfl, htake, hdrop, List.take_nil, List.drop_nil, List.append_nil]
      exact ⟨_, rfl, rfl, by rw [Nat.min_eq_left hlt.le]⟩
    · rw [if_pos ⟨hlt, hframe⟩, htake, hdrop, writeBytes_append]
      have htake' : frame.take (min frame.length (desc.len - hdr.length)) = frame.take (desc.len - hdr.length) := by
        rcases Nat.le_total frame.length (desc.len - hdr.length) with hle | hle
        · rw [Nat.min_eq_left hle, List.take_length, List.take_of_length_le hle]
        · rw [Nat.min_eq_right hle]
      have hdrop' : frame.drop (min frame.length (desc.len - hdr.length)) = frame.drop (desc.len - hdr.length) := by
        rcases Nat.le_total frame.length (desc.len - hdr.length) with hle | hle
        · rw [Nat.min_eq_left hle, List.drop_length, List.drop_eq_nil_of_le hle]
        · rw [Nat.min_eq_right hle]
      have hcount : hdr.length + min frame.length (desc.len - hdr.length) = min (hdr ++ frame).length desc.len := by
        rw [List.length_append]
        omega
      rw [htake', hdrop', hcount]
      exact ⟨_, rfl, rfl, rfl⟩
  · -- The header alone fills the buffer.
    have hcount : min (hdr ++ frame).length desc.len = desc.len := by
      rw [List.length_append]
      omega
    have hfull : ¬ (desc.len < desc.len ∧ frame ≠ []) := fun h => Nat.lt_irrefl _ h.1
    rw [Nat.min_eq_right hge, if_neg hfull, List.take_append_of_le_length hge, List.drop_append_of_le_length hge, hcount]
    exact ⟨_, rfl, rfl, rfl⟩

theorem fill_foldl (l : GuestLayout) (descs : List Descriptor) (mem : ByteStore) (filling : Filling) :
    let data := filling.hdr ++ filling.frame
    (descs.foldl (fun s desc => fill.copy (gpaToPtr l desc.addr) desc s) (mem, filling)).1 =
        put mem (pieces l descs data) ∧
      (descs.foldl (fun s desc => fill.copy (gpaToPtr l desc.addr) desc s) (mem, filling)).2.written =
        filling.written + .ofNat (data.take (room descs)).length := by
  induction descs generalizing mem filling with
  | nil => exact ⟨rfl, (UInt32.add_zero _).symm⟩
  | cons desc descs ih =>
    dsimp only
    rw [List.foldl_cons, room_cons, pieces]
    by_cases hwrite : desc.flags &&& vringDescFWrite ≠ 0
    · rw [if_pos hwrite, if_pos hwrite]
      obtain ⟨filling', hcopy, hdata, hwritten⟩ := fill_copy desc (gpaToPtr l desc.addr) mem filling hwrite
      rw [hcopy]
      obtain ⟨hmem, hcount⟩ := ih (writeBytes mem (gpaToPtr l desc.addr) ((filling.hdr ++ filling.frame).take desc.len))
        filling'
      rw [hdata] at hmem hcount
      have hlength : ∀ data : List UInt8, min data.length desc.len + ((data.drop desc.len).take (room descs)).length =
          (data.take (desc.len + room descs)).length := by
        intro data
        simp only [List.length_take, List.length_drop]
        omega
      refine ⟨hmem, hcount.trans ?_⟩
      rw [hwritten, UInt32.add_assoc, ← UInt32.ofNat_add, hlength]
    · have hcopy : fill.copy (gpaToPtr l desc.addr) desc (mem, filling) = (mem, filling) := if_neg hwrite
      rw [hcopy, if_neg hwrite, if_neg hwrite, Nat.zero_add]
      exact ih mem filling

theorem fillDescriptors_nil (vq : Virtqueue) (descs : List Descriptor) (written : Nat) (mem : ByteStore) :
    MmioTransport.fillDescriptors vq descs [] written mem = (written, mem) := by
  induction descs with
  | nil => rfl
  | cons desc descs ih =>
    rw [MmioTransport.fillDescriptors]
    split
    · exact ih
    · rfl

theorem fillDescriptors_eq {vq : Virtqueue} {descs : List Descriptor}
    (hfound : ∀ desc ∈ descs, desc.flags &&& vringDescFWrite ≠ 0 → desc.len ≠ 0 →
      vq.writeDescriptorData desc = some (gpaToPtr vq.layout desc.addr))
    (src : List UInt8) (written : Nat) (mem : ByteStore) :
    MmioTransport.fillDescriptors vq descs src written mem =
      (written + (src.take (room descs)).length, put mem (pieces vq.layout descs src)) := by
  induction descs generalizing src written mem with
  | nil => rfl
  | cons desc descs ih =>
    have hrest := ih fun d hd => hfound d (List.mem_cons_of_mem desc hd)
    by_cases hempty : src = []
    · subst hempty
      rw [fillDescriptors_nil, put_pieces_nil, List.take_nil]
      rfl
    · rw [MmioTransport.fillDescriptors, room_cons, pieces]
      by_cases hwrite : desc.flags &&& vringDescFWrite ≠ 0
      · rw [if_neg hwrite, if_pos hwrite, if_pos hwrite, if_neg (List.isEmpty_iff.not.mpr hempty)]
        have hstep : ∀ offset, desc.len = 0 ∨ offset = gpaToPtr vq.layout desc.addr →
            MmioTransport.fillDescriptors vq descs (src.drop (src.take desc.len).length)
                (written + (src.take desc.len).length) (writeBytes mem offset (src.take desc.len)) =
              (written + (src.take (desc.len + room descs)).length,
                put mem (⟨gpaToPtr vq.layout desc.addr, src.take desc.len⟩ :: pieces vq.layout descs (src.drop desc.len))) := by
          intro offset hoffset
          have hdrop : src.drop (src.take desc.len).length = src.drop desc.len := by
            rw [List.length_take]
            rcases Nat.le_total desc.len src.length with hle | hle
            · rw [Nat.min_eq_left hle]
            · rw [Nat.min_eq_right hle, List.drop_length, List.drop_eq_nil_of_le hle]
          have hmem : writeBytes mem offset (src.take desc.len) =
              Write.apply mem ⟨gpaToPtr vq.layout desc.addr, src.take desc.len⟩ := by
            rcases hoffset with hzero | rfl
            · rw [Write.apply, hzero, List.take_zero, writeBytes_nil, writeBytes_nil]
            · rfl
          rw [hdrop, hrest, hmem, List.take_add, List.length_append, Nat.add_assoc]
          rfl
        cases hdata : vq.writeDescriptorData desc with
        | some offset =>
          refine hstep offset ?_
          by_cases hlen : desc.len = 0
          · exact .inl hlen
          · exact .inr (Option.some.inj (hdata.symm.trans (hfound desc List.mem_cons_self hwrite hlen)))
        | none =>
          have hlen : desc.len = 0 := by
            by_contra hlen
            cases hdata.symm.trans (hfound desc List.mem_cons_self hwrite hlen)
          have hnothing := hstep 0 (.inl hlen)
          rw [hlen, List.take_zero, List.length_nil, List.drop_zero, Nat.add_zero, writeBytes_nil] at hnothing
          rw [hlen, List.take_zero]
          exact hnothing
      · rw [if_pos (not_not.mp hwrite), if_neg hwrite, if_neg hwrite, Nat.zero_add]
        exact hrest src written mem

theorem mapped_gpaToPtr {vq : Virtqueue} {gpa len off i : Nat} (h : vq.Mapped gpa len off)
    (hhole : vq.holeStart ≤ vq.holeEnd) (hi : i < len) : gpaToPtr vq.layout ((gpa + i) % 2 ^ 64) = off + i := by
  have hgpa := h.gpa_le
  have hoffset := h.offset i hi
  rw [Nat.mod_eq_of_lt (by omega)]
  unfold Virtqueue.gpaToOffset at hoffset
  unfold gpaToPtr Virtqueue.layout
  dsimp only
  split at hoffset
  · split at hoffset
    · cases hoffset
    · rw [if_neg (by omega)]
      exact Option.some.inj hoffset
  · split at hoffset
    · rw [if_neg (by omega)]
      exact Option.some.inj hoffset
    · split at hoffset
      · rename_i hhigh
        dsimp only at hoffset
        split at hoffset
        · cases hoffset
        · rw [if_pos (by omega)]
          exact Option.some.inj hoffset
      · cases hoffset

def descriptorIn (mem : ByteStore) (off : Nat) : Descriptor :=
  ⟨leNat (readBytes mem off 8), leNat (readBytes mem (off + 8) 4), leNat (readBytes mem (off + 12) 2),
    leNat (readBytes mem (off + 14) 2)⟩

inductive Linked (vq : Virtqueue) (mem : ByteStore) : Nat → List (Nat × Nat) → Prop
  | last {idx off : Nat} (hidx : idx < vq.size) (hmapped : vq.Mapped (vq.descTable + idx * 16) 16 off)
      (hlast : (descriptorIn mem off).flags &&& vringDescFNext = 0) : Linked vq mem idx [(idx, off)]
  | next {idx off : Nat} {entries : List (Nat × Nat)} (hidx : idx < vq.size)
      (hmapped : vq.Mapped (vq.descTable + idx * 16) 16 off)
      (hnext : (descriptorIn mem off).flags &&& vringDescFNext ≠ 0)
      (rest : Linked vq mem (descriptorIn mem off).next entries) : Linked vq mem idx ((idx, off) :: entries)

def chainDescs (mem : ByteStore) (entries : List (Nat × Nat)) : List Descriptor :=
  entries.map fun e => descriptorIn mem e.2

def BufferApart (l : GuestLayout) (desc : Descriptor) (off len : Nat) : Prop :=
  Apart (gpaToPtr l desc.addr) desc.len off len

structure RxChain (vq : Virtqueue) (mem : ByteStore) (head : Nat) (entries : List (Nat × Nat)) (usedIdx : Nat) :
    Prop where
  linked : Linked vq mem head entries
  acyclic : (entries.map Prod.fst).Nodup
  mapped : ∀ desc ∈ chainDescs mem entries, desc.flags &&& vringDescFWrite ≠ 0 → desc.len ≠ 0 →
    vq.Mapped desc.addr desc.len (gpaToPtr vq.layout desc.addr)
  table : ∀ desc ∈ chainDescs mem entries, desc.flags &&& vringDescFWrite ≠ 0 → ∀ e ∈ entries,
    BufferApart vq.layout desc e.2 16
  used : ∀ desc ∈ chainDescs mem entries, desc.flags &&& vringDescFWrite ≠ 0 → BufferApart vq.layout desc usedIdx 2

section Chain

variable {vq : Virtqueue} {mem mem' : ByteStore} {idx off : Nat} {entries : List (Nat × Nat)}

theorem readDescriptor_eq (h : vq.Mapped (vq.descTable + idx * 16) 16 off) :
    vq.readDescriptor mem idx = some (descriptorIn mem off) := by
  have hread : vq.readU64 mem (vq.descTable + idx * 16 + 0) = _ := h.readU64_eq (by decide)
  rw [Nat.add_zero, Nat.add_zero] at hread
  simp only [Virtqueue.readDescriptor, hread, h.readU32_eq (by decide : 8 + 4 ≤ 16),
    h.readU16_eq (by decide : 12 + 2 ≤ 16), h.readU16_eq (by decide : 14 + 2 ≤ 16)]
  rfl

theorem Linked.walk_eq (h : Linked vq mem idx entries) {left : Nat} (hleft : entries.length ≤ left) :
    vq.walk mem left idx = some (chainDescs mem entries) := by
  induction h generalizing left with
  | last hidx hmapped hlast =>
    obtain ⟨left, rfl⟩ := Nat.exists_eq_add_of_lt hleft
    rw [Virtqueue.walk, if_neg (Nat.not_le.mpr hidx), readDescriptor_eq hmapped]
    dsimp only
    rw [if_neg (not_not.mpr hlast)]
    rfl
  | next hidx hmapped hnext _ ih =>
    obtain ⟨left, rfl⟩ := Nat.exists_eq_add_of_lt hleft
    rw [Virtqueue.walk, if_neg (Nat.not_le.mpr hidx), readDescriptor_eq hmapped]
    dsimp only
    rw [if_pos hnext, ih (by simp only [List.length_cons] at hleft ⊢; omega)]
    rfl

theorem Linked.length_le (h : Linked vq mem idx entries) (hacyclic : (entries.map Prod.fst).Nodup) :
    entries.length ≤ vq.size := by
  have hlt : ∀ i ∈ entries.map Prod.fst, i ∈ List.range vq.size := by
    clear hacyclic
    induction h with
    | last hidx _ _ => simpa using hidx
    | next hidx _ _ _ ih =>
      rintro i hi
      rcases List.mem_cons.mp hi with rfl | hi
      · exact List.mem_range.mpr hidx
      · exact ih i hi
  have hle := (List.subperm_of_subset hacyclic hlt).length_le
  rwa [List.length_map, List.length_range] at hle

theorem descriptorIn_congr (h : AgreeOn off 16 mem mem') : descriptorIn mem' off = descriptorIn mem off := by
  have h0 := h.readBytes_eq (i := 0) (n := 8) (by decide)
  rw [Nat.add_zero] at h0
  rw [descriptorIn, descriptorIn, h0, h.readBytes_eq (by decide), h.readBytes_eq (by decide), h.readBytes_eq (by decide)]

theorem fill_copy_agree {len ptr : Nat} {desc : Descriptor} (h : AgreeOn off len mem mem') (filling : Filling)
    (hapart : desc.flags &&& vringDescFWrite ≠ 0 → Apart ptr desc.len off len) :
    AgreeOn off len mem (fill.copy ptr desc (mem', filling)).1 := by
  by_cases hwrite : desc.flags &&& vringDescFWrite ≠ 0
  · obtain ⟨filling', hcopy, -, -⟩ := fill_copy desc ptr mem' filling hwrite
    rw [hcopy]
    refine h.trans (AgreeOn.writeBytes ?_)
    have hle := List.length_take_le desc.len (filling.hdr ++ filling.frame)
    have happart := hapart hwrite
    unfold Apart at happart ⊢
    omega
  · have hcopy : fill.copy ptr desc (mem', filling) = (mem', filling) := if_neg hwrite
    rw [hcopy]
    exact h

theorem descPtr_eq {q : QueueInfo} (hdesc : q.descAddr = vq.descTable) (hhole : vq.holeStart ≤ vq.holeEnd)
    (h : vq.Mapped (vq.descTable + idx * 16) 16 off) : descPtr vq.layout q idx = off := by
  have hptr := mapped_gpaToPtr h hhole (i := 0) (by decide)
  rw [descPtr, hdesc]
  exact hptr

theorem fill_descriptorIn {q : QueueInfo} (hdesc : q.descAddr = vq.descTable) (hhole : vq.holeStart ≤ vq.holeEnd)
    (hentry : vq.Mapped (vq.descTable + idx * 16) 16 off) (hsame : AgreeOn off 16 mem mem')
    (hmapped : (descriptorIn mem off).flags &&& vringDescFWrite ≠ 0 → (descriptorIn mem off).len ≠ 0 →
      vq.Mapped (descriptorIn mem off).addr (descriptorIn mem off).len (gpaToPtr vq.layout (descriptorIn mem off).addr))
    (filling : Filling) : descriptorAt vq.layout q mem' idx = descriptorIn mem off ∧
      DescriptorIn vq.layout q fill idx (mem', filling) := by
  have hptr := descPtr_eq hdesc hhole hentry
  have hat : descriptorAt vq.layout q mem' idx = descriptorIn mem off := by
    rw [← descriptorIn_congr hsame, ← hptr]
    rfl
  refine ⟨hat, ⟨?_, ?_⟩⟩
  · rw [hptr]
    exact .inr hentry.off_le
  · dsimp only
    rw [hat]
    by_cases hwrite : (descriptorIn mem off).flags &&& vringDescFWrite ≠ 0
    · have hneeds : fill.needs (descriptorIn mem off) filling =
          min (filling.hdr.length + filling.frame.length) (descriptorIn mem off).len := if_pos hwrite
      rw [hneeds]
      by_cases hlen : (descriptorIn mem off).len = 0
      · left
        rw [hlen, Nat.min_zero]
      · right
        have hle := (hmapped hwrite hlen).off_le
        have hmin := Nat.min_le_right (filling.hdr.length + filling.frame.length) (descriptorIn mem off).len
        exact (Nat.add_le_add_left hmin _).trans hle
    · left
      exact if_neg hwrite

theorem Linked.fill_walk {q : QueueInfo} (h : Linked vq mem idx entries) (hdesc : q.descAddr = vq.descTable)
    (hhole : vq.holeStart ≤ vq.holeEnd)
    (hmapped : ∀ desc ∈ chainDescs mem entries, desc.flags &&& vringDescFWrite ≠ 0 → desc.len ≠ 0 →
      vq.Mapped desc.addr desc.len (gpaToPtr vq.layout desc.addr))
    (htable : ∀ desc ∈ chainDescs mem entries, desc.flags &&& vringDescFWrite ≠ 0 → ∀ e ∈ entries,
      BufferApart vq.layout desc e.2 16)
    (hkept : ∀ e ∈ entries, AgreeOn e.2 16 mem mem') (filling : Filling) :
    walk vq.layout q fill entries.length idx (mem', filling) = some (.ok ((chainDescs mem entries).foldl
      (fun s desc => fill.copy (gpaToPtr vq.layout desc.addr) desc s) (mem', filling))) := by
  induction h generalizing mem' filling with
  | @last idx off hidx hentry hlast =>
    obtain ⟨hat, hin⟩ := fill_descriptorIn hdesc hhole hentry (hkept _ List.mem_cons_self)
      (hmapped _ List.mem_cons_self) filling
    refine walk_eq_ok.mpr ⟨hin, ?_⟩
    dsimp only
    rw [hat, if_neg (not_not.mpr hlast), visited, hat]
    rfl
  | @next idx off entries hidx hentry hnext _ ih =>
    obtain ⟨hat, hin⟩ := fill_descriptorIn hdesc hhole hentry (hkept _ List.mem_cons_self)
      (hmapped _ List.mem_cons_self) filling
    refine walk_eq_ok.mpr ⟨hin, ?_⟩
    dsimp only
    rw [hat, if_pos hnext, visited, hat]
    refine ih (fun desc hd => hmapped desc (List.mem_cons_of_mem _ hd))
      (fun desc hd hwrite e he => htable desc (List.mem_cons_of_mem _ hd) hwrite e (List.mem_cons_of_mem _ he)) ?_ _
    intro e he
    exact fill_copy_agree (hkept e (List.mem_cons_of_mem _ he)) filling
      fun hwrite => htable _ List.mem_cons_self hwrite e (List.mem_cons_of_mem _ he)

theorem put_pieces_agree {l : GuestLayout} {descs : List Descriptor} {len : Nat}
    (hapart : ∀ desc ∈ descs, desc.flags &&& vringDescFWrite ≠ 0 → BufferApart l desc off len) (data : List UInt8)
    (h : AgreeOn off len mem mem') : AgreeOn off len mem (put mem' (pieces l descs data)) := by
  induction descs generalizing mem' data with
  | nil => exact h
  | cons desc descs ih =>
    have hrest := fun d hd => hapart d (List.mem_cons_of_mem desc hd)
    rw [pieces]
    split
    · rename_i hwrite
      refine ih hrest _ (h.trans (AgreeOn.writeBytes ?_))
      have hle := List.length_take_le desc.len data
      have happart := hapart desc List.mem_cons_self hwrite
      unfold BufferApart Apart at happart
      unfold Apart
      dsimp only
      omega
    · exact ih hrest data h

end Chain

structure Position (vq : Virtqueue) (q : QueueInfo) (mem : ByteStore) where
  availIdx : Nat
  entry : Nat
  usedIdx : Nat
  usedEntry : Nat
  descAddr : q.descAddr = vq.descTable
  availAddr : q.availAddr = vq.availRing
  usedAddr : q.usedAddr = vq.usedRing
  size : q.size ≠ 0
  sameIdx : word16 mem usedIdx = vq.lastAvailIdx
  sameSlot : vq.lastAvailIdx % q.size = vq.lastAvailIdx % vq.size
  posted : word16 mem availIdx ≠ vq.lastAvailIdx
  availIdxMapped : vq.Mapped (vq.availRing + 2) 2 availIdx
  entryMapped : vq.Mapped (vq.availRing + (4 + vq.lastAvailIdx % vq.size * 2)) 2 entry
  usedIdxMapped : vq.Mapped (vq.usedRing + 2) 2 usedIdx
  usedEntryMapped : vq.Mapped (vq.usedRing + (4 + vq.lastAvailIdx % vq.size * 8)) 8 usedEntry

namespace Position

variable {vq : Virtqueue} {q : QueueInfo} {mem mem' : ByteStore} (pos : Position vq q mem)

def head : Nat := word16 mem pos.entry

def pushed (mem' : ByteStore) (written : Nat) : ByteStore :=
  writeBytes (writeBytes (writeBytes mem' pos.usedEntry (leBytes 4 pos.head)) (pos.usedEntry + 4) (leBytes 4 written))
    pos.usedIdx (leBytes 2 ((vq.lastAvailIdx + 1) % 2 ^ 16))

theorem readU16_eq {gpa off : Nat} (h : vq.Mapped gpa 2 off) : vq.readU16 mem gpa = some (word16 mem off) :=
  h.readU16_eq (i := 0) (by decide)

theorem not_busy (pos : Position vq q mem) (hready : vq.ready = true) : ¬ ((!vq.ready || !vq.hasMem) = true) := by
  simp [hready, pos.availIdxMapped.hasMem]

theorem hasAvailable_eq (pos : Position vq q mem) (hready : vq.ready = true) : vq.hasAvailable mem = true := by
  unfold Virtqueue.hasAvailable
  rw [if_neg (pos.not_busy hready), readU16_eq pos.availIdxMapped]
  exact bne_iff_ne.mpr pos.posted

theorem popAvail_eq (hready : vq.ready = true) {descs : List Descriptor}
    (hwalk : vq.walk mem vq.size pos.head = some descs) :
    vq.popAvail mem = some (⟨pos.head, descs⟩, { vq with lastAvailIdx := (vq.lastAvailIdx + 1) % 2 ^ 16 }) := by
  have hhead : word16 mem pos.entry = pos.head := rfl
  have hentry := @readU16_eq _ mem _ _ pos.entryMapped
  rw [← Nat.add_assoc, hhead] at hentry
  unfold Virtqueue.popAvail
  rw [if_neg (pos.not_busy hready), readU16_eq pos.availIdxMapped]
  dsimp only
  rw [if_neg pos.posted, hentry]
  dsimp only
  rw [hwalk]
  rfl

theorem pushUsed_eq (hready : vq.ready = true) (hkept : AgreeOn pos.usedIdx 2 mem mem') (n written : Nat) :
    Virtqueue.pushUsed { vq with lastAvailIdx := n } mem' pos.head written = (pos.pushed mem' written, true) := by
  have hsame : Virtqueue.pushUsed { vq with lastAvailIdx := n } mem' pos.head written =
      vq.pushUsed mem' pos.head written := rfl
  have hidx : word16 mem' pos.usedIdx = vq.lastAvailIdx := (hkept.word16_eq (i := 0) (by decide)).trans pos.sameIdx
  have hid := @Virtqueue.Mapped.writeU32_eq _ _ _ _ mem' pos.usedEntryMapped 0 pos.head (by decide)
  have hlen := fun mem => @Virtqueue.Mapped.writeU32_eq _ _ _ _ mem pos.usedEntryMapped 4 written (by decide)
  have hnext := fun mem => @Virtqueue.Mapped.writeU16_eq _ _ _ _ mem pos.usedIdxMapped 0
    ((vq.lastAvailIdx + 1) % 2 ^ 16) (by decide)
  rw [Nat.add_zero, Nat.add_zero, ← Nat.add_assoc] at hid
  simp only [Nat.add_zero, ← Nat.add_assoc] at hlen hnext
  rw [hsame, Virtqueue.pushUsed, if_neg (pos.not_busy hready), readU16_eq pos.usedIdxMapped, hidx]
  dsimp only
  rw [hid]
  dsimp only
  rw [hlen]
  dsimp only
  rw [hnext]
  rfl

theorem availIdxPtr_eq (hhole : vq.holeStart ≤ vq.holeEnd) : availIdxPtr vq.layout q = pos.availIdx := by
  rw [availIdxPtr, pos.availAddr]
  exact mapped_gpaToPtr pos.availIdxMapped hhole (by decide : 0 < 2)

theorem availEntryPtr_eq (hhole : vq.holeStart ≤ vq.holeEnd) :
    availEntryPtr vq.layout q (vq.lastAvailIdx % q.size) = pos.entry := by
  rw [availEntryPtr, pos.availAddr, pos.sameSlot]
  exact mapped_gpaToPtr pos.entryMapped hhole (by decide : 0 < 2)

theorem usedIdxPtr_eq (hhole : vq.holeStart ≤ vq.holeEnd) : usedIdxPtr vq.layout q = pos.usedIdx := by
  rw [usedIdxPtr, pos.usedAddr]
  exact mapped_gpaToPtr pos.usedIdxMapped hhole (by decide : 0 < 2)

theorem usedEntryPtr_eq (hhole : vq.holeStart ≤ vq.holeEnd) :
    usedEntryPtr vq.layout q (vq.lastAvailIdx % q.size) = pos.usedEntry := by
  rw [usedEntryPtr, pos.usedAddr, pos.sameSlot]
  exact mapped_gpaToPtr pos.usedEntryMapped hhole (by decide : 0 < 8)

theorem rxPopAvail_eq (pos : Position vq q mem) {queueConfigs : List QueueInfo} (hq : queueConfigs[rxQueue]? = some q)
    (hprogrammed : q.availAddr ≠ 0) (hhole : vq.holeStart ≤ vq.holeEnd) :
    rxPopAvail vq.layout queueConfigs mem = .ok (some (q, pos.head, vq.lastAvailIdx)) := by
  have havail : availIdxOf vq.layout q mem = word16 mem pos.availIdx := by
    rw [availIdxOf, pos.availIdxPtr_eq hhole]
    rfl
  have hused : usedIdxOf vq.layout q mem = vq.lastAvailIdx := by
    rw [usedIdxOf, pos.usedIdxPtr_eq hhole]
    exact pos.sameIdx
  have hhead : entryOf vq.layout q mem vq.lastAvailIdx = pos.head := by
    rw [entryOf, pos.availEntryPtr_eq hhole]
    rfl
  refine (rxPopAvail_eq_ok pos.availIdxMapped.hasMem hq hprogrammed).mpr ⟨?_, ?_, ?_⟩
  · rw [pos.availIdxPtr_eq hhole]
    exact .inr pos.availIdxMapped.off_le
  · rw [pos.usedIdxPtr_eq hhole]
    exact .inr pos.usedIdxMapped.off_le
  · rw [havail, hused, if_neg pos.posted]
    refine ⟨pos.head, readAvailRingEntry_eq_ok.mpr ⟨⟨pos.size, ?_⟩, hhead⟩, rfl⟩
    rw [pos.availEntryPtr_eq hhole]
    exact .inr pos.entryMapped.off_le

theorem rawPushUsed_eq (hhole : vq.holeStart ≤ vq.holeEnd) (mem' : ByteStore) (written : Nat) :
    Raw.pushUsed vq.layout q mem' vq.lastAvailIdx pos.head written = .ok (pos.pushed mem' written) := by
  refine pushUsed_eq_ok.mpr ⟨⟨pos.size, ?_, ?_⟩, ?_⟩
  · rw [pos.usedEntryPtr_eq hhole]
    exact .inr pos.usedEntryMapped.off_le
  · rw [pos.usedIdxPtr_eq hhole]
    exact .inr pos.usedIdxMapped.off_le
  · unfold Raw.pushed pushed
    rw [pos.usedEntryPtr_eq hhole, pos.usedIdxPtr_eq hhole]

end Position

/-- Both ways fill the chain with twelve zeros and the frame, cut to what it holds, and push the same element. -/
theorem receive_paths_agree {δ : Type} {t : MmioTransport δ} {vq : Virtqueue} {queueConfigs : List QueueInfo}
    {q : QueueInfo} {mem : ByteStore} {entries : List (Nat × Nat)} (frame : Frame)
    (hvq : t.virtqueues[0]? = some vq) (hready : vq.ready = true) (hq : queueConfigs[rxQueue]? = some q)
    (hprogrammed : q.availAddr ≠ 0) (hhole : vq.holeStart ≤ vq.holeEnd) (pos : Position vq q mem)
    (hchain : RxChain vq mem pos.head entries pos.usedIdx) :
    let descs := chainDescs mem entries
    let data := List.replicate 12 0 ++ frame.bytes
    let filled := pieces vq.layout descs data
    let after := pos.pushed (put mem filled) (data.take (room descs)).length
    filled.flatMap Write.data = data.take (room descs) ∧ (t.injectRxFrame mem frame.bytes).2 = (after, true) ∧
      ∃ delivered, ∀ fuel, entries.length ≤ fuel →
        processRxFromTap vq.layout queueConfigs (some frame) fuel mem = some (.ok (after, delivered)) := by
  dsimp only
  have hlinked := hchain.linked
  have hfound : ∀ desc ∈ chainDescs mem entries, desc.flags &&& vringDescFWrite ≠ 0 → desc.len ≠ 0 →
      vq.writeDescriptorData desc = some (gpaToPtr vq.layout desc.addr) := by
    intro desc hdesc hwrite hlen
    have hmapped := hchain.mapped desc hdesc hwrite hlen
    have hrange := hmapped.guestRange_eq (i := 0) (Nat.pos_of_ne_zero hlen) (Nat.zero_add _).le
    have hgpa := hmapped.gpa_le
    rw [Nat.add_zero, Nat.mod_eq_of_lt (by omega)] at hrange
    exact hrange
  have hkept : AgreeOn pos.usedIdx 2 mem
      (put mem (pieces vq.layout (chainDescs mem entries) (List.replicate 12 0 ++ frame.bytes))) :=
    put_pieces_agree hchain.used _ fun _ _ _ => rfl
  refine ⟨pieces_data _ _ _, ?_, ?_⟩
  · have hwalk := hlinked.walk_eq (hlinked.length_le hchain.acyclic)
    have hpop := pos.popAvail_eq hready hwalk
    have hidle : ¬ ((!vq.ready || !vq.hasAvailable mem) = true) := by simp [hready, pos.hasAvailable_eq hready]
    have hfilled := @fillDescriptors_eq { vq with lastAvailIdx := (vq.lastAvailIdx + 1) % 2 ^ 16 } _ hfound
      (List.replicate 12 0 ++ frame.bytes) 0 mem
    have hpush := pos.pushUsed_eq hready hkept ((vq.lastAvailIdx + 1) % 2 ^ 16)
      ((List.replicate 12 0 ++ frame.bytes).take (room (chainDescs mem entries))).length
    rw [Nat.zero_add] at hfilled
    simp only [MmioTransport.injectRxFrame, hvq, if_neg hidle, hpop, hfilled]
    exact congrArg (fun pushed : ByteStore × Bool => (pushed.1, true)) hpush
  · have hpop := pos.rxPopAvail_eq hq hprogrammed hhole
    have hwalk := hlinked.fill_walk pos.descAddr hhole hchain.mapped hchain.table (fun _ _ _ _ _ => rfl) (.start frame)
    obtain ⟨hmem, hwritten⟩ := fill_foldl vq.layout (chainDescs mem entries) mem (.start frame)
    generalize (chainDescs mem entries).foldl (fun s desc => fill.copy (gpaToPtr vq.layout desc.addr) desc s)
      (mem, .start frame) = filled at hwalk hmem hwritten
    refine ⟨decide (0 < filled.2.written), fun fuel hfuel => processRxFromTap_eq_ok.mpr ⟨_, hpop, .inr ?_⟩⟩
    refine ⟨_, _, _, _, _, _, rfl, rfl, walk_steady hwalk hfuel, ?_, rfl⟩
    -- The count of 32 bits is large enough for what the TAP gives.
    have hlength : ((List.replicate 12 0 ++ frame.bytes).take (room (chainDescs mem entries))).length < 2 ^ 32 := by
      have hframe := frame.le
      simp only [List.length_take, List.length_append, List.length_replicate]
      omega
    have hcount := (congrArg UInt32.toNat (hwritten.trans (UInt32.zero_add _))).trans
      (UInt32.toNat_ofNat_of_lt' hlength)
    rw [hmem, hcount]
    exact pos.rawPushUsed_eq hhole _ _

def twoBuffersQueue : Virtqueue where
  size := 4
  ready := true
  descTable := 0x1000
  availRing := 0x2000
  usedRing := 0x3000
  lastAvailIdx := 0
  hasMem := true
  guestMemSize := 0x10000

def twoBuffersMem : ByteStore :=
  writeBytes (writeBytes (fun _ => 0) 0x2002 [1]) 0x1000
    [0, 0x40, 0, 0, 0, 0, 0, 0, 5, 0, 0, 0, 3, 0, 1, 0, 0, 0x50, 0, 0, 0, 0, 0, 0, 100, 0, 0, 0, 2, 0, 0, 0]

def threeBytes : Frame where
  bytes := [1, 2, 3]
  pos := Nat.succ_pos 2
  le := Nat.le_of_ble_eq_true rfl

def twoBuffersTransport : MmioTransport VirtioNet where
  ops := device
  device := ⟨[]⟩
  irq := 5
  queues := []
  virtqueues := [twoBuffersQueue]
  hasMem := true
  guestMemSize := 0x10000

theorem twoBuffers_mapped {gpa len : Nat} (h : gpa + len ≤ 0x10000) : twoBuffersQueue.Mapped gpa len gpa := by
  apply Virtqueue.Mapped.withoutHole rfl rfl _ h
  change 0x10000 < 2 ^ 64
  decide

def twoBuffersPosition : Position twoBuffersQueue ⟨4, 0x1000, 0x2000, 0x3000⟩ twoBuffersMem where
  availIdx := 0x2002
  entry := 0x2004
  usedIdx := 0x3002
  usedEntry := 0x3004
  descAddr := rfl
  availAddr := rfl
  usedAddr := rfl
  size := Nat.succ_ne_zero 3
  sameIdx := rfl
  sameSlot := rfl
  posted := Nat.succ_ne_zero 0
  availIdxMapped := twoBuffers_mapped (Nat.le_of_ble_eq_true rfl)
  entryMapped := twoBuffers_mapped (Nat.le_of_ble_eq_true rfl)
  usedIdxMapped := twoBuffers_mapped (Nat.le_of_ble_eq_true rfl)
  usedEntryMapped := twoBuffers_mapped (Nat.le_of_ble_eq_true rfl)

theorem twoBuffers_chain : RxChain twoBuffersQueue twoBuffersMem twoBuffersPosition.head [(0, 0x1000), (1, 0x1010)]
    twoBuffersPosition.usedIdx where
  linked := by
    refine .next (by decide) (twoBuffers_mapped (by decide)) (by decide) ?_
    exact .last (by decide) (twoBuffers_mapped (by decide)) (by decide)
  acyclic := by decide
  mapped := by
    intro desc hdesc _ _
    rcases List.mem_pair.mp hdesc with rfl | rfl
    · exact twoBuffers_mapped (by decide)
    · exact twoBuffers_mapped (by decide)
  table := by
    intro desc hdesc _ e he
    have hentry : e.2 + 16 ≤ 0x1020 := by
      rcases List.mem_pair.mp he with rfl | rfl
      · decide
      · decide
    refine .inr (hentry.trans ?_)
    rcases List.mem_pair.mp hdesc with rfl | rfl
    · decide
    · decide
  used := by
    intro desc hdesc _
    rcases List.mem_pair.mp hdesc with rfl | rfl
    · exact .inr (by decide)
    · exact .inr (by decide)

theorem receive_paths_agree_two_buffers :
    let after := twoBuffersPosition.pushed (put twoBuffersMem (pieces twoBuffersQueue.layout
      (chainDescs twoBuffersMem [(0, 0x1000), (1, 0x1010)]) (List.replicate 12 0 ++ threeBytes.bytes))) 15
    (twoBuffersTransport.injectRxFrame twoBuffersMem threeBytes.bytes).2 = (after, true) ∧
      ∃ delivered, processRxFromTap twoBuffersQueue.layout [⟨4, 0x1000, 0x2000, 0x3000⟩] (some threeBytes) 2
        twoBuffersMem = some (.ok (after, delivered)) := by
  obtain ⟨-, htransport, delivered, hdevice⟩ := @receive_paths_agree _ twoBuffersTransport _
    [⟨4, 0x1000, 0x2000, 0x3000⟩] _ _ _ threeBytes rfl rfl rfl (by decide) (by decide) twoBuffersPosition
    twoBuffers_chain
  exact ⟨htransport, delivered, hdevice 2 (by decide)⟩

end CloneVmm.Virtio.Net
