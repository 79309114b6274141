import CloneVmm.Storage.Stable

namespace CloneVmm.Storage

open CloneVmm.Lib CloneVmm.Lib.Prog

structure Flat where
  bytes : ByteStore

instance : Backing Flat := ⟨fun _ flat offset n => (.ok (readBytes flat.bytes offset n), flat)⟩

def Serves {B : Type} [Backing B] (host : Host) (base : ByteStore) (room : Nat) (I : B → Prop) : Prop :=
  ∀ b, I b → ∀ offset n, offset + n ≤ room →
    ∃ b', Backing.readAt host b offset n = (.ok (readBytes base offset n), b') ∧ I b'

def Readable {B : Type} [Backing B] (host : Host) (content : ByteStore) (size : Nat) (b : B) : Prop :=
  ∃ I : B → Prop, I b ∧ Serves host content size I

namespace Qcow2File

variable {B : Type} {host : Host} {base : ByteStore} {I : B → Prop} {size bits : Nat}

def flat (base : ByteStore) (q : Qcow2File B) : Qcow2File Flat :=
  ⟨q.file, q.header, q.l1Table, q.refcountTable, q.l2Cache, q.accessCounter, q.nextAllocOffset, q.backing.map fun _ => ⟨base⟩⟩

def Over (I : B → Prop) (size bits : Nat) (q : Qcow2File B) : Prop :=
  (∀ b, q.backing = some b → I b) ∧ q.header.size = size ∧ q.header.clusterBits = bits

section Tables

variable {α : Type}

theorem mirrors_orFail (e : Qcow2Error) (a : Option α) :
    Mirrors (flat base) (Over I size bits) (orFail e a : Io B α) (orFail e a) := by
  cases a with
  | none => exact mirrors_throw e
  | some a => exact mirrors_pure a

theorem mirrors_setLen (n : Nat) : Mirrors (flat base) (Over I size bits) (setLen host n) (setLen host n) :=
  .ite (mirrors_modifyGet (fun _ _ => rfl) fun _ h => h) (mirrors_throw _)

theorem mirrors_writeAll (off : Nat) (bs : Bytes) :
    Mirrors (flat base) (Over I size bits) (writeAll host off bs) (writeAll host off bs) :=
  .ite (mirrors_modifyGet (fun _ _ => rfl) fun _ h => h) (mirrors_throw _)

theorem mirrors_readExact (off n : Nat) :
    Mirrors (flat base) (Over I size bits) (readExact off n : Io B Bytes) (readExact off n) :=
  mirrors_get_bind fun _ _ => mirrors_orFail _ _

theorem mirrors_allocRefcountBlock (i : Nat) :
    Mirrors (flat base) (Over I size bits) (allocRefcountBlock host i) (allocRefcountBlock host i) := by
  refine mirrors_get_bind fun q _ => mirrors_get_bind fun q' _ => ?_
  refine (mirrors_modifyGet (fun _ _ => rfl) fun _ h => h).bind fun _ => (mirrors_setLen _).bind fun _ => ?_
  refine (mirrors_modifyGet (fun _ _ => rfl) fun _ h => h).bind fun _ => ?_
  exact .ite (mirrors_writeAll _ _) (mirrors_pure ())

theorem mirrors_setRefcount (clusterOffset refcount : Nat) :
    Mirrors (flat base) (Over I size bits) (setRefcount host clusterOffset refcount)
      (setRefcount host clusterOffset refcount) := by
  refine mirrors_get_bind fun q _ => Mirrors.bind (m := ensureRefcountBlock host _) ?_ fun _ => ?_
  · refine (mirrors_modifyGet (fun _ _ => rfl) fun _ h => h).bind fun _ => mirrors_get_bind fun q' _ => ?_
    exact .ite (mirrors_allocRefcountBlock _) (mirrors_pure ())
  · exact mirrors_get_bind fun q' _ => (mirrors_orFail _ _).bind fun _ => mirrors_writeAll _ _

theorem mirrors_allocCluster : Mirrors (flat base) (Over I size bits) (allocCluster host) (allocCluster host) := by
  refine mirrors_get_bind fun q _ => mirrors_get_bind fun q' _ => ?_
  refine (mirrors_modifyGet (fun _ _ => rfl) fun _ h => h).bind fun _ => (mirrors_setLen _).bind fun _ => ?_
  exact (mirrors_setRefcount _ _).bind fun _ => mirrors_pure _

theorem mirrors_flushL2Table (i : Nat) :
    Mirrors (flat base) (Over I size bits) (flushL2Table host i) (flushL2Table host i) := by
  refine mirrors_get_bind fun q _ => (mirrors_orFail _ _).bind fun entry => .ite ?_ (mirrors_pure ())
  exact (mirrors_writeAll _ _).bind fun _ => mirrors_modifyGet (fun _ _ => rfl) fun _ h => h

theorem mirrors_makeRoom : Mirrors (flat base) (Over I size bits) (makeRoom host) (makeRoom host) := by
  refine mirrors_get_bind fun q _ => .ite (mirrors_get_bind fun q' _ => ?_) (mirrors_pure ())
  dsimp only [flat]
  cases (host.order q'.l2Cache).argmin (lastAccessOf q'.l2Cache) with
  | none => exact mirrors_pure ()
  | some i => exact (mirrors_flushL2Table i).bind fun _ => mirrors_modifyGet (fun _ _ => rfl) fun _ h => h

theorem mirrors_ensureL2Cached (i offset : Nat) :
    Mirrors (flat base) (Over I size bits) (ensureL2Cached host i offset) (ensureL2Cached host i offset) := by
  unfold ensureL2Cached
  refine mirrors_get_bind fun q _ => ?_
  dsimp only [flat]
  cases q.l2Cache.lookup i with
  | some entry => exact mirrors_modifyGet (fun _ _ => rfl) fun _ h => h
  | none =>
    refine mirrors_makeRoom.bind fun _ => mirrors_get_bind fun q' _ => ?_
    dsimp only [flat]
    cases readTable q'.file offset q'.header.l2EntriesPerTable with
    | error e => exact mirrors_throw e
    | ok entries => exact mirrors_modifyGet (fun _ _ => rfl) fun _ h => h

theorem mirrors_translateCluster (guestOffset : Nat) :
    Mirrors (flat base) (Over I size bits) (translateCluster host guestOffset) (translateCluster host guestOffset) := by
  refine mirrors_get_bind fun q _ => .ite ((mirrors_orFail _ _).bind fun l1Entry => ?_) (mirrors_throw _)
  refine .ite (mirrors_pure none) (Mirrors.bind (m := getL2Entry host _ _ _) ?_ fun l2Entry => ?_)
  · refine (mirrors_ensureL2Cached _ _).bind fun _ => mirrors_get_bind fun q' _ => ?_
    exact (mirrors_orFail _ _).bind fun _ => mirrors_orFail _ _
  · cases hostOffsetOf l2Entry with
    | error e => exact mirrors_throw e
    | ok hostOffset => exact mirrors_pure hostOffset

theorem mirrors_setL2Entry (guestOffset value : Nat) :
    Mirrors (flat base) (Over I size bits) (setL2Entry host guestOffset value) (setL2Entry host guestOffset value) := by
  refine mirrors_get_bind fun q _ => (mirrors_orFail _ _).bind fun l1Entry => ?_
  refine Mirrors.bind (m := ensureL2Table host _ _) (.ite ?_ (mirrors_ensureL2Cached _ _)) fun _ => ?_
  · exact mirrors_allocCluster.bind fun _ => mirrors_modifyGet (fun _ _ => rfl) fun _ h => h
  · refine mirrors_get_bind fun q' _ => (mirrors_orFail _ _).bind fun entry => ?_
    exact .ite (mirrors_modifyGet (fun _ _ => rfl) fun _ h => h) (mirrors_throw _)

theorem mirrors_flushL2Tables (indices : List Nat) :
    Mirrors (flat base) (Over I size bits) (flushL2Tables host indices) (flushL2Tables host indices) := by
  induction indices with
  | nil => exact mirrors_pure ()
  | cons i indices ih => exact (mirrors_flushL2Table i).bind fun _ => ih

theorem mirrors_setRefcounts (offsets : List Nat) :
    Mirrors (flat base) (Over I size bits) (setRefcounts host offsets) (setRefcounts host offsets) := by
  induction offsets with
  | nil => exact mirrors_pure ()
  | cons offset offsets ih => exact (mirrors_setRefcount offset 1).bind fun _ => ih

theorem mirrors_growRefcountTable :
    Mirrors (flat base) (Over I size bits) (growRefcountTable host) (growRefcountTable host) := by
  refine mirrors_get_bind fun q _ => .ite ?_ (mirrors_pure ())
  refine mirrors_get_bind fun q _ => mirrors_get_bind fun q' _ => ?_
  refine (mirrors_modifyGet (fun _ _ => rfl) fun _ h => h).bind fun _ => ?_
  refine (mirrors_setLen _).bind fun _ => (mirrors_setRefcounts _).bind fun _ => ?_
  exact (mirrors_modifyGet (fun _ _ => rfl) fun _ h => h).bind fun _ => mirrors_get_bind fun q'' _ => mirrors_writeAll _ _

theorem mirrors_flush : Mirrors (flat base) (Over I size bits) (flush host) (flush host) := by
  refine mirrors_get_bind fun q _ => (mirrors_flushL2Tables _).bind fun _ => ?_
  refine Mirrors.bind (m := writeL1Table host) (mirrors_get_bind fun q _ => mirrors_writeAll _ _) fun _ => ?_
  exact mirrors_growRefcountTable.bind fun _ => mirrors_get_bind fun q _ => mirrors_writeAll _ _

end Tables

section Reads

variable [Backing B]

theorem readBacking_none {q : Qcow2File B} (h : q.backing = none) (offset n : Nat) :
    (readBacking host offset n).exec q = (.ok (List.replicate n 0), q) := by
  obtain ⟨file, header, l1Table, refcountTable, l2Cache, accessCounter, nextAllocOffset, backing⟩ := q
  cases h
  rfl

theorem readBacking_some {q : Qcow2File B} {b b' : B} (h : q.backing = some b) {offset n : Nat}
    {r : Except Qcow2Error Bytes} (hread : Backing.readAt host b offset n = (r, b')) :
    (readBacking host offset n).exec q = (r, { q with backing := some b' }) := by
  obtain ⟨file, header, l1Table, refcountTable, l2Cache, accessCounter, nextAllocOffset, backing⟩ := q
  cases h
  unfold readBacking
  rw [exec_bind]
  change (modifyGet _ >>= _ : Io B Bytes).exec _ = _
  rw [exec_bind, hread]
  cases r with
  | error e => rfl
  | ok bytes => rfl

variable {room : Nat} (hserves : Serves host base room I)

include hserves

theorem mirrors_readBacking {offset n : Nat} (hend : offset + n ≤ room) :
    Mirrors (flat base) (Over I size bits) (readBacking host offset n) (readBacking host offset n) := by
  intro q hq
  cases hbacking : q.backing with
  | none =>
    have hflat : (q.flat base).backing = none := by rw [flat, hbacking, Option.map_none]
    rw [readBacking_none hbacking, readBacking_none hflat]
    exact ⟨rfl, hq⟩
  | some b =>
    have hflat : (q.flat base).backing = some ⟨base⟩ := by rw [flat, hbacking, Option.map_some]
    obtain ⟨b', hread, hb'⟩ := hserves b (hq.1 b hbacking) offset n hend
    rw [readBacking_some hbacking hread, readBacking_some hflat rfl]
    refine ⟨?_, ?_, hq.2⟩
    · rw [flat, flat, hbacking]
      rfl
    · intro c hc
      cases hc
      exact hb'

theorem mirrors_readLoop {pos remaining : Nat} (hend : pos + remaining ≤ room) :
    Mirrors (flat base) (Over I size bits) (readLoop host bits pos remaining) (readLoop host bits pos remaining) := by
  induction remaining using Nat.strong_induction_on generalizing pos with
  | h remaining ih =>
    unfold readLoop
    split
    · rename_i hpos
      have hsmaller := chunkLen_pos bits pos remaining hpos
      have hle : chunkLen bits pos remaining ≤ remaining := Nat.min_le_right _ _
      refine Mirrors.bind (m := readChunk (B := B) host _ _ _) ?_ fun chunk => ?_
      · refine (mirrors_translateCluster pos).bind fun hostOffset => ?_
        cases hostOffset with
        | some hostOffset => exact mirrors_readExact _ _
        | none => exact mirrors_readBacking hserves (by omega)
      · exact (ih _ (by omega) (by omega)).bind fun rest => mirrors_pure _
    · exact mirrors_pure []

theorem mirrors_readAt (hroom : size ≤ room) (offset n : Nat) :
    Mirrors (flat base) (Over I size bits) (readAt host offset n) (readAt host offset n) := by
  refine mirrors_get_bind fun q hq => .ite (mirrors_throw _) ?_
  change Mirrors _ _ (if offset + n ≤ q.header.size then readLoop host q.header.clusterBits offset n else _)
    (if offset + n ≤ q.header.size then readLoop host q.header.clusterBits offset n else _)
  rw [hq.2.1, hq.2.2]
  split
  · exact mirrors_readLoop hserves (by omega)
  · exact mirrors_throw _

theorem mirrors_writeLoop (hroom : ∀ pos < size, pos - pos % 2 ^ bits + 2 ^ bits ≤ room) {pos : Nat} {data : Bytes}
    (hend : pos + data.length ≤ size) :
    Mirrors (flat base) (Over I size bits) (writeLoop host bits pos data) (writeLoop host bits pos data) := by
  induction hlen : data.length using Nat.strong_induction_on generalizing pos data with
  | h remaining ih =>
    unfold writeLoop
    split
    · rename_i hpos
      have hchunk := chunkLen_pos bits pos data.length hpos
      have hle : chunkLen bits pos data.length ≤ data.length := Nat.min_le_right _ _
      refine Mirrors.bind (m := writeChunk (B := B) host _ _ _) ?_ fun _ => ?_
      · refine Mirrors.bind (m := clusterForWrite (B := B) host _ _ _) ?_ fun _ => mirrors_writeAll _ _
        refine (mirrors_translateCluster pos).bind fun hostOffset => ?_
        cases hostOffset with
        | some hostOffset => exact mirrors_pure hostOffset
        | none =>
          refine mirrors_allocCluster.bind fun newOffset =>
            Mirrors.bind (m := fillCluster (B := B) host _ _ _ _) ?_ fun _ => ?_
          · exact .ite ((mirrors_readBacking hserves (hroom pos (by omega))).bind fun _ => mirrors_writeAll _ _)
              (mirrors_pure ())
          · exact (mirrors_setL2Entry _ _).bind fun _ => mirrors_pure newOffset
      · apply ih _ _ _ rfl
        · rw [List.length_drop]
          omega
        · rw [List.length_drop]
          omega
    · exact mirrors_pure ()

theorem mirrors_writeAt (hroom : ∀ pos < size, pos - pos % 2 ^ bits + 2 ^ bits ≤ room) (offset : Nat) (data : Bytes) :
    Mirrors (flat base) (Over I size bits) (writeAt host offset data) (writeAt host offset data) := by
  refine mirrors_get_bind fun q hq => .ite (mirrors_throw _) ?_
  change Mirrors _ _ (if offset + data.length ≤ q.header.size then writeLoop host q.header.clusterBits offset data else _)
    (if offset + data.length ≤ q.header.size then writeLoop host q.header.clusterBits offset data else _)
  rw [hq.2.1, hq.2.2]
  split
  · exact mirrors_writeLoop hserves hroom ‹_›
  · exact mirrors_throw _

end Reads

end Qcow2File

end CloneVmm.Storage
