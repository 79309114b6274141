import CloneVmm.Storage.Qcow2

namespace CloneVmm.Storage

open CloneVmm.Lib CloneVmm.Lib.Prog

inductive Op
  | readAt (offset n : Nat)
  | writeAt (offset : Nat) (data : Bytes)
  | flush

def Op.apply {B : Type} [Backing B] (host : Host) (q : Qcow2File B) : Op → Qcow2File B
  | readAt offset n => ((Qcow2File.readAt host offset n).exec q).2
  | writeAt offset data => ((Qcow2File.writeAt host offset data).exec q).2
  | flush => ((Qcow2File.flush host).exec q).2

namespace Qcow2File

section Chunks

variable {B α : Type} {host : Host} {I : Qcow2File B → Prop}

theorem keeps_orFail (e : Qcow2Error) (a : Option α) : (orFail e a : Io B α).Keeps I fun _ => True := by
  cases a with
  | none => exact keeps_throw
  | some a => exact keeps_pure trivial

theorem keeps_translateCluster (hcached : ∀ i offset, (ensureL2Cached host i offset).Keeps I fun _ => True)
    (guestOffset : Nat) : (translateCluster host guestOffset).Keeps I fun _ => True := by
  refine keeps_get.bind fun q _ => Keeps.ite ?_ keeps_throw
  refine (keeps_orFail _ _).bind fun l1Entry _ => Keeps.ite (keeps_pure trivial) ?_
  have hentry : ∀ i offset l2Index, (getL2Entry host i offset l2Index).Keeps I fun _ => True := fun i offset l2Index =>
    (hcached i offset).bind fun _ _ => keeps_get.bind fun q' _ => (keeps_orFail _ _).bind fun _ _ => keeps_orFail _ _
  refine (hentry _ _ _).bind fun l2Entry _ => ?_
  cases hostOffsetOf l2Entry with
  | error e => exact keeps_throw
  | ok hostOffset => exact keeps_pure trivial

variable [Backing B]

theorem keeps_readLoop (htranslate : ∀ pos, (translateCluster host pos).Keeps I fun _ => True)
    (hbacking : ∀ offset n, (readBacking host offset n).Keeps I fun _ => True) (clusterBits pos remaining : Nat) :
    (readLoop host clusterBits pos remaining).Keeps I fun _ => True := by
  induction remaining using Nat.strong_induction_on generalizing pos with
  | h remaining ih =>
    unfold readLoop
    split
    · rename_i hpos
      have hsmaller := chunkLen_pos clusterBits pos remaining hpos
      have hchunk : (readChunk host clusterBits pos (chunkLen clusterBits pos remaining)).Keeps I fun _ => True := by
        refine (htranslate pos).bind fun hostOffset _ => ?_
        cases hostOffset with
        | some hostOffset => exact keeps_get.bind fun q _ => keeps_orFail _ _
        | none => exact hbacking _ _
      exact hchunk.bind fun chunk _ => (ih _ (by omega) _).bind fun rest _ => keeps_pure trivial
    · exact keeps_pure trivial

theorem keeps_readAt (htranslate : ∀ pos, (translateCluster host pos).Keeps I fun _ => True)
    (hbacking : ∀ offset n, (readBacking host offset n).Keeps I fun _ => True) (offset n : Nat) :
    (readAt host offset n).Keeps I fun _ => True := by
  refine keeps_get.bind fun q _ => Keeps.ite keeps_throw ?_
  exact Keeps.ite (keeps_readLoop htranslate hbacking _ _ _) keeps_throw

theorem keeps_writeLoop {clusterBits : Nat}
    (hchunk : ∀ pos (chunk : Bytes), pos % 2 ^ clusterBits + chunk.length ≤ 2 ^ clusterBits →
      (writeChunk host clusterBits pos chunk).Keeps I fun _ => True) (pos : Nat) (data : Bytes) :
    (writeLoop host clusterBits pos data).Keeps I fun _ => True := by
  induction hlen : data.length using Nat.strong_induction_on generalizing pos data with
  | h remaining ih =>
    unfold writeLoop
    split
    · rename_i hpos
      have hsmaller := chunkLen_pos clusterBits pos data.length hpos
      have hfits := chunkLen_fits clusterBits pos data.length
      have htake : (data.take (chunkLen clusterBits pos data.length)).length = chunkLen clusterBits pos data.length :=
        List.length_take_of_le (chunkLen_le _ _ _)
      refine (hchunk _ _ (by rwa [htake])).bind fun _ _ => ih _ ?_ _ _ rfl
      rw [List.length_drop]
      omega
    · exact keeps_pure trivial

theorem keeps_writeAt (hchunk : ∀ clusterBits pos chunk, (writeChunk host clusterBits pos chunk).Keeps I fun _ => True)
    (offset : Nat) (data : Bytes) : (writeAt host offset data).Keeps I fun _ => True := by
  refine keeps_get.bind fun q _ => Keeps.ite keeps_throw ?_
  exact Keeps.ite (keeps_writeLoop (fun pos chunk _ => hchunk _ pos chunk) _ _) keeps_throw

end Chunks

theorem readTable_length {file : HostFile} {offset count : Nat} {entries : List Nat}
    (h : readTable file offset count = .ok entries) : entries.length = count := by
  unfold readTable at h
  split at h
  · cases h
    exact Eq.symm ‹_›
  · split at h
    · cases h
    · cases h
      simp

structure Stable {B : Type} [Backing B] (host : Host) (Good : L2CacheEntry → Prop) (I : Qcow2File B → Prop) : Prop where
  file : ∀ {q} file, I q → I { q with file := file }
  nextAllocOffset : ∀ {q} n, I q → I { q with nextAllocOffset := n }
  refcountTable : ∀ {q} table, I q → I { q with refcountTable := table }
  header : ∀ {q} off n, I q → I { q with header := { q.header with refcountTableOffset := off, refcountTableClusters := n } }
  l1Table : ∀ {q} i entry, I q → I { q with l1Table := q.l1Table.set i entry }
  accessCounter : ∀ {q} n, I q → I { q with accessCounter := n }
  insert : ∀ {q entry} i, I q → Good entry → I { q with l2Cache := q.l2Cache.insert i entry }
  erase : ∀ {q} i, I q → I { q with l2Cache := q.l2Cache.erase i }
  lookup : ∀ {q i entry}, I q → q.l2Cache.lookup i = some entry → Good entry
  resize : ∀ {entry entry'}, Good entry → entry'.entries.length = entry.entries.length → Good entry'
  fresh : ∀ {q entry}, I q → entry.entries.length = q.header.l2EntriesPerTable → Good entry
  backing : ∀ {q b} offset n, I q → q.backing = some b → I { q with backing := some (Backing.readAt host b offset n).2 }

namespace Stable

variable {B : Type} [Backing B] {host : Host} {Good : L2CacheEntry → Prop} {I : Qcow2File B → Prop}
  (hI : Stable host Good I)

include hI

theorem setLen (n : Nat) : (setLen host n).Keeps I fun _ => True :=
  Keeps.ite (keeps_modifyGet fun _ => hI.file _) keeps_throw

theorem writeAll (off : Nat) (bs : Bytes) : (writeAll host off bs).Keeps I fun _ => True :=
  Keeps.ite (keeps_modifyGet fun _ => hI.file _) keeps_throw

theorem allocRefcountBlock (i : Nat) : (allocRefcountBlock host i).Keeps I fun _ => True := by
  refine keeps_get.bind fun q _ => keeps_get.bind fun q' _ => ?_
  refine (keeps_modifyGet fun _ => hI.nextAllocOffset _).bind fun _ _ => (hI.setLen _).bind fun _ _ => ?_
  refine (keeps_modifyGet fun _ => hI.refcountTable _).bind fun _ _ => ?_
  exact Keeps.ite (hI.writeAll _ _) (keeps_pure trivial)

theorem setRefcount (clusterOffset refcount : Nat) : (setRefcount host clusterOffset refcount).Keeps I fun _ => True := by
  refine keeps_get.bind fun q _ => Keeps.bind (m := ensureRefcountBlock host _) (R := fun _ => True) ?_ fun _ _ => ?_
  · refine (keeps_modifyGet fun _ => hI.refcountTable _).bind fun _ _ => keeps_get.bind fun q' _ => ?_
    exact Keeps.ite (hI.allocRefcountBlock _) (keeps_pure trivial)
  · exact keeps_get.bind fun q' _ => (keeps_orFail _ _).bind fun _ _ => hI.writeAll _ _

theorem allocCluster : (allocCluster host).Keeps I fun _ => True := by
  refine keeps_get.bind fun q _ => keeps_get.bind fun q' _ => ?_
  refine (keeps_modifyGet fun _ => hI.nextAllocOffset _).bind fun _ _ => ?_
  exact (hI.setLen _).bind fun _ _ => (hI.setRefcount _ _).bind fun _ _ => keeps_pure trivial

theorem lookup_bind {α : Type} {f : L2CacheEntry → Io B α} (i : Nat)
    (hf : ∀ entry, Good entry → (f entry).Keeps I fun _ => True) :
    (do f (← orFail .panicked ((← get).l2Cache.lookup i)) : Io B α).Keeps I fun _ => True := by
  intro q hq
  apply wp_get_bind
  cases hentry : q.l2Cache.lookup i with
  | none => exact hq
  | some entry => exact hf entry (hI.lookup hq hentry) q hq

theorem flushL2Table (i : Nat) : (flushL2Table host i).Keeps I fun _ => True := by
  refine hI.lookup_bind i fun entry hentry => Keeps.ite ?_ (keeps_pure trivial)
  exact (hI.writeAll _ _).bind fun _ _ => keeps_modifyGet fun _ hq => hI.insert i hq (hI.resize hentry rfl)

theorem makeRoom : (makeRoom host).Keeps I fun _ => True := by
  refine keeps_get.bind fun q _ => Keeps.ite (keeps_get.bind fun q' _ => ?_) (keeps_pure trivial)
  dsimp only
  cases (host.order q'.l2Cache).argmin (lastAccessOf q'.l2Cache) with
  | none => exact keeps_pure trivial
  | some i => exact (hI.flushL2Table i).bind fun _ _ => keeps_modifyGet fun _ => hI.erase i

theorem ensureL2Cached (i offset : Nat) : (ensureL2Cached host i offset).Keeps I fun _ => True := by
  intro q hq
  apply wp_get_bind
  cases hentry : q.l2Cache.lookup i with
  | some entry =>
    have hgood : Good { entry with lastAccess := q.accessCounter + 1 } := hI.resize (hI.lookup hq hentry) rfl
    exact ⟨hI.accessCounter _ (hI.insert i hq hgood), trivial⟩
  | none =>
    refine Wp.seq (hI.makeRoom q hq) fun _ q' hq' => ?_
    apply wp_get_bind
    cases htable : readTable q'.file offset q'.header.l2EntriesPerTable with
    | error e => exact hq'.1
    | ok entries =>
      have hgood : Good ⟨entries, false, offset, q'.accessCounter + 1⟩ := hI.fresh hq'.1 (readTable_length htable)
      exact ⟨hI.accessCounter _ (hI.insert i hq'.1 hgood), trivial⟩

theorem setL2Entry (guestOffset value : Nat) : (setL2Entry host guestOffset value).Keeps I fun _ => True := by
  refine keeps_get.bind fun q _ => (keeps_orFail _ _).bind fun l1Entry _ => ?_
  refine Keeps.bind (m := ensureL2Table host _ _) (R := fun _ => True) ?_ fun _ _ => ?_
  · refine Keeps.ite ?_ (hI.ensureL2Cached _ _)
    refine hI.allocCluster.bind fun newL2Offset _ => keeps_modifyGet fun q' hq' => ?_
    have hgood : Good ⟨List.replicate q'.header.l2EntriesPerTable 0, true, newL2Offset, q'.accessCounter + 1⟩ :=
      hI.fresh hq' List.length_replicate
    exact hI.accessCounter _ (hI.insert _ (hI.l1Table _ _ hq') hgood)
  · refine hI.lookup_bind _ fun entry hentry => Keeps.ite (keeps_modifyGet fun _ hq' => ?_) keeps_throw
    exact hI.insert _ hq' (hI.resize hentry (List.length_set))

theorem flushL2Tables (indices : List Nat) : (flushL2Tables host indices).Keeps I fun _ => True := by
  induction indices with
  | nil => exact keeps_pure trivial
  | cons i indices ih => exact (hI.flushL2Table i).bind fun _ _ => ih

theorem setRefcounts (offsets : List Nat) : (setRefcounts host offsets).Keeps I fun _ => True := by
  induction offsets with
  | nil => exact keeps_pure trivial
  | cons offset offsets ih => exact (hI.setRefcount offset 1).bind fun _ _ => ih

theorem growRefcountTable : (growRefcountTable host).Keeps I fun _ => True := by
  refine keeps_get.bind fun q _ => Keeps.ite ?_ (keeps_pure trivial)
  refine keeps_get.bind fun q _ => keeps_get.bind fun q' _ => ?_
  refine (keeps_modifyGet fun _ => hI.nextAllocOffset _).bind fun _ _ => ?_
  refine (hI.setLen _).bind fun _ _ => (hI.setRefcounts _).bind fun _ _ => ?_
  exact (keeps_modifyGet fun _ => hI.header _ _).bind fun _ _ => keeps_get.bind fun q'' _ => hI.writeAll _ _

theorem flush : (flush host).Keeps I fun _ => True := by
  refine keeps_get.bind fun q _ => (hI.flushL2Tables _).bind fun _ _ => ?_
  refine Keeps.bind (m := writeL1Table host) (keeps_get.bind fun q _ => hI.writeAll _ _) fun _ _ => ?_
  exact hI.growRefcountTable.bind fun _ _ => keeps_get.bind fun q _ => hI.writeAll _ _

theorem readBacking (offset n : Nat) : (readBacking host offset n).Keeps I fun _ => True := by
  intro q hq
  apply wp_get_bind
  cases hbacking : q.backing with
  | none => exact keeps_pure trivial q hq
  | some b =>
    refine Ends.bind (R := fun _ => True) (m := modifyGet _) ⟨hI.backing offset n hq hbacking, trivial⟩ fun _ _ => ?_
    cases (Backing.readAt host b offset n).1 with
    | error e => exact keeps_throw
    | ok bytes => exact keeps_pure trivial

theorem clusterForWrite (clusterBits pos len : Nat) : (clusterForWrite host clusterBits pos len).Keeps I fun _ => True := by
  refine (keeps_translateCluster hI.ensureL2Cached pos).bind fun hostOffset _ => ?_
  cases hostOffset with
  | some hostOffset => exact keeps_pure trivial
  | none =>
    refine hI.allocCluster.bind fun newOffset _ =>
      Keeps.bind (m := fillCluster host _ _ _ _) (R := fun _ => True) ?_ fun _ _ => ?_
    · exact Keeps.ite ((hI.readBacking _ _).bind fun _ _ => hI.writeAll _ _) (keeps_pure trivial)
    · exact (hI.setL2Entry _ _).bind fun _ _ => keeps_pure trivial

theorem writeChunk (clusterBits pos : Nat) (chunk : Bytes) :
    (writeChunk host clusterBits pos chunk).Keeps I fun _ => True :=
  (hI.clusterForWrite _ _ _).bind fun _ _ => hI.writeAll _ _

theorem readAt (offset n : Nat) : (readAt host offset n).Keeps I fun _ => True :=
  keeps_readAt (keeps_translateCluster hI.ensureL2Cached) hI.readBacking offset n

theorem writeAt (offset : Nat) (data : Bytes) : (writeAt host offset data).Keeps I fun _ => True :=
  keeps_writeAt hI.writeChunk offset data

theorem ops (ops : List Op) {q : Qcow2File B} (hq : I q) : I (ops.foldl (Op.apply host) q) := by
  induction ops generalizing q with
  | nil => exact hq
  | cons op ops ih =>
    apply ih
    cases op with
    | readAt offset n => exact (hI.readAt offset n q hq).state
    | writeAt offset data => exact (hI.writeAt offset data q hq).state
    | flush => exact (hI.flush q hq).state

end Stable

end Qcow2File

end CloneVmm.Storage
